import Blockmark.Mention.Cache

/-!
# What becomes known of users

Filling a cache asks for exactly the wanted users that are not known, keeps what is known, and adds
what the answer says. Users in the answer that nobody asked for become known as well.

Main statements: `request?_eq_some`, `keeps_fill` and `isSome_get?_fill`.
-/

namespace Blockmark.Mention.Cache

def Keeps (cache later : Cache) : Prop :=
  ∀ userId info, cache.get? userId = some info → later.get? userId = some info

theorem Keeps.refl (cache : Cache) : Keeps cache cache := fun _ _ known => known

theorem Keeps.trans {cache later last : Cache} (keeps : Keeps cache later)
    (more : Keeps later last) : Keeps cache last :=
  fun userId info known => more userId info (keeps userId info known)

theorem Keeps.get?_eq_none {cache later : Cache} (keeps : Keeps cache later) {userId : String}
    (unknown : later.get? userId = none) : cache.get? userId = none := by
  cases known : cache.get? userId with
  | none => rfl
  | some info =>
      have kept := keeps userId info known
      rw [unknown] at kept
      cases kept

section

variable {cache : Cache} {resolver : Option Resolver} {wanted : UserSet} {userId : String}

theorem keeps_insert (info : UserInfo) : Keeps cache (cache.insert userId info) := by
  intro other old known
  rw [get?_insert]
  split
  · next same =>
      subst same
      rw [known]
      rfl
  · exact known

theorem keeps_insertAll (users : List (String × UserInfo)) :
    Keeps cache (cache.insertAll users) := by
  induction users generalizing cache with
  | nil => exact Keeps.refl cache
  | cons user users ih => exact (keeps_insert user.2).trans ih

theorem isSome_get?_insertAll {users : List (String × UserInfo)}
    (mem : userId ∈ users.map (·.1)) : ((cache.insertAll users).get? userId).isSome := by
  induction users generalizing cache with
  | nil => cases mem
  | cons user users ih =>
      rcases List.mem_cons.1 mem with rfl | mem
      · have first : (cache.insert user.1 user.2).get? user.1 =
            some ((cache.get? user.1).getD user.2) := by
          rw [get?_insert, if_pos rfl]
        have kept := keeps_insertAll users _ _ first
        exact Option.isSome_of_eq_some kept
      · exact ih mem

theorem mem_missing : userId ∈ cache.missing wanted ↔
    userId ∈ wanted ∧ cache.get? userId = none := by
  simp [missing]

theorem request?_eq_some {asked : UserSet} : cache.request? resolver wanted = some asked ↔
    resolver.isSome ∧ asked ≠ [] ∧ asked = cache.missing wanted := by
  unfold request?
  cases resolver with
  | none => simp
  | some resolver =>
      cases missing : cache.missing wanted with
      | nil => simp
      | cons first rest =>
          simp only [List.isEmpty_cons, Option.isNone_some, Bool.or_false, Bool.false_eq_true,
            ↓reduceIte, Option.some.injEq, Option.isSome_some, true_and]
          constructor
          · rintro rfl
            exact ⟨List.cons_ne_nil _ _, rfl⟩
          · exact fun asks => asks.2.symm

theorem fill_of_request?_eq_none (none : cache.request? resolver wanted = none) :
    cache.fill resolver wanted = cache := by
  unfold fill
  rw [none]

theorem fill_of_error {answer : Resolver} {asked : UserSet} {error : ResolveError}
    (request : cache.request? (some answer) wanted = some asked)
    (fails : answer asked = .error error) : cache.fill (some answer) wanted = cache := by
  unfold fill
  rw [request]
  simp only [fails]

theorem fill_of_ok {answer : Resolver} {asked : UserSet} {users : List (String × UserInfo)}
    (request : cache.request? (some answer) wanted = some asked)
    (replies : answer asked = .ok users) :
    cache.fill (some answer) wanted = cache.insertAll users := by
  unfold fill
  rw [request]
  simp only [replies]

theorem keeps_fill : Keeps cache (cache.fill resolver wanted) := by
  unfold fill
  split
  · split
    · exact keeps_insertAll _
    · exact Keeps.refl cache
  · exact Keeps.refl cache

theorem isSome_get?_fill {answer : Resolver}
    (answers : ∀ asked, ∃ users, answer asked = .ok users ∧ asked ⊆ users.map (·.1))
    (mem : userId ∈ wanted) : ((cache.fill (some answer) wanted).get? userId).isSome := by
  cases known : cache.get? userId with
  | some info => exact Option.isSome_of_eq_some (keeps_fill userId info known)
  | none =>
      have asked : userId ∈ cache.missing wanted := mem_missing.2 ⟨mem, known⟩
      have request : cache.request? (some answer) wanted = some (cache.missing wanted) :=
        request?_eq_some.2 ⟨rfl, List.ne_nil_of_mem asked, rfl⟩
      obtain ⟨users, replies, covers⟩ := answers (cache.missing wanted)
      rw [fill_of_ok request replies]
      exact isSome_get?_insertAll (covers asked)

end

end Blockmark.Mention.Cache
