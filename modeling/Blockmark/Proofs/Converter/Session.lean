import Blockmark.Converter
import Blockmark.Proofs.Mention.Cache
import Blockmark.Proofs.Mention.UserSet

/-!
# Sessions

What a converter asks and remembers over any number of imports and exports. Nothing that is known
is ever forgotten or changed, so nobody who is known is asked for again, however the resolver
behaves.

Main statements: `continues_run` and `requests_exportDocument`.
-/

namespace Blockmark.Converter

open Mention

inductive Step
  | importNodes (nodes : List Markdown.Node)
  | importOctets (reader : Import.ReaderRequest → List Markdown.Node) (octets : List UInt8)
  | exportRoots (forest : Forest) (roots : List BlockId)

def after (converter : Converter) : Step → Converter
  | .importNodes _ | .importOctets _ _ => converter
  | .exportRoots forest roots => (converter.exportDocument forest roots).2

def run (converter : Converter) (steps : List Step) : Converter :=
  steps.foldl after converter

def lookup? (converter : Converter) (forest : Forest) (roots : List BlockId) : Option UserSet :=
  if converter.options.expandMentions then
    converter.cache.request? (converter.resolver.map (· converter.requests.length))
      (collect forest roots)
  else none

section

variable {converter : Converter} {forest : Forest} {roots : List BlockId}

/-! ## One export -/

theorem exportDocument_of_not_expand (off : converter.options.expandMentions = false) :
    (converter.exportDocument forest roots).2 = converter := by
  simp [exportDocument, resolveMentions, off]

theorem requests_exportDocument :
    (converter.exportDocument forest roots).2.requests =
      (converter.lookup? forest roots).toList ++ converter.requests := by
  cases expands : converter.options.expandMentions with
  | false => simp [exportDocument_of_not_expand expands, lookup?, expands]
  | true => simp [exportDocument, resolveMentions, lookup?, expands]

theorem lookup?_eq_some {asked : UserSet} : converter.lookup? forest roots = some asked ↔
    converter.options.expandMentions = true ∧ converter.resolver.isSome ∧ asked ≠ [] ∧
      asked = converter.cache.missing (collect forest roots) := by
  cases expands : converter.options.expandMentions with
  | false => simp [lookup?, expands]
  | true => simp [lookup?, expands, Cache.request?_eq_some]

theorem known_of_lookup?_eq_none (silent : converter.lookup? forest roots = none) :
    converter.options.expandMentions = false ∨ converter.resolver = none ∨
      ∀ userId ∈ collect forest roots, (converter.cache.get? userId).isSome := by
  cases expands : converter.options.expandMentions with
  | false => exact Or.inl rfl
  | true =>
      cases installed : converter.resolver with
      | none => exact Or.inr (Or.inl rfl)
      | some resolver =>
          refine Or.inr (Or.inr fun userId wanted => ?_)
          cases known : converter.cache.get? userId with
          | some info => rfl
          | none =>
              have unknown := Cache.mem_missing.2 ⟨wanted, known⟩
              have asks := lookup?_eq_some.2 ⟨expands, Option.isSome_of_eq_some installed,
                List.ne_nil_of_mem unknown, rfl⟩
              rw [silent] at asks
              cases asks

theorem pairwise_missing (cache : Cache) :
    (cache.missing (collect forest roots)).Pairwise (· < ·) :=
  (UserSet.pairwise_ofList _).filter _

theorem keeps_exportDocument :
    converter.cache.Keeps (converter.exportDocument forest roots).2.cache := by
  cases expands : converter.options.expandMentions with
  | false =>
      rw [exportDocument_of_not_expand expands]
      exact Cache.Keeps.refl converter.cache
  | true =>
      rw [exportDocument, resolveMentions, if_pos expands]
      exact Cache.keeps_fill

theorem resolveMentions_of_known
    (known : ∀ userId ∈ collect forest roots, (converter.cache.get? userId).isSome) :
    converter.resolveMentions forest roots = converter := by
  have missing : converter.cache.missing (collect forest roots) = [] := by
    apply List.eq_nil_iff_forall_not_mem.2
    intro userId mem
    obtain ⟨wanted, unknown⟩ := Cache.mem_missing.1 mem
    have isKnown := known userId wanted
    rw [unknown] at isKnown
    cases isKnown
  have request (resolver : Option Resolver) :
      converter.cache.request? resolver (collect forest roots) = none := by
    rw [Cache.request?, missing]
    rfl
  unfold resolveMentions
  split
  · simp only [Cache.fill_of_request?_eq_none (request _), request]
    rfl
  · rfl

theorem exportDocument_again (known : ∀ userId ∈ collect forest roots,
      ((converter.exportDocument forest roots).2.cache.get? userId).isSome) :
    (converter.exportDocument forest roots).2.exportDocument forest roots =
      converter.exportDocument forest roots := by
  have same : (converter.resolveMentions forest roots).resolveMentions forest roots =
      converter.resolveMentions forest roots := resolveMentions_of_known known
  simp only [exportDocument, same]

theorem cache_exportDocument :
    (converter.exportDocument forest roots).2.cache = converter.cache ∨
      ∃ resolver asked users, converter.resolver = some resolver ∧
        converter.lookup? forest roots = some asked ∧
        resolver converter.requests.length asked = .ok users ∧
        (converter.exportDocument forest roots).2.cache = converter.cache.insertAll users := by
  cases request : converter.lookup? forest roots with
  | none =>
      left
      cases expands : converter.options.expandMentions with
      | false => rw [exportDocument_of_not_expand expands]
      | true =>
          rw [lookup?, if_pos expands] at request
          rw [exportDocument, resolveMentions, if_pos expands]
          exact Cache.fill_of_request?_eq_none request
  | some asked =>
      obtain ⟨expands, installed, _, _⟩ := lookup?_eq_some.1 request
      obtain ⟨resolver, isResolver⟩ := Option.isSome_iff_exists.1 installed
      have asks : converter.cache.request? (some (resolver converter.requests.length))
          (collect forest roots) = some asked := by
        rwa [lookup?, if_pos expands, isResolver] at request
      have filled : (converter.exportDocument forest roots).2.cache =
          converter.cache.fill (some (resolver converter.requests.length))
            (collect forest roots) := by
        rw [exportDocument, resolveMentions, if_pos expands, isResolver]
        rfl
      cases answer : resolver converter.requests.length asked with
      | error error => exact Or.inl (filled.trans (Cache.fill_of_error asks answer))
      | ok users =>
          exact Or.inr ⟨resolver, asked, users, isResolver, rfl, answer,
            filled.trans (Cache.fill_of_ok asks answer)⟩

/-! ## Whole sessions -/

/-- How a converter goes on: it keeps its settings and what it knows, and makes requests for users
that were not known in the beginning. -/
structure Continues (before later : Converter) : Prop where
  options : later.options = before.options
  resolver : later.resolver = before.resolver
  cache : before.cache.Keeps later.cache
  requests : ∃ made, later.requests = made ++ before.requests ∧
    ∀ asked ∈ made, ∀ userId ∈ asked, before.cache.get? userId = none

theorem Continues.refl (converter : Converter) : Continues converter converter :=
  ⟨rfl, rfl, Cache.Keeps.refl _, [], rfl, fun _ none => absurd none List.not_mem_nil⟩

theorem Continues.trans {before later last : Converter} (first : Continues before later)
    (second : Continues later last) : Continues before last := by
  obtain ⟨made, requests, unknown⟩ := first.requests
  obtain ⟨more, moreRequests, moreUnknown⟩ := second.requests
  refine ⟨second.options.trans first.options, second.resolver.trans first.resolver,
    first.cache.trans second.cache, more ++ made, ?_, ?_⟩
  · rw [moreRequests, requests, List.append_assoc]
  · intro asked mem userId asks
    rcases List.mem_append.1 mem with mem | mem
    · exact first.cache.get?_eq_none (moreUnknown asked mem userId asks)
    · exact unknown asked mem userId asks

theorem continues_exportDocument :
    Continues converter (converter.exportDocument forest roots).2 := by
  refine ⟨?_, ?_, keeps_exportDocument, _, requests_exportDocument, ?_⟩
  · rw [exportDocument, resolveMentions]
    split <;> rfl
  · rw [exportDocument, resolveMentions]
    split <;> rfl
  · intro asked mem userId asks
    obtain ⟨_, _, _, rfl⟩ := lookup?_eq_some.1 (Option.mem_toList.1 mem)
    exact (Cache.mem_missing.1 asks).2

theorem continues_after (converter : Converter) (step : Step) :
    Continues converter (converter.after step) := by
  cases step with
  | importNodes nodes => exact Continues.refl converter
  | importOctets reader octets => exact Continues.refl converter
  | exportRoots forest roots => exact continues_exportDocument

theorem continues_run (converter : Converter) (steps : List Step) :
    Continues converter (converter.run steps) := by
  induction steps generalizing converter with
  | nil => exact Continues.refl converter
  | cons step steps ih => exact (continues_after converter step).trans (ih _)

end

/-- At any time in a session, an export makes at most one request. It makes one only to show users,
for exactly the mentioned users that are not known, and the answer to it is all that changes what
is known. From then on everyone who is known stays so with the same information and is never asked
for, and an export that leaves nobody unknown can be repeated without a request and with the same
result. -/
theorem session_lookups (start : Converter) (before later : List Step) (forest : Forest)
    (roots : List BlockId) :
    let converter := start.run before
    let exported := converter.exportDocument forest roots
    (∃ made : Option UserSet,
      exported.2.requests = made.toList ++ converter.requests ∧
      (∀ asked, made = some asked →
        converter.options.expandMentions = true ∧ asked ≠ [] ∧ asked.Pairwise (· < ·) ∧
        ∀ userId, userId ∈ asked ↔
          userId ∈ collect forest roots ∧ converter.cache.get? userId = none) ∧
      (made = none →
        converter.options.expandMentions = false ∨ converter.resolver = none ∨
          ∀ userId ∈ collect forest roots, (converter.cache.get? userId).isSome) ∧
      (exported.2.cache = converter.cache ∨
        ∃ resolver asked users, converter.resolver = some resolver ∧ made = some asked ∧
          resolver converter.requests.length asked = .ok users ∧
          exported.2.cache = converter.cache.insertAll users)) ∧
    (converter.options.expandMentions = false → exported.2 = converter) ∧
    (∀ nodes, converter.after (.importNodes nodes) = converter) ∧
    (∀ reader octets, converter.after (.importOctets reader octets) = converter) ∧
    ((∀ userId ∈ collect forest roots, (exported.2.cache.get? userId).isSome) →
      exported.2.exportDocument forest roots = exported) ∧
    Continues converter (converter.run later) := by
  intro converter exported
  refine ⟨⟨converter.lookup? forest roots, requests_exportDocument, ?_,
    known_of_lookup?_eq_none, cache_exportDocument⟩, exportDocument_of_not_expand,
    fun _ => rfl, fun _ _ => rfl, exportDocument_again, continues_run converter later⟩
  intro asked made
  obtain ⟨expands, _, nonempty, rfl⟩ := lookup?_eq_some.1 made
  exact ⟨expands, nonempty, pairwise_missing converter.cache, fun userId => Cache.mem_missing⟩

theorem session_lookups_after_failure :
    let forest : Forest := ⟨[⟨"a", .text .paragraph (some ⟨[.mentionUser "u2",
      .mentionUser "u1", .mentionUser "u2"], {}⟩), []⟩]⟩
    let resolver : Nat → Resolver := fun call _ =>
      if call = 0 then .error ⟨"offline"⟩
      else if call = 1 then .ok [("u1", ⟨"Ann", none⟩), ("u9", ⟨"Eve", none⟩)]
      else .ok [("u1", ⟨"Bob", none⟩), ("u2", ⟨"Bob", none⟩)]
    let start : Converter := { options := { expandMentions := true }, resolver := some resolver }
    let converter := start.run [.exportRoots forest ["a"], .importNodes [],
      .exportRoots forest ["a"]]
    let exported := converter.exportDocument forest ["a"]
    exported.2.requests = [["u2"], ["u1", "u2"], ["u1", "u2"]] ∧
      exported.2.cache.get? "u1" = some ⟨"Ann", none⟩ ∧
      exported.2.exportDocument forest ["a"] = exported := by
  intro forest resolver start converter exported
  have lookups := session_lookups start [.exportRoots forest ["a"], .importNodes [],
    .exportRoots forest ["a"]] [] forest ["a"]
  obtain ⟨_, _, _, _, again, _⟩ := lookups
  exact ⟨by decide +kernel, by decide +kernel, again (by decide +kernel)⟩

end Blockmark.Converter
