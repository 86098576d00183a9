import Blockmark.Mention.Collect
import Blockmark.Proofs.Forest.Insertion

/-!
# The walk that collects mentions

The blocks that are looked at for mentions, each with the number of levels that were left below it
at that time. A block with levels left has everything that it leads to looked at as well, by the
end of the walk if not at once; a block on the last level may be the end of its branch for good,
since nothing is looked at twice.

Main statements: `mem_collect`, `lookedAt_of_root` and `lookedAt_below`.
-/

namespace Blockmark.Mention

/-- The blocks looked at, newest first, with the levels left below them. -/
abbrev Looks := List (Block × Nat)

namespace Looks

def ids (looks : Looks) : List BlockId :=
  looks.map (·.1.id)

def found (looks : Looks) : Found where
  seen := looks.ids
  users := looks.flatMap fun look => mentionedBy look.1.kind

end Looks

def look (forest : Forest) (levels : Nat) (looks : Looks) (id : BlockId) : Looks :=
  match levels with
  | 0 => looks
  | levels + 1 =>
    match forest.get? id with
    | none => looks
    | some block =>
      if block.id ∈ looks.ids then looks
      else (below block).foldl (look forest levels) ((block, levels) :: looks)

def looks (forest : Forest) (roots : List BlockId) : Looks :=
  roots.foldl (look forest maxDepth) []

def LookedAt (forest : Forest) (roots : List BlockId) (block : Block) : Prop :=
  ∃ levels, (block, levels) ∈ looks forest roots

section

variable {forest : Forest} {levels : Nat} {looks : Looks} {id : BlockId} {block : Block}

theorem look_missing (missing : forest.get? id = none) :
    look forest (levels + 1) looks id = looks := by
  rw [look, missing]

theorem look_seen (found : forest.get? id = some block) (seen : block.id ∈ looks.ids) :
    look forest (levels + 1) looks id = looks := by
  rw [look, found]
  exact if_pos seen

theorem look_fresh (found : forest.get? id = some block) (fresh : block.id ∉ looks.ids) :
    look forest (levels + 1) looks id =
      (below block).foldl (look forest levels) ((block, levels) :: looks) := by
  rw [look, found]
  exact if_neg fresh

end

theorem visit_found (forest : Forest) (levels : Nat) (looks : Looks) (id : BlockId) :
    visit forest levels looks.found id = (look forest levels looks id).found := by
  induction levels generalizing looks id with
  | zero => rfl
  | succ levels ih =>
      rw [visit]
      cases found : forest.get? id with
      | none => rw [look_missing found]
      | some block =>
          by_cases seen : block.id ∈ looks.ids
          · rw [look_seen found seen]
            exact if_pos seen
          · rw [look_fresh found seen]
            refine (if_neg seen).trans ?_
            change (below block).foldl (visit forest levels)
              (Looks.found ((block, levels) :: looks)) = _
            exact List.foldl_hom Looks.found ih

theorem mem_collect {forest : Forest} {roots : List BlockId} {userId : String} :
    userId ∈ collect forest roots ↔
      ∃ block, LookedAt forest roots block ∧ userId ∈ mentionedBy block.kind := by
  have walk : roots.foldl (visit forest maxDepth) (Looks.found []) = (looks forest roots).found :=
    List.foldl_hom Looks.found (visit_found forest maxDepth)
  rw [collect, UserSet.mem_ofList]
  change userId ∈ (roots.foldl (visit forest maxDepth) (Looks.found [])).users ↔ _
  rw [walk]
  simp [Looks.found, LookedAt]

section

variable {forest : Forest}

/-! ## What a walk keeps -/

theorem suffix_foldl_look {levels : Nat}
    (step : ∀ looks id, looks <:+ look forest levels looks id) (ids : List BlockId)
    (looks : Looks) : looks <:+ ids.foldl (look forest levels) looks := by
  induction ids generalizing looks with
  | nil => exact List.suffix_rfl
  | cons id ids ih => exact (step looks id).trans (ih _)

theorem suffix_look (levels : Nat) (looks : Looks) (id : BlockId) :
    looks <:+ look forest levels looks id := by
  induction levels generalizing looks id with
  | zero => exact List.suffix_rfl
  | succ levels ih =>
      cases found : forest.get? id with
      | none => simp only [look_missing found, List.suffix_rfl]
      | some block =>
          by_cases seen : block.id ∈ looks.ids
          · simp only [look_seen found seen, List.suffix_rfl]
          · rw [look_fresh found seen]
            exact (List.suffix_cons _ _).trans (suffix_foldl_look ih _ _)

theorem ids_mono {looks more : Looks} (suffix : looks <:+ more) {id : BlockId}
    (mem : id ∈ looks.ids) : id ∈ more.ids :=
  (suffix.map _).subset mem

def Genuine (forest : Forest) (looks : Looks) : Prop :=
  ∀ entry ∈ looks, forest.get? entry.1.id = some entry.1

theorem genuine_foldl_look {levels : Nat}
    (step : ∀ looks id, Genuine forest looks → Genuine forest (look forest levels looks id))
    (ids : List BlockId) {looks : Looks} (genuine : Genuine forest looks) :
    Genuine forest (ids.foldl (look forest levels) looks) := by
  induction ids generalizing looks with
  | nil => exact genuine
  | cons id ids ih => exact ih (step looks id genuine)

theorem genuine_look (levels : Nat) (looks : Looks) (id : BlockId)
    (genuine : Genuine forest looks) : Genuine forest (look forest levels looks id) := by
  induction levels generalizing looks id with
  | zero => exact genuine
  | succ levels ih =>
      cases found : forest.get? id with
      | none => rwa [look_missing found]
      | some block =>
          by_cases seen : block.id ∈ looks.ids
          · rwa [look_seen found seen]
          · rw [look_fresh found seen]
            apply genuine_foldl_look ih
            intro entry mem
            rcases List.mem_cons.1 mem with rfl | mem
            · rwa [Forest.id_of_get? found]
            · exact genuine entry mem

/-! ## What a walk reaches -/

theorem mem_look {levels : Nat} {looks : Looks} {id : BlockId} {block : Block}
    (found : forest.get? id = some block) :
    block.id ∈ (look forest (levels + 1) looks id).ids := by
  by_cases seen : block.id ∈ looks.ids
  · rwa [look_seen found seen]
  · rw [look_fresh found seen]
    exact ids_mono (suffix_foldl_look (suffix_look levels) _ _) List.mem_cons_self

theorem mem_foldl_look {levels : Nat} {ids : List BlockId} {looks : Looks} {id : BlockId}
    {block : Block} (mem : id ∈ ids) (found : forest.get? id = some block) :
    block.id ∈ (ids.foldl (look forest (levels + 1)) looks).ids := by
  induction ids generalizing looks with
  | nil => cases mem
  | cons first ids ih =>
      rcases List.mem_cons.1 mem with rfl | mem
      · rw [List.foldl_cons]
        exact ids_mono (suffix_foldl_look (suffix_look _) _ _) (mem_look found)
      · exact ih mem

/-- Everything that a block leads to is looked at, unless the block stands on the last level. -/
def Finished (forest : Forest) (looks : Looks) (entry : Block × Nat) : Prop :=
  entry.2 ≠ 0 → ∀ id ∈ below entry.1, ∀ block, forest.get? id = some block → block.id ∈ looks.ids

theorem Finished.mono {looks more : Looks} {entry : Block × Nat} (suffix : looks <:+ more)
    (finished : Finished forest looks entry) : Finished forest more entry :=
  fun levels id mem block found => ids_mono suffix (finished levels id mem block found)

theorem entry_foldl_look {levels : Nat} (Good : Looks → Block × Nat → Prop)
    (mono : ∀ {looks more : Looks} {entry : Block × Nat}, looks <:+ more → Good looks entry →
      Good more entry)
    (ids : List BlockId) (looks : Looks)
    (step : ∀ id ∈ ids, ∀ later, looks <:+ later → ∀ entry ∈ look forest levels later id,
      entry ∈ later ∨ Good (look forest levels later id) entry) :
    ∀ entry ∈ ids.foldl (look forest levels) looks,
      entry ∈ looks ∨ Good (ids.foldl (look forest levels) looks) entry := by
  induction ids generalizing looks with
  | nil => exact fun entry mem => Or.inl mem
  | cons id ids ih =>
      have longer : looks <:+ look forest levels looks id := suffix_look levels looks id
      have rest : look forest levels looks id <:+
          ids.foldl (look forest levels) (look forest levels looks id) :=
        suffix_foldl_look (suffix_look levels) ids _
      have behind := ih (look forest levels looks id) fun other mem later suffix =>
        step other (List.mem_cons_of_mem _ mem) later (longer.trans suffix)
      intro entry mem
      rcases behind entry mem with early | good
      · exact (step id List.mem_cons_self looks List.suffix_rfl entry early).imp_right (mono rest)
      · exact Or.inr good

theorem finished_look (levels : Nat) (looks : Looks) (id : BlockId) :
    ∀ entry ∈ look forest levels looks id,
      entry ∈ looks ∨ Finished forest (look forest levels looks id) entry := by
  induction levels generalizing looks id with
  | zero => exact fun entry mem => Or.inl mem
  | succ levels ih =>
      intro entry mem
      cases found : forest.get? id with
      | none =>
          rw [look_missing found] at mem
          exact Or.inl mem
      | some block =>
          by_cases seen : block.id ∈ looks.ids
          · rw [look_seen found seen] at mem
            exact Or.inl mem
          · rw [look_fresh found seen] at mem ⊢
            have walk := entry_foldl_look (Finished forest) Finished.mono (below block)
              ((block, levels) :: looks) fun id _ later _ => ih later id
            rcases walk entry mem with start | finished
            · rcases List.mem_cons.1 start with rfl | before
              · right
                intro left child leads other found
                obtain ⟨levels, rfl⟩ := Nat.exists_eq_succ_of_ne_zero left
                exact mem_foldl_look leads found
              · exact Or.inl before
            · exact Or.inr finished

/-! ## The whole walk -/

variable {roots : List BlockId}

theorem genuine_looks : Genuine forest (looks forest roots) :=
  genuine_foldl_look (genuine_look maxDepth) roots fun _ none => absurd none List.not_mem_nil

theorem lookedAt_of_mem {block : Block} {id : BlockId} (found : forest.get? id = some block)
    (mem : block.id ∈ (looks forest roots).ids) : LookedAt forest roots block := by
  obtain ⟨entry, entered, same⟩ := List.mem_map.1 mem
  have eq : entry.1 = block := by
    have stored := genuine_looks entry entered
    rw [same, Forest.id_of_get? found, found] at stored
    exact (Option.some.inj stored).symm
  exact ⟨entry.2, eq ▸ entered⟩

theorem lookedAt_of_root {id : BlockId} {block : Block} (mem : id ∈ roots)
    (found : forest.get? id = some block) : LookedAt forest roots block :=
  lookedAt_of_mem found (mem_foldl_look mem found)

theorem lookedAt_below {block next : Block} {levels : Nat} {id : BlockId}
    (entered : (block, levels) ∈ looks forest roots) (left : levels ≠ 0) (mem : id ∈ below block)
    (found : forest.get? id = some next) : LookedAt forest roots next := by
  have walk := entry_foldl_look (Finished forest) Finished.mono roots [] fun id _ later _ =>
    finished_look maxDepth later id
  rcases walk _ entered with none | finished
  · cases none
  · exact lookedAt_of_mem found (finished left id mem next found)

end

end Blockmark.Mention
