import Blockmark.Proofs.Import.WellFormed

/-!
# Drafts in a forest

Where a draft stands in a forest: the block under its id has the kind of the draft and lists the
ids of the drafts below, in their order. How drafts are numbered does not matter any more then.

Main statement: `planted_document`.
-/

namespace Blockmark.Import

open Markdown

mutual

/-- A draft stands in a forest under an id. -/
def Planted (forest : Forest) : Draft → BlockId → Prop
  | .mk _ kind _ children, id =>
    id.isEmpty = false ∧
      ∃ ids, forest.get? id = some ⟨id, withCells ids kind, ids⟩ ∧ PlantedAll forest children ids

def PlantedAll (forest : Forest) : List Draft → List BlockId → Prop
  | [], ids => ids = []
  | draft :: drafts, ids =>
    ∃ id more, ids = id :: more ∧ Planted forest draft id ∧ PlantedAll forest drafts more

end

variable {forest : Forest}

theorem isEmpty_blockId (number : Nat) : (blockId number).isEmpty = false := by
  rw [blockId, ← Bool.not_eq_true, String.isEmpty_iff, String.append_eq_empty_iff]
  exact fun empty => absurd empty.1 (by decide)

mutual

theorem planted_place (last : Nat) (draft : Draft) (found : (place last draft).FoundIn forest) :
    ∃ id, (place last draft).ids = [id] ∧ Planted forest draft id := by
  obtain ⟨numbering, kind, table, children⟩ := draft
  obtain ⟨between, number, ids, blocks⟩ := place_eq last numbering kind table children
  rw [Placement.FoundIn, blocks] at found
  have inner := planted_placeAll between children fun block mem =>
    found block (List.mem_append_left _ mem)
  have top := found _ (List.mem_append_right _ (List.mem_singleton.2 rfl))
  exact ⟨_, ids, isEmpty_blockId number, _, top, inner⟩

theorem planted_placeAll (last : Nat) (drafts : List Draft)
    (found : (placeAll last drafts).FoundIn forest) :
    PlantedAll forest drafts (placeAll last drafts).ids := by
  cases drafts with
  | nil => rfl
  | cons draft drafts =>
      obtain ⟨id, ids, first⟩ := planted_place last draft fun block mem =>
        found block (List.mem_append_left _ mem)
      have rest := planted_placeAll (place last draft).last drafts fun block mem =>
        found block (List.mem_append_right _ mem)
      exact ⟨id, _, congrArg (· ++ _) ids, first, rest⟩

end

theorem planted_document (options : ConvertOptions) (nodes : List Node) :
    PlantedAll (document options nodes).forest (drafts options nodes)
      (document options nodes).roots :=
  planted_placeAll 0 _ (foundIn_document options nodes)

theorem mem_ids_of_planted {drafts : List Draft} {ids : List BlockId}
    (planted : PlantedAll forest drafts ids) {id : BlockId} (mem : id ∈ ids) :
    ∃ draft ∈ drafts, Planted forest draft id := by
  induction drafts generalizing ids with
  | nil =>
      obtain rfl : ids = [] := planted
      cases mem
  | cons draft drafts ih =>
      obtain ⟨first, more, rfl, top, rest⟩ := planted
      rcases List.mem_cons.1 mem with rfl | mem
      · exact ⟨draft, List.mem_cons_self, top⟩
      · obtain ⟨other, inside, there⟩ := ih rest mem
        exact ⟨other, List.mem_cons_of_mem _ inside, there⟩

theorem Planted.contains {draft : Draft} {id : BlockId} (planted : Planted forest draft id) :
    forest.contains id = true := by
  obtain ⟨numbering, kind, table, children⟩ := draft
  obtain ⟨-, ids, found, -⟩ := planted
  simp [Forest.contains, found]

end Blockmark.Import
