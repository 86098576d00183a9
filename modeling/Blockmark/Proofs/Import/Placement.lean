import Mathlib.Data.List.Nodup
import Mathlib.Data.List.Perm.Basic
import Blockmark.Proofs.Forest.Hierarchy
import Blockmark.Proofs.Import.Height

/-!
# Numbering drafts

What numbering does to drafts, said once as an invariant of the placement: the ids are the numbers
of an interval in some order, every id is handed up or listed as a child exactly once, and
children stand before their parents. The ids on top are the ones handed up and not yet listed.

Main statements: `numbered_placeAll` and `within_placeAll`.
-/

namespace Blockmark.Import

theorem blockId_injective : Function.Injective blockId := by
  intro m n eq
  have digits : toString m = toString n := by simpa [blockId] using eq
  rw [Nat.toString_eq_ofList_toDigits, Nat.toString_eq_ofList_toDigits, String.ofList_inj] at digits
  rw [← Nat.ofDigitChars_ten_toDigits (n := m), digits, Nat.ofDigitChars_ten_toDigits]

def idsBehind (last count : Nat) : List BlockId :=
  (List.range' (last + 1) count).map blockId

theorem nodup_idsBehind (last count : Nat) : (idsBehind last count).Nodup :=
  (List.nodup_range' 1).map blockId_injective

theorem idsBehind_append (last count more : Nat) :
    idsBehind last count ++ idsBehind (last + count) more = idsBehind last (count + more) := by
  rw [idsBehind, idsBehind, idsBehind, ← List.map_append, Nat.add_right_comm,
    List.range'_append_1]

theorem idsBehind_one (last : Nat) : idsBehind last 1 = [blockId (last + 1)] := rfl

structure Placement.Numbered (placement : Placement) (last : Nat) : Prop where
  last_eq : placement.last = last + placement.blocks.length
  ids_perm : (placement.blocks.map (·.id)).Perm (idsBehind last placement.blocks.length)
  listed_perm : (placement.ids ++ placement.blocks.flatMap (·.children)).Perm
    (placement.blocks.map (·.id))
  childrenFirst : Forest.ChildrenFirst placement.blocks

def Placement.parent (placement : Placement) (id : BlockId) (kind : Kind) : Block :=
  { id, kind, children := placement.ids }

namespace Placement.Numbered

variable {placement rest : Placement} {last : Nat}

theorem mem_of_mem_ids (numbered : placement.Numbered last) {id : BlockId}
    (mem : id ∈ placement.ids) : id ∈ placement.blocks.map (·.id) :=
  numbered.listed_perm.mem_iff.1 (List.mem_append_left _ mem)

theorem nil (last : Nat) : Placement.Numbered ⟨[], [], last⟩ last :=
  ⟨rfl, .nil, .nil, Forest.childrenFirst_nil⟩

theorem append (first : placement.Numbered last) (second : rest.Numbered placement.last) :
    Placement.Numbered ⟨placement.ids ++ rest.ids, placement.blocks ++ rest.blocks, rest.last⟩
      last := by
  constructor
  · rw [second.last_eq, first.last_eq, List.length_append, Nat.add_assoc]
  · rw [List.map_append, List.length_append, ← idsBehind_append, ← first.last_eq]
    exact first.ids_perm.append second.ids_perm
  · rw [List.map_append, List.flatMap_append]
    refine List.Perm.trans ?_ (first.listed_perm.append second.listed_perm)
    simp only [List.append_assoc]
    refine List.Perm.append_left _ ?_
    simp only [← List.append_assoc]
    exact List.Perm.append_right _ List.perm_append_comm
  · exact first.childrenFirst.append second.childrenFirst

theorem listed_concat (inner : placement.Numbered last) (id : BlockId) (kind : Kind) :
    ([id] ++ (placement.blocks ++ [placement.parent id kind]).flatMap (·.children)).Perm
      ((placement.blocks ++ [placement.parent id kind]).map (·.id)) := by
  simp only [Placement.parent, List.flatMap_append, List.map_append, List.flatMap_cons,
    List.flatMap_nil, List.append_nil, List.map_cons, List.map_nil]
  refine List.perm_append_comm.trans (List.Perm.append_right _ ?_)
  exact List.perm_append_comm.trans inner.listed_perm

theorem before (inner : placement.Numbered (last + 1)) (kind : Kind) :
    Placement.Numbered
      ⟨[blockId (last + 1)], placement.blocks ++ [placement.parent (blockId (last + 1)) kind],
        placement.last⟩ last := by
  constructor
  · rw [inner.last_eq, List.length_append, List.length_singleton]
    omega
  · rw [List.map_append, List.length_append, List.length_singleton,
      Nat.add_comm placement.blocks.length 1, ← idsBehind_append last 1, idsBehind_one]
    exact List.perm_append_comm.trans (inner.ids_perm.append_left _)
  · exact inner.listed_concat _ kind
  · exact inner.childrenFirst.concat fun child mem => inner.mem_of_mem_ids mem

theorem after (inner : placement.Numbered last) (kind : Kind) :
    Placement.Numbered
      ⟨[blockId (placement.last + 1)],
        placement.blocks ++ [placement.parent (blockId (placement.last + 1)) kind],
        placement.last + 1⟩ last := by
  constructor
  · rw [inner.last_eq, List.length_append, List.length_singleton, Nat.add_assoc]
  · rw [List.map_append, List.length_append, List.length_singleton, ← idsBehind_append,
      idsBehind_one, ← inner.last_eq]
    exact inner.ids_perm.append_right _
  · exact inner.listed_concat _ kind
  · exact inner.childrenFirst.concat fun child mem => inner.mem_of_mem_ids mem

end Placement.Numbered

mutual

theorem numbered_place (last : Nat) (draft : Draft) : (place last draft).Numbered last := by
  obtain ⟨numbering, kind, table, children⟩ := draft
  cases numbering with
  | beforeChildren => exact (numbered_placeAll (last + 1) children).before _
  | afterChildren => exact (numbered_placeAll last children).after _

theorem numbered_placeAll (last : Nat) (drafts : List Draft) :
    (placeAll last drafts).Numbered last := by
  cases drafts with
  | nil => exact .nil last
  | cons draft drafts =>
      exact (numbered_place last draft).append (numbered_placeAll _ drafts)

end

/-! ## Heights -/

def Placement.FoundIn (placement : Placement) (forest : Forest) : Prop :=
  ∀ block ∈ placement.blocks, forest.get? block.id = some block

theorem place_eq (last : Nat) (numbering : Numbering) (kind : Kind) (raw : Option RawTable)
    (children : List Draft) :
    ∃ between number, (place last (.mk numbering kind raw children)).ids = [blockId number] ∧
      (place last (.mk numbering kind raw children)).blocks =
        (placeAll between children).blocks ++
          [⟨blockId number, withCells (placeAll between children).ids kind,
            (placeAll between children).ids⟩] := by
  cases numbering with
  | beforeChildren => exact ⟨last + 1, _, rfl, rfl⟩
  | afterChildren => exact ⟨last, _, rfl, rfl⟩

mutual

theorem within_place {forest : Forest} (last : Nat) (draft : Draft)
    (found : (place last draft).FoundIn forest) :
    ∀ id ∈ (place last draft).ids, forest.Within draft.height id := by
  obtain ⟨numbering, kind, table, children⟩ := draft
  obtain ⟨between, number, ids, blocks⟩ := place_eq last numbering kind table children
  rw [Placement.FoundIn, blocks] at found
  have inner := within_placeAll between children fun block mem =>
    found block (List.mem_append_left _ mem)
  have top := found _ (List.mem_append_right _ (List.mem_singleton.2 rfl))
  intro id mem
  obtain rfl := List.mem_singleton.1 (ids ▸ mem)
  exact .block top inner

theorem within_placeAll {forest : Forest} (last : Nat) (drafts : List Draft)
    (found : (placeAll last drafts).FoundIn forest) :
    ∀ id ∈ (placeAll last drafts).ids, forest.Within (Draft.heightOfAll drafts) id := by
  cases drafts with
  | nil => exact fun id mem => absurd mem List.not_mem_nil
  | cons draft drafts =>
      have first := within_place last draft fun block mem =>
        found block (List.mem_append_left _ mem)
      have rest := within_placeAll (place last draft).last drafts fun block mem =>
        found block (List.mem_append_right _ mem)
      intro id mem
      rw [Draft.heightOfAll]
      rcases List.mem_append.1 mem with mem | mem
      · exact (first id mem).mono (Nat.le_max_left ..)
      · exact (rest id mem).mono (Nat.le_max_right ..)

end

end Blockmark.Import
