import Blockmark.Import.Document
import Blockmark.Proofs.Import.Placement

/-!
# Imported forests are well formed

Whatever a syntax tree looks like, the blocks it is imported as are trees over the roots, numbered
without a gap, and no chain from a root on down has more than 102 blocks: the depth limit, and a
cell with its text below a table at the last depth.

Main statement: `document_wellFormed`.
-/

namespace Blockmark.Import

open Markdown

abbrev placement (options : ConvertOptions) (nodes : List Node) : Placement :=
  placeAll 0 (drafts options nodes)

variable (options : ConvertOptions) (nodes : List Node)

theorem numbered_placement : (placement options nodes).Numbered 0 :=
  numbered_placeAll 0 _

theorem nodup_ids_placement : ((placement options nodes).blocks.map (·.id)).Nodup :=
  (numbered_placement options nodes).ids_perm.nodup_iff.2 (nodup_idsBehind ..)

theorem blocks_document :
    (document options nodes).forest.blocks = (placement options nodes).blocks :=
  Forest.blocks_ofList (nodup_ids_placement options nodes)

theorem ids_document :
    (document options nodes).forest.ids = (placement options nodes).blocks.map (·.id) := by
  rw [Forest.ids, blocks_document]

theorem listed_document :
    ((document options nodes).forest.listed (document options nodes).roots).Perm
      (document options nodes).forest.ids := by
  rw [Forest.listed, blocks_document, ids_document]
  exact (numbered_placement options nodes).listed_perm

theorem nodup_listed_document :
    ((document options nodes).forest.listed (document options nodes).roots).Nodup :=
  (listed_document options nodes).nodup_iff.2 (Forest.nodup_ids_ofList _)

theorem wellFormed_document :
    (document options nodes).forest.WellFormed (document options nodes).roots := by
  have nodup : (document options nodes).forest.ids.Nodup := Forest.nodup_ids_ofList _
  have first : Forest.ChildrenFirst (document options nodes).forest.blocks := by
    rw [blocks_document]
    exact (numbered_placement options nodes).childrenFirst
  refine ⟨nodup, ?_, ?_, first, Forest.acyclic_of_childrenFirst nodup first⟩
  · intro id mem
    exact Forest.contains_iff.2 ((listed_document options nodes).mem_iff.1 mem)
  · intro block mem
    rw [(listed_document options nodes).count_eq]
    exact List.count_eq_one_of_mem nodup (List.mem_map_of_mem mem)

theorem ids_perm_document :
    (document options nodes).forest.ids.Perm
      ((List.range (document options nodes).forest.size).map fun i => blockId (i + 1)) := by
  have numbers : idsBehind 0 (document options nodes).forest.size =
      (List.range (document options nodes).forest.size).map fun i => blockId (i + 1) := by
    rw [idsBehind, List.range'_eq_map_range, List.map_map]
    exact List.map_congr_left fun i _ =>
      congrArg blockId (by simp only [Nat.zero_add, Nat.add_comm])
  rw [← numbers, ids_document, Forest.size, blocks_document]
  exact (numbered_placement options nodes).ids_perm

theorem fresh_of_split {before after : List Block} {block : Block}
    (split : (placement options nodes).blocks = before ++ block :: after) :
    (Forest.ofList before).contains block.id = false := by
  have nodup := nodup_ids_placement options nodes
  rw [split, List.map_append, List.map_cons] at nodup
  rw [← Bool.not_eq_true, Forest.contains_iff, Forest.ids,
    Forest.blocks_ofList (List.nodup_append.1 nodup).1]
  exact fun there => (List.nodup_append.1 nodup).2.2 _ there _ List.mem_cons_self rfl

theorem foundIn_document : (placement options nodes).FoundIn (document options nodes).forest := by
  intro block mem
  rw [← blocks_document] at mem
  exact Forest.get?_eq_some (wellFormed_document options nodes).nodup_ids mem

theorem within_document {root : BlockId} (mem : root ∈ (document options nodes).roots) :
    (document options nodes).forest.Within 102 root := by
  have low := heightOfAll_le (low_drafts options nodes)
  exact (within_placeAll 0 _ (foundIn_document options nodes) root mem).mono low

/-- The forest of a document consists of trees over its roots. Its ids are numbered without a gap,
no block is added under an id that is taken, and no chain from a root on has more than 102
blocks. -/
theorem document_wellFormed :
    (document options nodes).forest.WellFormed (document options nodes).roots ∧
    (document options nodes).forest.ids.Perm
      ((List.range (document options nodes).forest.size).map fun i => blockId (i + 1)) ∧
    (∀ before block after, (placement options nodes).blocks = before ++ block :: after →
      (Forest.ofList before).contains block.id = false) ∧
    (∀ path : List BlockId, path.IsChain (document options nodes).forest.Lists →
      (∀ top ∈ path.head?, top ∈ (document options nodes).roots) → path.length ≤ 102) := by
  refine ⟨wellFormed_document options nodes, ids_perm_document options nodes, ?_, ?_⟩
  · exact fun before block after split => fresh_of_split options nodes split
  · intro path chain rooted
    cases path with
    | nil => exact Nat.zero_le _
    | cons top path =>
        exact Forest.length_le_of_within (within_document options nodes (rooted top rfl)) chain

end Blockmark.Import
