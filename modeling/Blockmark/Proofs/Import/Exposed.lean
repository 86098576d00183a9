import Mathlib.Algebra.Ring.Nat
import Mathlib.Algebra.BigOperators.Ring.List
import Blockmark.Proofs.Forest.Entries
import Blockmark.Proofs.Import.Built

/-!
# Drafts that are shown as a whole

The exporter does not follow every list of children: a heading or an equation has none to be
shown, and a table shows its complete rows only. No syntax tree is imported as blocks of which a
part would be passed over in this way; only the text under an image is not shown as a block, but
as alternative text.

Main statement: `exposed_drafts`.
-/

namespace Blockmark.Import

open Markdown Render

/-- All of a draft is shown where it is met, but for the texts under images. -/
inductive Exposed : Spot → Draft → Prop
  | leaf {numbering : Numbering} {kind : Kind} {raw : Option RawTable} :
      Exposed .sibling (.mk numbering kind raw [])
  | image {numbering : Numbering} {image : Option Image} {raw : Option RawTable}
      {texts : List Draft} (leaves : ∀ text ∈ texts, ∃ kind, text = .leaf kind) :
      Exposed .sibling (.mk numbering (.image image) raw texts)
  | container {numbering : Numbering} {kind : Kind} {raw : Option RawTable}
      {children : List Draft} (way : descent kind = .children)
      (below : ∀ child ∈ children, Exposed .sibling child) :
      Exposed .sibling (.mk numbering kind raw children)
  | cell {numbering : Numbering} {raw : Option RawTable} {children : List Draft}
      (inhabited : children ≠ []) (below : ∀ child ∈ children, Exposed .sibling child) :
      Exposed .cell (.mk numbering (.bare .tableCell) raw children)
  | table {numbering : Numbering} {property : TableProperty} {raw : Option RawTable}
      {cells : List Draft} (columns : property.columnSize ≠ 0)
      (rows : property.columnSize ∣ cells.length) (below : ∀ cell ∈ cells, Exposed .cell cell) :
      Exposed .sibling (.mk numbering (.table (some property)) raw cells)

/-! ## Tables -/

theorem length_rowDrafts (alignments : List (Option Align)) (cells : List CellContent) :
    (rowDrafts alignments cells).length = cells.length := by
  induction cells generalizing alignments with
  | nil => cases alignments <;> rfl
  | cons cell cells ih => cases alignments <;> simp [rowDrafts, ih]

theorem exposed_rowDrafts (alignments : List (Option Align)) (cells : List CellContent) :
    ∀ draft ∈ rowDrafts alignments cells, Exposed .cell draft := by
  have cell (align : Option Align) (content : CellContent) :
      Exposed .cell (cellDraft align content) := by
    refine .cell (List.cons_ne_nil _ _) fun child mem => ?_
    obtain rfl := List.mem_singleton.1 mem
    exact .leaf
  induction cells generalizing alignments with
  | nil => cases alignments <;> simp [rowDrafts]
  | cons content cells ih =>
      cases alignments with
      | nil => exact List.forall_mem_cons.2 ⟨cell none content, ih []⟩
      | cons align alignments => exact List.forall_mem_cons.2 ⟨cell align content, ih alignments⟩

theorem exposed_tableDraft (alignments : List (Option Align)) {columns : Nat}
    (some : columns ≠ 0) {grid : List (List CellContent)}
    (full : ∀ row ∈ grid, row.length = columns) :
    Exposed .sibling (tableDraft alignments columns grid) := by
  refine .table some ?_ ?_
  · rw [List.length_flatMap]
    refine List.dvd_sum fun length mem => ?_
    obtain ⟨row, inGrid, rfl⟩ := List.mem_map.1 mem
    rw [length_rowDrafts, full row inGrid]
  · intro cell mem
    obtain ⟨row, -, mem⟩ := List.mem_flatMap.1 mem
    exact exposed_rowDrafts alignments row cell mem

/-! ## Everything that is built -/

theorem Built.exposed {options : ConvertOptions} {draft : Draft} (built : Built options draft) :
    Exposed .sibling draft := by
  induction built with
  | leaf => exact .leaf
  | image leaves =>
      refine .image fun text mem => ?_
      obtain ⟨role, body, rfl⟩ := leaves text mem
      exact ⟨_, rfl⟩
  | container way _ below => exact .container way below
  | table some full =>
      refine exposed_tableDraft _ some fun row mem => ?_
      obtain ⟨cells, inside, rfl⟩ := List.mem_map.1 mem
      rw [List.length_map, full cells inside]

theorem exposed_drafts (options : ConvertOptions) (nodes : List Node) :
    ∀ draft ∈ drafts options nodes, Exposed .sibling draft :=
  fun draft mem => (built_drafts options nodes draft mem).exposed

end Blockmark.Import
