import Mathlib.Data.List.Basic
import Blockmark.Import.Table
import Blockmark.Proofs.Table.Segments

/-!
# Grids of an imported table

The rows of a table in the syntax tree as grids of cells, each cell with its inline nodes: the first
row that is marked as header on top of every grid, all other rows below it in their order, and
every row as wide as the widest.

Main statements: `importTable_eq` and `max?_columns`.
-/

namespace Blockmark.Import

open Markdown

def isRow (node : Node) : Bool :=
  match node.kind with
  | .tableRow _ => true
  | _ => false

def isHeaderRow (node : Node) : Bool :=
  node.kind = .tableRow true

def rowCells (row : Node) : List (List Node) :=
  row.children.map Node.children

def headerCells (rows : List Node) : List (List Node) :=
  ((rows.find? isHeaderRow).map rowCells).getD []

def bodyRows (rows : List Node) : List Node :=
  (rows.filter isRow).eraseP isHeaderRow

def contentOf (options : ConvertOptions) (nodes : List Node) : CellContent :=
  { elements := Inline.compose options nodes, raw := Inline.plainText nodes }

def columnCount (rows : List Node) : Nat :=
  max (headerCells rows).length (((bodyRows rows).map (·.children.length)).foldl max 0)

/-- The grids of a table. Each one has the header on top. -/
def tableGrids (rows : List Node) : List (List (List (List Node))) :=
  (Table.paginate [] (columnCount rows) Table.rowLimit ((bodyRows rows).map rowCells)).map
    (Table.normalizeRow [] (columnCount rows) (headerCells rows) :: ·)

section

variable (options : ConvertOptions)

theorem contentOf_nil : contentOf options [] = {} := by
  rw [contentOf, Inline.compose, Inline.pushNodes, Inline.walkSiblings]
  rfl

theorem cellContents_eq (row : Node) :
    cellContents options row = (rowCells row).map (contentOf options) := by
  rw [cellContents, rowCells, List.map_map]
  rfl

theorem isRow_of_isHeaderRow {node : Node} (isHeader : isHeaderRow node = true) :
    isRow node = true := by
  have kind : node.kind = .tableRow true := of_decide_eq_true isHeader
  rw [isRow, kind]

theorem splitHeader_header {node : Node} (isHeader : isHeaderRow node = true) (rows : List Node) :
    splitHeader options none (node :: rows) =
      splitHeader options (some (cellContents options node)) rows := by
  have kind : node.kind = .tableRow true := of_decide_eq_true isHeader
  rw [splitHeader, kind]
  rfl

theorem splitHeader_row {header : Option (List CellContent)} {node : Node}
    (row : isRow node = true) (body : isHeaderRow node = true → header.isSome = true)
    (rows : List Node) :
    splitHeader options header (node :: rows) =
      ((splitHeader options header rows).1,
        cellContents options node :: (splitHeader options header rows).2) := by
  unfold isRow at row
  split at row
  · next flag kind =>
    have below : (flag && header.isNone) = false := by
      cases flag with
      | false => rfl
      | true =>
          have there := body (by rw [isHeaderRow, kind]; rfl)
          rw [Bool.true_and, Option.isNone_eq_false_iff, there]
    rw [splitHeader, kind]
    exact if_neg (by rw [below]; exact Bool.false_ne_true)
  · cases row

theorem splitHeader_other {header : Option (List CellContent)} {node : Node}
    (noRow : ¬ isRow node = true) (rows : List Node) :
    splitHeader options header (node :: rows) = splitHeader options header rows := by
  rw [splitHeader]
  split
  · next flag kind => exact absurd (by rw [isRow, kind]) noRow
  · rfl

theorem splitHeader_some (header : List CellContent) (rows : List Node) :
    splitHeader options (some header) rows =
      (some header, (rows.filter isRow).map (cellContents options)) := by
  induction rows with
  | nil => rfl
  | cons node rows ih =>
      by_cases row : isRow node = true
      · rw [splitHeader_row options row fun _ => rfl, ih, List.filter_cons_of_pos row]
        rfl
      · rw [splitHeader_other options row, ih, List.filter_cons_of_neg row]

theorem splitHeader_none (rows : List Node) :
    splitHeader options none rows =
      ((rows.find? isHeaderRow).map (cellContents options),
        (bodyRows rows).map (cellContents options)) := by
  induction rows with
  | nil => rfl
  | cons node rows ih =>
      by_cases isHeader : isHeaderRow node = true
      · rw [splitHeader_header options isHeader, splitHeader_some, bodyRows,
          List.find?_cons_of_pos isHeader, List.filter_cons_of_pos (isRow_of_isHeaderRow isHeader),
          List.eraseP_cons_of_pos isHeader]
        rfl
      · rw [List.find?_cons_of_neg isHeader]
        by_cases row : isRow node = true
        · rw [splitHeader_row options row fun here => absurd here isHeader, ih, bodyRows, bodyRows,
            List.filter_cons_of_pos row, List.eraseP_cons_of_neg isHeader]
          rfl
        · rw [splitHeader_other options row, ih, bodyRows, bodyRows, List.filter_cons_of_neg row]

theorem widest_eq (rows : List Node) :
    widest (rows.map (cellContents options)) = (rows.map (·.children.length)).foldl max 0 := by
  rw [widest, List.foldl_map, List.foldl_map]
  simp only [cellContents, List.length_map]

theorem importTable_eq (alignments : List (Option Align)) (rows : List Node) :
    importTable options alignments rows =
      if columnCount rows = 0 then []
      else (tableGrids rows).map fun grid =>
        tableDraft alignments (columnCount rows) (grid.map (·.map (contentOf options))) := by
  have header : (((rows.find? isHeaderRow).map (cellContents options)).getD []) =
      (headerCells rows).map (contentOf options) := by
    rw [headerCells]
    cases rows.find? isHeaderRow with
    | none => rfl
    | some row => exact cellContents_eq options row
  have body : (bodyRows rows).map (cellContents options) =
      ((bodyRows rows).map rowCells).map (·.map (contentOf options)) := by
    rw [List.map_map]
    exact List.map_congr_left fun row _ => cellContents_eq options row
  have columns : max ((headerCells rows).map (contentOf options)).length
      (widest ((bodyRows rows).map (cellContents options))) = columnCount rows := by
    rw [List.length_map, widest_eq, columnCount]
  unfold importTable
  simp only [splitHeader_none, header, columns]
  split
  · rfl
  · rw [body, ← contentOf_nil options, Table.paginate_map, tableGrids, List.map_map, List.map_map]
    simp only [Table.normalizeRow_map, Function.comp_def, List.map_cons]

end

/-! ## The shape of the grids -/

section

variable {rows : List Node}

theorem filter_isRow_perm (rows : List Node) :
    (rows.filter isRow).Perm ((rows.find? isHeaderRow).toList ++ bodyRows rows) := by
  induction rows with
  | nil => exact .nil
  | cons node rows ih =>
      by_cases isHeader : isHeaderRow node = true
      · have row := isRow_of_isHeaderRow isHeader
        rw [bodyRows, List.find?_cons_of_pos isHeader, List.filter_cons_of_pos row,
          List.eraseP_cons_of_pos isHeader]
        exact .refl _
      · rw [bodyRows, List.find?_cons_of_neg isHeader]
        by_cases row : isRow node = true
        · rw [List.filter_cons_of_pos row, List.eraseP_cons_of_neg isHeader]
          exact (ih.cons node).trans List.perm_middle.symm
        · rw [List.filter_cons_of_neg row]
          exact ih

theorem columnCount_eq (rows : List Node) :
    columnCount rows = (((rows.find? isHeaderRow).toList ++ bodyRows rows).map
      (·.children.length)).foldl max 0 := by
  rw [columnCount, headerCells]
  cases rows.find? isHeaderRow with
  | none => simp
  | some row =>
      rw [Option.map_some, Option.getD_some, rowCells, List.length_map, Option.toList_some,
        List.singleton_append, List.map_cons, List.foldl_cons, Nat.max_comm 0, List.foldl_assoc]

theorem max?_eq_foldl {numbers others : List Nat} (perm : numbers.Perm others)
    (inhabited : numbers ≠ []) : numbers.max? = some (others.foldl max 0) := by
  cases others with
  | nil => exact absurd perm.eq_nil inhabited
  | cons number more =>
      have greatest : (number :: more).max? = some ((number :: more).foldl max 0) := by
        rw [List.max?_cons', List.foldl_cons, Nat.zero_max]
      rw [List.max?_eq_some_iff] at greatest ⊢
      exact ⟨perm.mem_iff.2 greatest.1, fun other mem => greatest.2 other (perm.mem_iff.1 mem)⟩

theorem max?_columns (inhabited : rows.filter isRow ≠ []) :
    ((rows.filter isRow).map (·.children.length)).max? = some (columnCount rows) := by
  rw [columnCount_eq]
  exact max?_eq_foldl ((filter_isRow_perm rows).map _) (mt List.map_eq_nil_iff.1 inhabited)

theorem length_le_columnCount {row : Node} (mem : row ∈ rows.filter isRow) :
    row.children.length ≤ columnCount rows := by
  have widest := max?_columns (List.ne_nil_of_mem mem)
  exact (List.max?_eq_some_iff.1 widest).2 _ (List.mem_map_of_mem mem)

theorem columnCount_ne_zero (cell : ∃ row ∈ rows, isRow row = true ∧ row.children ≠ []) :
    columnCount rows ≠ 0 := by
  obtain ⟨row, mem, isRow, some⟩ := cell
  have fits := length_le_columnCount (List.mem_filter.2 ⟨mem, isRow⟩)
  have := List.length_pos_iff.2 some
  omega

theorem length_tableGrids (rows : List Node) :
    (tableGrids rows).length = max 1 (((bodyRows rows).length + 8) / 9) := by
  rw [tableGrids, List.length_map, Table.length_paginate (by decide), List.length_map]
  rfl

def padded (columns : Nat) (cells : List (List Node)) : List (List Node) :=
  cells ++ List.replicate (columns - cells.length) []

theorem normalizeRow_eq_padded {columns : Nat} {cells : List (List Node)}
    (fits : cells.length ≤ columns) : Table.normalizeRow [] columns cells = padded columns cells :=
  Table.normalizeRow_of_le [] fits

theorem length_headerCells_le (rows : List Node) :
    (headerCells rows).length ≤ columnCount rows :=
  Nat.le_max_left _ _

theorem header_of_mem_tableGrids {grid : List (List (List Node))} (mem : grid ∈ tableGrids rows) :
    ∃ body, grid = padded (columnCount rows) (headerCells rows) :: body := by
  obtain ⟨body, -, rfl⟩ := List.mem_map.1 mem
  exact ⟨body, by rw [normalizeRow_eq_padded (length_headerCells_le rows)]⟩

theorem length_of_mem_tableGrids {grid : List (List (List Node))} (mem : grid ∈ tableGrids rows) :
    ∀ row ∈ grid, row.length = columnCount rows := by
  obtain ⟨body, inside, rfl⟩ := List.mem_map.1 mem
  refine List.forall_mem_cons.2 ⟨Table.length_normalizeRow _ _ _, fun row isRow => ?_⟩
  exact Table.length_of_mem_paginate inside isRow

theorem length_of_mem_dropLast_tableGrids {grid : List (List (List Node))}
    (mem : grid ∈ (tableGrids rows).dropLast) : grid.tail.length = 9 := by
  rw [tableGrids, ← List.map_dropLast] at mem
  obtain ⟨body, inside, rfl⟩ := List.mem_map.1 mem
  exact Table.length_of_mem_dropLast_paginate (by decide) _ body inside

theorem flatMap_tail_tableGrids (rows : List Node) :
    (tableGrids rows).flatMap List.tail =
      (bodyRows rows).map fun row => padded (columnCount rows) (rowCells row) := by
  have bodies : (tableGrids rows).map List.tail =
      Table.paginate [] (columnCount rows) Table.rowLimit ((bodyRows rows).map rowCells) := by
    rw [tableGrids, List.map_map]
    exact List.map_id _
  rw [List.flatMap_def, bodies, Table.flatten_paginate, List.map_map]
  refine List.map_congr_left fun row mem => ?_
  have isRow : row ∈ rows.filter isRow := List.eraseP_sublist.subset mem
  refine normalizeRow_eq_padded ?_
  rw [rowCells, List.length_map]
  exact length_le_columnCount isRow

theorem mem_padded {columns : Nat} {cells : List (List Node)} {nodes : List Node}
    (mem : nodes ∈ padded columns cells) : nodes ∈ cells ∨ nodes = [] :=
  (List.mem_append.1 mem).imp_right List.eq_of_mem_replicate

theorem mem_headerCells {nodes : List Node} (mem : nodes ∈ headerCells rows) :
    ∃ row ∈ rows.filter isRow, nodes ∈ rowCells row := by
  rw [headerCells] at mem
  cases first : rows.find? isHeaderRow with
  | none => simp [first] at mem
  | some row =>
      rw [first] at mem
      have row_isRow := isRow_of_isHeaderRow (List.find?_some first)
      exact ⟨row, List.mem_filter.2 ⟨List.mem_of_find?_eq_some first, row_isRow⟩, mem⟩

theorem mem_of_mem_tableGrids {grid : List (List (List Node))} (mem : grid ∈ tableGrids rows)
    {cells : List (List Node)} (inGrid : cells ∈ grid) {nodes : List Node}
    (inside : nodes ∈ cells) : (∃ row ∈ rows.filter isRow, nodes ∈ rowCells row) ∨ nodes = [] := by
  obtain ⟨body, rfl⟩ := header_of_mem_tableGrids mem
  rcases List.mem_cons.1 inGrid with rfl | inBody
  · exact (mem_padded inside).imp_left mem_headerCells
  · have bodies : cells ∈ (tableGrids rows).flatMap List.tail :=
      List.mem_flatMap.2 ⟨_, mem, inBody⟩
    rw [flatMap_tail_tableGrids] at bodies
    obtain ⟨row, isBody, rfl⟩ := List.mem_map.1 bodies
    have isRow : row ∈ rows.filter isRow := List.eraseP_sublist.subset isBody
    exact (mem_padded inside).imp_left fun there => ⟨row, isRow, there⟩

/-- Grids that hold the rows of a table, at most nine below the header. -/
structure HoldRows (rows : List Node) (columns : Nat) (grids : List (List (List (List Node)))) :
    Prop where
  widest : ((rows.filter isRow).map (·.children.length)).max? = some columns
  count : grids.length = max 1 (((bodyRows rows).length + 8) / 9)
  header : ∀ grid ∈ grids, ∃ body, grid = padded columns (headerCells rows) :: body
  filled : ∀ grid ∈ grids.dropLast, grid.tail.length = 9
  bodies : grids.flatMap List.tail = (bodyRows rows).map fun row => padded columns (rowCells row)

theorem holdRows_tableGrids (inhabited : rows.filter isRow ≠ []) :
    HoldRows rows (columnCount rows) (tableGrids rows) where
  widest := max?_columns inhabited
  count := length_tableGrids rows
  header _ := header_of_mem_tableGrids
  filled _ := length_of_mem_dropLast_tableGrids
  bodies := flatMap_tail_tableGrids rows

end

end Blockmark.Import
