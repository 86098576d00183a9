import Blockmark.Proofs.Table.Segments

/-!
# Rows cut apart and put together

Cutting rows into segments and reading cells as rows undo each other. Segments one behind the other
are the rows, each brought to the width of the table. The rows of a table one behind the other are
its cells up to the last complete row, and rows of one width are found again in their cells.

Main statements: `rows_flatten`, `rows_of_flatten`, and `segments_and_rows`.
-/

namespace Blockmark.Table

variable {α : Type}

theorem chunks_max (size : Nat) (items : List α) :
    chunks (max 1 size) items = chunks size items := by
  have size_eq : max 1 size - 1 = size - 1 := by omega
  fun_induction chunks size items with
  | case1 => rw [chunks]
  | case2 item rest ih => rw [chunks, size_eq, ih]

theorem paginate_max (blank : α) (columns limit : Nat) (rows : List (List α)) :
    paginate blank columns (max 1 limit) rows = paginate blank columns limit rows := by
  rw [paginate, chunks_max, paginate]

theorem normalizeRow_eq (blank : α) (columns : Nat) (row : List α) :
    normalizeRow blank columns row = (List.range columns).map (row.getD · blank) := by
  refine List.ext_getElem (by simp [length_normalizeRow]) fun i inside _ => ?_
  rw [length_normalizeRow] at inside
  by_cases own : i < row.length
  · have kept : i < min columns row.length := by omega
    simp [normalizeRow, own, kept]
  · have blanks : ¬ i < min columns row.length := by omega
    simp [normalizeRow, List.getElem_append, own, blanks]

end Blockmark.Table

namespace Blockmark.TableProperty

theorem getD_cell? (id : BlockId) : (cell? id).getD "" = id := by
  unfold cell?
  split
  · next empty => exact (String.isEmpty_iff.1 empty).symm
  · rfl

theorem cell?_of_ne_empty {id : BlockId} (filled : id ≠ "") : cell? id = some id :=
  if_neg (mt String.isEmpty_iff.1 filled)

theorem rows_flatten (property : TableProperty) :
    property.rows.flatten.map (·.getD "") =
      property.cells.take
        (property.columnSize * (property.cells.length / property.columnSize)) := by
  unfold rows
  split
  · next none => rw [none, Nat.zero_mul]; rfl
  · next some =>
      rw [← List.map_flatten, List.map_map, Table.flatten_full_chunks some]
      exact (List.map_congr_left fun id _ => getD_cell? id).trans (List.map_id _)

theorem rows_of_flatten {property : TableProperty} (some : property.columnSize ≠ 0)
    {rows : List (List BlockId)} (full : ∀ row ∈ rows, row.length = property.columnSize)
    (filled : ∀ row ∈ rows, ∀ id ∈ row, id ≠ "") :
    { property with cells := rows.flatten }.rows = rows.map (·.map Option.some) := by
  have complete : rows.filter (·.length = property.columnSize) = rows :=
    List.filter_eq_self.2 fun row mem => decide_eq_true (full row mem)
  rw [TableProperty.rows, if_neg some]
  simp only [Table.chunks_flatten some full, complete]
  refine List.map_congr_left fun row mem => List.map_congr_left fun id inside => ?_
  exact cell?_of_ne_empty (filled row mem id inside)

end Blockmark.TableProperty

namespace Blockmark.Table

/-- Rows are cut into as few segments as hold them, and no rows into one. All segments but the last
are full, and one behind the other they are the rows, cell by cell, with a blank cell where a row is
too short. A table has as many rows as its cells fill, whatever number it declares; they are its
cells up to the last complete row, and complete rows without gaps are found again in their cells. -/
theorem segments_and_rows :
    (∀ {α : Type} (blank : α) (columns limit : Nat) (rows : List (List α)),
      let segments := paginate blank columns limit rows
      let size := max 1 limit
      segments.length = max 1 ((rows.length + size - 1) / size) ∧
        (∀ segment ∈ segments.dropLast, segment.length = size) ∧
        segments.flatten = rows.map fun row => (List.range columns).map (row.getD · blank)) ∧
    ∀ property : TableProperty,
      (∀ declared, { property with rowSize := declared }.rows = property.rows) ∧
        property.rows.length = property.cells.length / property.columnSize ∧
        (∀ row ∈ property.rows, row.length = property.columnSize) ∧
        property.rows.flatten.map (·.getD "") =
          property.cells.take
            (property.columnSize * (property.cells.length / property.columnSize)) ∧
        ∀ rows : List (List BlockId), 0 < property.columnSize →
          (∀ row ∈ rows, row.length = property.columnSize) →
          (∀ row ∈ rows, ∀ id ∈ row, id ≠ "") →
          { property with cells := rows.flatten }.rows = rows.map (·.map some) := by
  constructor
  · intro α blank columns limit rows segments size
    have some : size ≠ 0 := Nat.one_le_iff_ne_zero.1 (Nat.le_max_left 1 limit)
    have cut : segments = paginate blank columns size rows :=
      (paginate_max blank columns limit rows).symm
    refine ⟨?_, ?_, ?_⟩
    · rw [cut, length_paginate some]
    · rw [cut]
      exact length_of_mem_dropLast_paginate some rows
    · rw [flatten_paginate]
      exact List.map_congr_left fun row _ => normalizeRow_eq blank columns row
  · intro property
    refine ⟨fun declared => rfl, ?_, fun row => TableProperty.length_of_mem_rows,
      property.rows_flatten, fun rows wide full filled =>
        TableProperty.rows_of_flatten (Nat.ne_of_gt wide) full filled⟩
    by_cases none : property.columnSize = 0
    · rw [TableProperty.rows, if_pos none, none, Nat.div_zero]
      rfl
    · exact TableProperty.length_rows none

theorem segments_and_rows_ragged :
    let segments := paginate "" 2 2 [["a"], ["b", "c", "d"], ["e", "f"]]
    let gap : TableProperty := { cells := ["a", "", "c"], rowSize := 7, columnSize := 2 }
    let property : TableProperty := { rowSize := 7, columnSize := 2 }
    let rows := [["a", "b"], ["c", "d"]]
    ([["a", ""], ["b", "c"]] ∈ segments.dropLast ∧ [["a", ""], ["b", "c"]].length = max 1 2) ∧
      ([some "a", none] ∈ gap.rows ∧ [some "a", none].length = gap.columnSize) ∧
      0 < property.columnSize ∧ (∀ row ∈ rows, row.length = property.columnSize) ∧
      (∀ row ∈ rows, ∀ id ∈ row, id ≠ "") ∧
      { property with cells := rows.flatten }.rows = rows.map (·.map some) := by
  intro segments gap property rows
  have cut : [["a", ""], ["b", "c"]] ∈ segments.dropLast := by
    simp [segments, paginate, chunks, normalizeRow]
  have read : [some "a", none] ∈ gap.rows := by
    simp [gap, TableProperty.rows, chunks, TableProperty.cell?]
  have full : ∀ row ∈ rows, row.length = property.columnSize := by decide
  have filled : ∀ row ∈ rows, ∀ id ∈ row, id ≠ "" := by decide
  exact ⟨⟨cut, (segments_and_rows.1 "" 2 2 _).2.1 _ cut⟩,
    ⟨read, (segments_and_rows.2 _).2.2.1 _ read⟩, by decide, full, filled,
    (segments_and_rows.2 property).2.2.2.2 rows (by decide) full filled⟩

end Blockmark.Table
