import Mathlib.Data.List.Basic
import Blockmark.Table.Grid

/-!
# Segments of a table

Cutting a list gives as few parts as possible, all of one size but for the last. Cutting rows into
segments loses no row and keeps their order; every row gets the width of the table.

Main statements: `chunks_flatten`, `length_paginate`, `flatten_paginate`,
`length_of_mem_dropLast_paginate`, and `length_rows` on the rows that a list of cells is read as.
-/

namespace Blockmark.Table

variable {α β : Type} {size : Nat}

/-! ## Parts of one size -/

theorem chunks_map (f : α → β) (size : Nat) (items : List α) :
    chunks size (items.map f) = (chunks size items).map (·.map f) := by
  fun_induction chunks size items with
  | case1 => rw [List.map_nil, chunks, List.map_nil]
  | case2 item rest ih =>
      rw [List.map_cons, chunks, ← List.map_drop, ih, ← List.map_take]
      rfl

theorem chunks_append (some : size ≠ 0) {part : List α} (full : part.length = size)
    (more : List α) : chunks size (part ++ more) = part :: chunks size more := by
  cases part with
  | nil => exact absurd full.symm some
  | cons item rest =>
      have size_eq : size - 1 = rest.length := by
        rw [List.length_cons] at full
        omega
      rw [List.cons_append, chunks, size_eq, List.take_left, List.drop_left]

theorem chunks_flatten (some : size ≠ 0) {parts : List (List α)}
    (full : ∀ part ∈ parts, part.length = size) : chunks size parts.flatten = parts := by
  induction parts with
  | nil => rw [List.flatten_nil, chunks]
  | cons part parts ih =>
      obtain ⟨first, rest⟩ := List.forall_mem_cons.1 full
      rw [List.flatten_cons, chunks_append some first, ih rest]

theorem length_chunks (some : size ≠ 0) (items : List α) :
    (chunks size items).length = (items.length + size - 1) / size := by
  have positive : 0 < size := Nat.pos_of_ne_zero some
  fun_induction chunks size items with
  | case1 =>
      rw [List.length_nil, List.length_nil]
      exact (Nat.div_eq_of_lt (by omega)).symm
  | case2 item rest ih =>
      have behind : (rest.length - (size - 1) + size - 1) / size = rest.length / size := by
        by_cases short : rest.length < size - 1
        · rw [Nat.div_eq_of_lt (by omega), Nat.div_eq_of_lt (by omega)]
        · congr 1
          omega
      have all : rest.length + 1 + size - 1 = rest.length + size := by omega
      rw [List.length_cons, ih, List.length_drop, List.length_cons, behind, all,
        Nat.add_div_right _ positive]

theorem length_of_mem_dropLast_chunks (some : size ≠ 0) (items : List α) :
    ∀ part ∈ (chunks size items).dropLast, part.length = size := by
  fun_induction chunks size items with
  | case1 => simp
  | case2 item rest ih =>
      cases behind : chunks size (rest.drop (size - 1)) with
      | nil => simp
      | cons part parts =>
          -- Something is left behind the first part, so that the first part is full.
          have left : rest.drop (size - 1) ≠ [] := by
            intro none
            rw [none, chunks] at behind
            cases behind
          have long : size - 1 < rest.length := by simpa using left
          rw [behind] at ih
          rw [List.dropLast_cons_cons]
          refine List.forall_mem_cons.2 ⟨?_, ih⟩
          rw [List.length_cons, List.length_take]
          omega

theorem filter_full_cons (some : size ≠ 0) (item : α) (rest : List α) :
    ((item :: rest.take (size - 1)) ::
        chunks size (rest.drop (size - 1))).filter (·.length = size) =
      if size ≤ rest.length + 1 then
        (item :: rest.take (size - 1)) ::
          (chunks size (rest.drop (size - 1))).filter (·.length = size)
      else [] := by
  have width : (item :: rest.take (size - 1)).length = min size (rest.length + 1) := by
    rw [List.length_cons, List.length_take]
    omega
  split
  · exact List.filter_cons_of_pos (by rw [width, decide_eq_true_eq]; omega)
  · have none : rest.drop (size - 1) = [] := List.drop_eq_nil_of_le (by omega)
    rw [List.filter_cons_of_neg (by rw [width, decide_eq_true_eq]; omega), none, chunks,
      List.filter_nil]

theorem div_eq_of_full {item : α} {rest : List α} (some : size ≠ 0)
    (full : size ≤ rest.length + 1) :
    (item :: rest).length / size = (rest.drop (size - 1)).length / size + 1 := by
  have one : (item :: rest).length = (rest.drop (size - 1)).length + size := by
    rw [List.length_drop, List.length_cons]
    omega
  rw [one, Nat.add_div_right _ (Nat.pos_of_ne_zero some)]

theorem length_full_chunks (some : size ≠ 0) (items : List α) :
    ((chunks size items).filter (·.length = size)).length = items.length / size := by
  fun_induction chunks size items with
  | case1 => simp
  | case2 item rest ih =>
      rw [filter_full_cons some]
      split
      · next full => rw [List.length_cons, ih, div_eq_of_full some full]
      · next short => rw [List.length_nil, List.length_cons, Nat.div_eq_of_lt (by omega)]

theorem flatten_full_chunks (some : size ≠ 0) (items : List α) :
    ((chunks size items).filter (·.length = size)).flatten =
      items.take (size * (items.length / size)) := by
  fun_induction chunks size items with
  | case1 => simp
  | case2 item rest ih =>
      rw [filter_full_cons some]
      split
      · next full =>
          obtain ⟨less, rfl⟩ := Nat.exists_eq_succ_of_ne_zero some
          rw [List.flatten_cons, ih, div_eq_of_full some full, Nat.mul_succ, Nat.add_comm,
            List.take_add]
          rfl
      · next short => rw [List.length_cons, Nat.div_eq_of_lt (by omega)]; rfl

theorem filter_full_chunks (some : size ≠ 0) {items : List α} (dvd : size ∣ items.length) :
    (chunks size items).filter (·.length = size) = chunks size items := by
  fun_induction chunks size items with
  | case1 => rfl
  | case2 item rest ih =>
      have full : size ≤ rest.length + 1 := Nat.le_of_dvd (Nat.succ_pos _) dvd
      have behind : (rest.drop (size - 1)).length = rest.length + 1 - size := by
        rw [List.length_drop]
        omega
      rw [filter_full_cons some, if_pos full, ih (behind ▸ Nat.dvd_sub dvd (Nat.dvd_refl size))]

/-! ## Rows of one width -/

theorem normalizeRow_map (f : α → β) (blank : α) (columns : Nat) (row : List α) :
    normalizeRow (f blank) columns (row.map f) = (normalizeRow blank columns row).map f := by
  simp [normalizeRow, List.map_take]

theorem normalizeRow_of_le (blank : α) {columns : Nat} {row : List α}
    (fits : row.length ≤ columns) :
    normalizeRow blank columns row = row ++ List.replicate (columns - row.length) blank := by
  rw [normalizeRow, List.take_of_length_le fits]

theorem length_normalizeRow (blank : α) (columns : Nat) (row : List α) :
    (normalizeRow blank columns row).length = columns := by
  simp only [normalizeRow, List.length_append, List.length_take, List.length_replicate]
  omega

/-! ## Segments -/

variable {blank : α} {columns limit : Nat} {rows : List (List α)}

theorem paginate_map (f : α → β) (blank : α) (columns limit : Nat) (rows : List (List α)) :
    paginate (f blank) columns limit (rows.map (·.map f)) =
      (paginate blank columns limit rows).map (·.map (·.map f)) := by
  unfold paginate
  rw [List.isEmpty_map]
  split
  · rfl
  · simp only [chunks_map, List.map_map, Function.comp_def, normalizeRow_map]

theorem length_of_mem_paginate {segment : List (List α)}
    (mem : segment ∈ paginate blank columns limit rows) {row : List α} (inside : row ∈ segment) :
    row.length = columns := by
  unfold paginate at mem
  split at mem
  · obtain rfl := List.mem_singleton.1 mem
    cases inside
  · obtain ⟨chunk, -, rfl⟩ := List.mem_map.1 mem
    obtain ⟨short, -, rfl⟩ := List.mem_map.1 inside
    exact length_normalizeRow _ _ _

theorem length_paginate (some : limit ≠ 0) (rows : List (List α)) :
    (paginate blank columns limit rows).length = max 1 ((rows.length + limit - 1) / limit) := by
  unfold paginate
  cases rows with
  | nil =>
      have none : (limit - 1) / limit = 0 := Nat.div_eq_of_lt (by omega)
      simp [none]
  | cons row rows =>
      have one : 1 ≤ ((row :: rows).length + limit - 1) / limit := by
        rw [List.length_cons, Nat.one_le_div_iff (Nat.pos_of_ne_zero some)]
        omega
      rw [List.isEmpty_cons, if_neg Bool.false_ne_true, List.length_map, length_chunks some,
        Nat.max_eq_right one]

theorem flatten_paginate (rows : List (List α)) :
    (paginate blank columns limit rows).flatten = rows.map (normalizeRow blank columns) := by
  unfold paginate
  split
  · next none => rw [List.isEmpty_iff.1 none]; rfl
  · rw [← List.map_flatten, flatten_chunks]

theorem length_of_mem_dropLast_paginate (some : limit ≠ 0) (rows : List (List α)) :
    ∀ segment ∈ (paginate blank columns limit rows).dropLast, segment.length = limit := by
  unfold paginate
  split
  · simp
  · intro segment mem
    rw [← List.map_dropLast] at mem
    obtain ⟨part, inside, rfl⟩ := List.mem_map.1 mem
    rw [List.length_map]
    exact length_of_mem_dropLast_chunks some rows part inside

end Blockmark.Table

namespace Blockmark.TableProperty

variable {property : TableProperty}

theorem length_rows (some : property.columnSize ≠ 0) :
    property.rows.length = property.cells.length / property.columnSize := by
  rw [rows, if_neg some, List.length_map, Table.length_full_chunks some]

theorem rows_of_full (some : property.columnSize ≠ 0)
    (dvd : property.columnSize ∣ property.cells.length) :
    property.rows = (Table.chunks property.columnSize property.cells).map (·.map cell?) := by
  rw [rows, if_neg some, Table.filter_full_chunks some dvd]

theorem length_of_mem_rows {row : List (Option BlockId)} (mem : row ∈ property.rows) :
    row.length = property.columnSize := by
  unfold rows at mem
  split at mem
  · cases mem
  · obtain ⟨ids, inside, rfl⟩ := List.mem_map.1 mem
    rw [List.length_map]
    simpa using (List.mem_filter.1 inside).2

end Blockmark.TableProperty
