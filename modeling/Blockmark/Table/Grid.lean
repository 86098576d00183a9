import Blockmark.Block.Kind

/-!
# Grids of a table

Long tables are cut into segments of a bounded number of rows, each row brought to the width of
the table. The flat list of cells of a table is read back as its complete rows.

Main statement: `flatten_chunks`, by which cutting a list and joining the parts gives it back.
-/

namespace Blockmark.Table

def rowLimit : Nat := 9

/-- Cuts a list into parts of the given size, the last one possibly shorter. A size of zero counts
as one. -/
def chunks {α : Type} (size : Nat) (items : List α) : List (List α) :=
  match items with
  | [] => []
  | item :: rest => (item :: rest.take (size - 1)) :: chunks size (rest.drop (size - 1))
termination_by items.length
decreasing_by simp only [List.length_drop, List.length_cons]; omega

theorem flatten_chunks {α : Type} (size : Nat) (items : List α) :
    (chunks size items).flatten = items := by
  fun_induction chunks size items with
  | case1 => rfl
  | case2 item rest ih => simp [ih]

def normalizeRow {α : Type} (blank : α) (columns : Nat) (row : List α) : List α :=
  row.take columns ++ List.replicate (columns - row.length) blank

/-- Cuts rows into segments of at most `limit` rows, every row brought to `columns` cells. No rows
at all make one empty segment. -/
def paginate {α : Type} (blank : α) (columns limit : Nat) (rows : List (List α)) :
    List (List (List α)) :=
  if rows.isEmpty then [[]]
  else (chunks limit rows).map (·.map (normalizeRow blank columns))

end Blockmark.Table

namespace Blockmark.TableProperty

/-- The cell under an id; the empty id marks a gap. -/
def cell? (id : BlockId) : Option BlockId :=
  if id.isEmpty then none else some id

/-- The complete rows among the cells of a table, whatever number of rows it declares. A table
without columns has no rows. -/
def rows (property : TableProperty) : List (List (Option BlockId)) :=
  if property.columnSize = 0 then []
  else ((Table.chunks property.columnSize property.cells).filter
    (·.length = property.columnSize)).map (·.map cell?)

end Blockmark.TableProperty
