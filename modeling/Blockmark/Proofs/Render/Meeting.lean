import Blockmark.Proofs.Forest.Entries
import Blockmark.Proofs.Render.Plan
import Blockmark.Proofs.Table.Segments

/-!
# What is shown below a block

Where a block is met decides what is shown below it: its children, the columns among them, or the
cells of its complete rows. That is always a part of what the block lists there.

Main statement: `meets_sublist_lists`.
-/

namespace Blockmark

namespace TableProperty

theorem filterMap_cell?_sublist (ids : List BlockId) : (ids.filterMap cell?).Sublist ids := by
  have cells : ids.filterMap cell? = ids.filter (!·.isEmpty) := by
    rw [← List.filterMap_eq_filter]
    refine List.filterMap_congr fun id _ => ?_
    rw [cell?, Option.guard]
    cases id.isEmpty <;> rfl
  rw [cells]
  exact List.filter_sublist

theorem rows_sublist (property : TableProperty) :
    (property.rows.flatten.filterMap id).Sublist property.cells := by
  unfold rows
  split
  · exact List.nil_sublist _
  · rw [← List.map_flatten, List.filterMap_map]
    have whole := List.filter_sublist (p := fun row => decide (row.length = property.columnSize))
      (l := Table.chunks property.columnSize property.cells)
    have rows := whole.flatten
    rw [Table.flatten_chunks] at rows
    exact (filterMap_cell?_sublist _).trans rows

theorem mem_cells_of_mem_rows {property : TableProperty} {id : BlockId}
    (mem : some id ∈ property.rows.flatten) : id ∈ property.cells :=
  property.rows_sublist.subset (List.mem_filterMap.2 ⟨some id, mem, rfl⟩)

theorem rows_eq_cells (property : TableProperty) (some : property.columnSize ≠ 0)
    (dvd : property.columnSize ∣ property.cells.length)
    (noGap : ∀ id ∈ property.cells, id.isEmpty = false) :
    property.rows.flatten.filterMap id = property.cells := by
  rw [rows_of_full some dvd, ← List.map_flatten, Table.flatten_chunks, List.filterMap_map]
  have same : ∀ id ∈ property.cells, cell? id = Option.some id := fun id mem => by
    rw [cell?, noGap id mem]
    rfl
  exact (List.filterMap_congr same).trans (List.filterMap_some)

end TableProperty

namespace Render

/-- What is shown below a block: siblings behind an item with the number `before`, the columns
among some blocks, or the cells of a table. -/
inductive Walk
  | siblings (before : Nat) (ids : List BlockId)
  | columns (ids : List BlockId)
  | cells (ids : List (Option BlockId))

def Walk.below (block : Block) : Walk :=
  match descent block.kind with
  | .stop => .siblings 0 []
  | .children => .siblings 0 block.children
  | .columns => .columns block.children
  | .cells ids => .cells ids

def Walk.at (spot : Spot) (block : Block) : Walk :=
  match spot with
  | .sibling => .below block
  | .cell => if block.children.isEmpty then .below block else .siblings 0 block.children
  | .label => .siblings 0 []

def column? (forest : Forest) (id : BlockId) : Option Block :=
  (forest.get? id).filter (isGridColumn ·.kind)

def Walk.entries (forest : Forest) : Walk → List Entry
  | .siblings _ ids => forest.entries .sibling ids
  | .columns ids => forest.entries .sibling (ids.filter fun id => (column? forest id).isSome)
  | .cells slots => forest.entries .cell (slots.filterMap id)

def meets (forest : Forest) (entry : Entry) : List Entry :=
  ((forest.get? entry.id).map fun block => (Walk.at entry.spot block).entries forest).getD []

section

variable {forest : Forest}

theorem meets_eq {entry : Entry} {block : Block} (found : forest.get? entry.id = some block) :
    meets forest entry = (Walk.at entry.spot block).entries forest := by
  simp [meets, found]

theorem meets_found {id : BlockId} {block : Block} (found : forest.get? id = some block)
    (spot : Spot) : meets forest ⟨spot, id⟩ = (Walk.at spot block).entries forest :=
  meets_eq found

theorem column?_eq_some {id : BlockId} {block : Block} :
    column? forest id = some block ↔
      forest.get? id = some block ∧ isGridColumn block.kind = true := by
  simp [column?, Option.filter_eq_some_iff]

theorem walk_below_column {block : Block} (isColumn : isGridColumn block.kind = true) :
    Walk.below block = .siblings 0 block.children := by
  unfold isGridColumn at isColumn
  unfold Walk.below
  split at isColumn
  · next kind => rw [kind]; rfl
  · cases isColumn

theorem below_sublist_listedBeside (forest : Forest) (block : Block) :
    ((Walk.below block).entries forest).Sublist (forest.listedBeside block) := by
  obtain ⟨id, kind, children⟩ := block
  have all : (forest.entries .sibling children).Sublist (forest.entries .sibling children) :=
    .refl _
  cases kind with
  | text role =>
      cases role with
      | code | equation => exact List.nil_sublist _
      | _ => exact all
  | embed role =>
      cases role with
      | linkPreview => exact all
      | _ => exact List.nil_sublist _
  | bare role =>
      cases role with
      | divider | wikiCatalog | wikiCatalogV2 | aiTemplate => exact List.nil_sublist _
      | _ => exact all
  | callout | gridColumn | syncReference => exact all
  | grid => exact Forest.entries_sublist List.filter_sublist _
  | table property =>
      cases property with
      | none => exact List.nil_sublist _
      | some property => exact Forest.entries_sublist property.rows_sublist _
  | heading | diagram | file | image | isv | unknown => exact List.nil_sublist _

theorem meets_sublist_lists (forest : Forest) (entry : Entry) :
    (meets forest entry).Sublist (forest.lists entry) := by
  cases found : forest.get? entry.id with
  | none => simp [meets, found]
  | some block =>
      rw [meets_eq found, Forest.lists_eq found]
      cases entry.spot with
      | sibling => exact below_sublist_listedBeside forest block
      | cell =>
          rw [Walk.at, Forest.listedBy]
          split
          · exact below_sublist_listedBeside forest block
          · exact .refl _
      | label => exact List.nil_sublist _

theorem mem_childIds_of_mem_meets
    (cells : ∀ block ∈ forest.blocks, block.kind.cells.Sublist block.children)
    {above below : Entry} (mem : below ∈ meets forest above) :
    below.id ∈ forest.childIds above.id := by
  have listed := (meets_sublist_lists forest above).subset mem
  cases found : forest.get? above.id with
  | none => simp [Forest.lists, found] at listed
  | some block =>
      rw [Forest.lists_eq found] at listed
      rw [Forest.childIds, found]
      exact (Forest.ids_listedBy_sublist forest above.spot
        (cells block (Forest.mem_of_get? found))).subset (List.mem_map_of_mem listed)

theorem level_meets_eq_nil
    (cells : ∀ block ∈ forest.blocks, block.kind.cells.Sublist block.children) {number : Nat}
    {ids : List BlockId} (bounded : ChainsWithin forest.childIds number ids) (spot : Spot) :
    level (meets forest) number (forest.entries spot ids) = [] := by
  refine level_eq_nil_iff.2 fun path chain rooted => ?_
  rw [← List.length_map (f := Entry.id)]
  refine bounded _ ?_ fun top isTop => ?_
  · exact List.isChain_map_of_isChain Entry.id
      (fun _ _ mem => mem_childIds_of_mem_meets cells mem) chain
  · rw [List.head?_map] at isTop
    obtain ⟨entry, first, rfl⟩ := Option.map_eq_some_iff.1 isTop
    exact (Forest.mem_entries.1 (rooted entry first)).2.1

end

end Render

end Blockmark
