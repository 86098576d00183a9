import Blockmark.Proofs.Forest.Hierarchy
import Blockmark.Proofs.Forest.Unfolding

/-!
# What blocks list

A block is met in a spot: among siblings, as a cell of a table, or as a text under an image. What
it lists depends on the spot: a table lists its cells in place of its children, but one that
stands in a cell itself, or under an image, is met with its children.

Main statement: `lists_tree`, by which what is listed once is met once.
-/

namespace Blockmark

inductive Spot
  | sibling
  | cell
  | label
  deriving DecidableEq, Repr, Inhabited

structure Entry where
  spot : Spot
  id : BlockId
  deriving DecidableEq, Repr, Inhabited

namespace Forest

def entries (forest : Forest) (spot : Spot) (ids : List BlockId) : List Entry :=
  (ids.filter forest.contains).map (⟨spot, ·⟩)

def listedBeside (forest : Forest) (block : Block) : List Entry :=
  match block.kind with
  | .table _ => forest.entries .cell block.kind.cells
  | .image _ => forest.entries .label block.children
  | _ => forest.entries .sibling block.children

def listedBy (forest : Forest) (spot : Spot) (block : Block) : List Entry :=
  match spot with
  | .sibling => forest.listedBeside block
  | .cell =>
    if block.children.isEmpty then forest.listedBeside block
    else forest.entries .sibling block.children
  | .label => forest.entries .label block.children

def lists (forest : Forest) (entry : Entry) : List Entry :=
  ((forest.get? entry.id).map (forest.listedBy entry.spot)).getD []

def childIds (forest : Forest) (id : BlockId) : List BlockId :=
  ((forest.get? id).map (·.children)).getD []

/-- The ids that the block under an id leads to, its children and its cells. -/
def leadsTo (forest : Forest) (id : BlockId) : List BlockId :=
  ((forest.get? id).map fun block => block.children ++ block.kind.cells).getD []

variable {forest : Forest}

theorem entries_cons (spot : Spot) (id : BlockId) (ids : List BlockId) :
    forest.entries spot (id :: ids) =
      if forest.contains id then ⟨spot, id⟩ :: forest.entries spot ids
      else forest.entries spot ids := by
  unfold entries
  cases present : forest.contains id <;> simp [present]

theorem entries_cons_missing {id : BlockId} (missing : forest.get? id = none) (spot : Spot)
    (ids : List BlockId) : forest.entries spot (id :: ids) = forest.entries spot ids := by
  simp [entries_cons, contains, missing]

theorem entries_cons_found {id : BlockId} {block : Block} (found : forest.get? id = some block)
    (spot : Spot) (ids : List BlockId) :
    forest.entries spot (id :: ids) = ⟨spot, id⟩ :: forest.entries spot ids := by
  simp [entries_cons, contains, found]

theorem mem_entries {entry : Entry} {spot : Spot} {ids : List BlockId} :
    entry ∈ forest.entries spot ids ↔
      entry.spot = spot ∧ entry.id ∈ ids ∧ forest.contains entry.id = true := by
  obtain ⟨place, id⟩ := entry
  simp [entries]
  grind

theorem lists_eq {entry : Entry} {block : Block} (found : forest.get? entry.id = some block) :
    forest.lists entry = forest.listedBy entry.spot block := by
  simp [lists, found]

theorem childIds_eq {id : BlockId} {block : Block} (found : forest.get? id = some block) :
    forest.childIds id = block.children := by
  rw [childIds, found]
  rfl

theorem reaches_listed {roots : List BlockId} {id target : BlockId} {block : Block}
    (found : forest.get? id = some block)
    (reaches : Reaches forest.leadsTo roots id)
    (listed : target ∈ block.children ∨ target ∈ block.kind.cells) :
    Reaches forest.leadsTo roots target := by
  refine reaches.step ?_
  rw [leadsTo, found]
  exact List.mem_append.2 listed

theorem reaches_below_children {roots : List BlockId} {id target : BlockId}
    (reaches : Reaches forest.leadsTo roots id)
    (below : Reaches forest.childIds [id] target) : Reaches forest.leadsTo roots target := by
  refine below.closed (by simpa using reaches) fun id reaches child mem => ?_
  cases found : forest.get? id with
  | none => simp [childIds, found] at mem
  | some block => exact reaches_listed found reaches (.inl (childIds_eq found ▸ mem))

theorem entries_sublist {ids more : List BlockId} (sub : ids.Sublist more) (spot : Spot) :
    (forest.entries spot ids).Sublist (forest.entries spot more) :=
  (sub.filter _).map _

theorem ids_entries (forest : Forest) (spot : Spot) (ids : List BlockId) :
    (forest.entries spot ids).map Entry.id = ids.filter forest.contains := by
  rw [entries, List.map_map]
  exact List.map_id _

theorem ids_listedBy_sublist (forest : Forest) (spot : Spot) {block : Block}
    (cells : block.kind.cells.Sublist block.children) :
    ((forest.listedBy spot block).map Entry.id).Sublist block.children := by
  have some (spot : Spot) {ids : List BlockId} (sub : ids.Sublist block.children) :
      ((forest.entries spot ids).map Entry.id).Sublist block.children :=
    ids_entries forest spot ids ▸ List.filter_sublist.trans sub
  have beside : ((forest.listedBeside block).map Entry.id).Sublist block.children := by
    unfold listedBeside
    split
    · exact some .cell cells
    · exact some .label (.refl _)
    · exact some .sibling (.refl _)
  cases spot with
  | sibling => exact beside
  | cell =>
      rw [listedBy]
      split
      · exact beside
      · exact some .sibling (.refl _)
  | label => exact some .label (.refl _)

theorem lists_tree {roots : List BlockId} (once : (forest.listed roots).Nodup)
    (cells : ∀ block ∈ forest.blocks, block.kind.cells.Sublist block.children) :
    Tree forest.lists Entry.id (forest.entries .sibling roots) := by
  intro above distinct _
  let blocks := (above.map Entry.id).filterMap forest.get?
  have distinct : blocks.Nodup := distinct.filterMap fun id other block mem mem' =>
    (id_of_get? mem).symm.trans (id_of_get? mem')
  have known : blocks ⊆ forest.blocks := by
    intro block mem
    obtain ⟨id, -, found⟩ := List.mem_filterMap.1 mem
    exact mem_of_get? found
  have below : ((above.flatMap forest.lists).map Entry.id).Sublist
      (blocks.flatMap (·.children)) := by
    have blocks_eq : blocks = (above.map Entry.id).flatMap fun id => (forest.get? id).toList :=
      List.filterMap_eq_flatMap_toList _ _
    rw [List.map_flatMap, blocks_eq, List.flatMap_assoc, List.flatMap_map]
    refine List.Sublist.flatMap_right above fun entry _ => ?_
    cases found : forest.get? entry.id with
    | none => simp [lists, found]
    | some block =>
        rw [lists_eq found, Option.toList_some, List.flatMap_singleton]
        exact ids_listedBy_sublist forest _ (cells block (mem_of_get? found))
  obtain ⟨part, perm, sub⟩ := subperm_flatMap distinct known (·.children)
  rw [List.map_append, ids_entries]
  refine List.Nodup.sublist (List.filter_sublist.append below) ?_
  exact ((perm.append_left roots).nodup_iff).1 (List.Nodup.sublist (sub.append_left roots) once)

end Forest

end Blockmark
