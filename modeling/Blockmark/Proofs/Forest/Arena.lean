import Mathlib.Data.Finset.Card
import Blockmark.Arena
import Blockmark.Proofs.Forest.Insertion

/-!
# Blocks found by position

An arena that grows from nothing keeps the position of every id: the ids of its blocks, numbered
from zero. So no access leaves the array, and the arena answers as the forest of its blocks does,
which searches them.

Main statements: `exists_insert` on one insertion, `exists_foldlM_insert` on any number of them, and
`ofList_records`, by which an arena is a map from ids to the blocks last added, in the order in
which the ids were first added.
-/

namespace Blockmark

namespace Forest

variable {forest : Forest} {block : Block}

theorem get?_eq_bind_position? (forest : Forest) (id : BlockId) :
    forest.get? id = (forest.position? id).bind (forest.blocks[·]?) :=
  List.find?_eq_bind_findIdx?_getElem?

theorem position?_eq_none_iff {id : BlockId} : forest.position? id = none ↔ id ∉ forest.ids := by
  simp [position?, ids]

theorem exists_of_position? {id : BlockId} {position : Nat}
    (found : forest.position? id = some position) :
    ∃ block, forest.blocks[position]? = some block ∧ block.id = id := by
  obtain ⟨inside, same, -⟩ := List.findIdx?_eq_some_iff_getElem.1 found
  exact ⟨forest.blocks[position], List.getElem?_eq_getElem inside, by simpa using same⟩

theorem insert_eq_set {position : Nat} (found : forest.position? block.id = some position) :
    forest.insert block = ⟨forest.blocks.set position block⟩ := by
  obtain ⟨blocks⟩ := forest
  simp only [position?, insert, mk.injEq] at found ⊢
  induction blocks generalizing position with
  | nil => cases found
  | cons other blocks ih =>
      rw [List.findIdx?_cons] at found
      by_cases same : other.id = block.id
      · rw [if_pos (by simpa using same)] at found
        cases found
        rw [put, if_pos same, List.set_cons_zero]
      · rw [if_neg (by simpa using same)] at found
        obtain ⟨behind, further, rfl⟩ := Option.map_eq_some_iff.1 found
        rw [put, if_neg same, List.set_cons_succ, ih further]

theorem map_get?_ids (nodup : forest.ids.Nodup) :
    forest.ids.map forest.get? = forest.blocks.map some := by
  rw [ids, List.map_map]
  exact List.map_congr_left fun block mem => get?_eq_some nodup mem

end Forest

namespace Arena

structure Valid (arena : Arena) : Prop where
  nodup : arena.forest.ids.Nodup
  positions_eq : arena.positions = arena.forest.ids.zipIdx

variable {arena : Arena}

theorem valid_empty : Valid {} where
  nodup := List.nodup_nil
  positions_eq := rfl

theorem getElem?_blocks (arena : Arena) (position : Nat) :
    arena.blocks[position]? = arena.forest.blocks[position]? :=
  Array.getElem?_toList.symm

theorem position?_eq (valid : arena.Valid) (id : BlockId) :
    arena.position? id = arena.forest.position? id := by
  have searched : arena.forest.ids.findIdx? (· = id) =
      (arena.forest.ids.zipIdx.find? (·.1 = id)).map (·.2) :=
    List.findIdx?_eq_fst_find?_zipIdx
  rw [position?, valid.positions_eq, ← searched, Forest.ids, List.findIdx?_map]
  rfl

theorem get?_eq (valid : arena.Valid) (id : BlockId) :
    arena.get? id = .ok (arena.forest.get? id) := by
  rw [get?, position?_eq valid, Forest.get?_eq_bind_position?]
  cases found : arena.forest.position? id with
  | none => rfl
  | some position =>
      obtain ⟨block, there, -⟩ := Forest.exists_of_position? found
      simp only [getElem?_blocks, there, Option.bind_some]

theorem contains_eq (valid : arena.Valid) (id : BlockId) :
    arena.contains id = (arena.forest.get? id).isSome := by
  rw [contains, position?_eq valid, Forest.get?_eq_bind_position?]
  cases found : arena.forest.position? id with
  | none => rfl
  | some position =>
      obtain ⟨block, there, -⟩ := Forest.exists_of_position? found
      rw [Option.bind_some, there]
      rfl

theorem childrenOf_eq (valid : arena.Valid) (block : Block) :
    arena.childrenOf block = .ok (arena.forest.childrenOf block) := by
  rw [childrenOf, Forest.childrenOf]
  induction block.children with
  | nil => rfl
  | cons id ids ih =>
      rw [List.filterMapM_cons, get?_eq valid, ih, List.filterMap_cons]
      cases arena.forest.get? id <;> rfl

theorem exists_insert_known (valid : arena.Valid) {block : Block} {position : Nat}
    (found : arena.forest.position? block.id = some position) :
    ∃ next, arena.insert block = .ok next ∧ next.positions = arena.positions ∧
      next.forest = arena.forest.insert block := by
  obtain ⟨other, there, -⟩ := Forest.exists_of_position? found
  have inside : position < arena.blocks.size := (List.getElem?_eq_some_iff.1 there).1
  refine ⟨{ arena with blocks := arena.blocks.set position block inside }, ?_, rfl, ?_⟩
  · rw [insert, position?_eq valid, found]
    exact dif_pos inside
  · rw [Forest.insert_eq_set found, forest, forest, Array.toList_set]

theorem exists_insert_fresh (valid : arena.Valid) {block : Block}
    (fresh : block.id ∉ arena.forest.ids) :
    ∃ next, arena.insert block = .ok next ∧
      next.positions = arena.positions ++ [(block.id, arena.forest.ids.length)] ∧
      next.forest = arena.forest.insert block := by
  refine ⟨{ blocks := arena.blocks.push block
            positions := arena.positions ++ [(block.id, arena.blocks.size)] }, ?_, ?_, ?_⟩
  · rw [insert, position?_eq valid, Forest.position?_eq_none_iff.2 fresh]
  · simp [Forest.ids, forest]
  · rw [Forest.insert_eq_append fresh, forest, forest, Array.toList_push]

theorem exists_insert (valid : arena.Valid) (block : Block) :
    ∃ next, arena.insert block = .ok next ∧ next.Valid ∧
      next.forest = arena.forest.insert block := by
  have nodup := Forest.nodup_ids_insert block valid.nodup
  by_cases known : block.id ∈ arena.forest.ids
  · obtain ⟨position, found⟩ := Option.ne_none_iff_exists'.1
      (mt Forest.position?_eq_none_iff.1 (not_not_intro known))
    obtain ⟨next, step, positions, forest_eq⟩ := exists_insert_known valid found
    refine ⟨next, step, ⟨by rwa [forest_eq], ?_⟩, forest_eq⟩
    rw [forest_eq, Forest.ids_insert, if_pos known, positions, valid.positions_eq]
  · obtain ⟨next, step, positions, forest_eq⟩ := exists_insert_fresh valid known
    refine ⟨next, step, ⟨by rwa [forest_eq], ?_⟩, forest_eq⟩
    rw [forest_eq, Forest.ids_insert, if_neg known, List.zipIdx_append, positions,
      valid.positions_eq, Nat.zero_add]
    rfl

theorem exists_foldlM_insert (blocks : List Block) (valid : arena.Valid) :
    ∃ last, blocks.foldlM insert arena = .ok last ∧ last.Valid ∧
      last.forest = blocks.foldl Forest.insert arena.forest := by
  induction blocks generalizing arena with
  | nil => exact ⟨arena, rfl, valid, rfl⟩
  | cons block blocks ih =>
      obtain ⟨next, step, nextValid, nextForest⟩ := exists_insert valid block
      obtain ⟨last, run, lastValid, lastForest⟩ := ih nextValid
      refine ⟨last, ?_, lastValid, ?_⟩
      · rw [List.foldlM_cons, step]
        exact run
      · rw [List.foldl_cons, ← nextForest, lastForest]

theorem exists_block_of_mem_positions (valid : arena.Valid) {entry : BlockId × Nat}
    (mem : entry ∈ arena.positions) :
    ∃ block, arena.blocks[entry.2]? = some block ∧ block.id = entry.1 := by
  rw [valid.positions_eq, List.mem_zipIdx_iff_getElem?, Forest.ids, List.getElem?_map,
    Option.map_eq_some_iff] at mem
  obtain ⟨block, there, same⟩ := mem
  exact ⟨block, (arena.getElem?_blocks _).trans there, same⟩

theorem nodup_positions (valid : arena.Valid) : (arena.positions.map (·.1)).Nodup := by
  rw [valid.positions_eq, List.zipIdx_map_fst]
  exact valid.nodup

/-- An arena as a map: under an id it holds the block of the list that was added last, and the ids
stand in the order in which they were first added. Every position kept is that of the block with
the id, so that no look-up leaves the array. -/
structure Records (arena : Arena) (blocks : List Block) : Prop where
  position_block : ∀ entry ∈ arena.positions,
    ∃ block, arena.blocks[entry.2]? = some block ∧ block.id = entry.1
  nodup_positions : (arena.positions.map (·.1)).Nodup
  nodup_ids : arena.ids.Nodup
  get?_last : ∀ id, arena.get? id = .ok (blocks.findRev? (·.id = id))
  contains_last : ∀ id, arena.contains id = (blocks.findRev? (·.id = id)).isSome
  children_last : ∀ block, arena.childrenOf block =
    .ok (block.children.filterMap fun id => blocks.findRev? (·.id = id))
  ids_eq : arena.ids = (blocks.map (·.id)).eraseDups
  blocks_eq : arena.blocks.toList.map some =
    (blocks.map (·.id)).eraseDups.map fun id => blocks.findRev? (·.id = id)
  size_eq : arena.size = (blocks.map (·.id)).toFinset.card
  forest_eq : arena.forest = Forest.ofList blocks

/-- Blocks that are added one after the other, under any ids, make an arena that records them. It
holds the forest that they make. -/
theorem ofList_records (blocks : List Block) :
    ∃ arena, ofList blocks = .ok arena ∧ arena.Records blocks := by
  obtain ⟨arena, run, valid, forest_eq⟩ := exists_foldlM_insert blocks valid_empty
  have forest_eq : arena.forest = Forest.ofList blocks := forest_eq
  have ids_eq : arena.ids = (blocks.map (·.id)).eraseDups := by
    rw [← Forest.ids_ofList, ← forest_eq]
    rfl
  have found (id : BlockId) : arena.forest.get? id = blocks.findRev? (·.id = id) := by
    rw [forest_eq, Forest.get?_ofList]
  refine ⟨arena, run, ?_⟩
  exact
    { position_block := fun entry => exists_block_of_mem_positions valid
      nodup_positions := nodup_positions valid
      nodup_ids := valid.nodup
      get?_last := fun id => by rw [get?_eq valid, found]
      contains_last := fun id => by rw [contains_eq valid, found]
      children_last := fun block => by rw [childrenOf_eq valid, Forest.childrenOf, funext found]
      ids_eq
      blocks_eq := by
        rw [← ids_eq, ← funext found]
        exact (Forest.map_get?_ids valid.nodup).symm
      size_eq := by
        calc arena.size = arena.ids.length := by simp [size, ids]
          _ = arena.ids.toFinset.card := (List.toFinset_card_of_nodup valid.nodup).symm
          _ = (blocks.map (·.id)).toFinset.card := by
              congr 1
              ext id
              rw [ids_eq, List.mem_toFinset, List.mem_toFinset, List.mem_eraseDups]
      forest_eq }

example :
    ofList [⟨"a", .bare .view, []⟩, ⟨"b", .bare .divider, []⟩, ⟨"a", .bare .view, ["b"]⟩] =
      .ok { blocks := #[⟨"a", .bare .view, ["b"]⟩, ⟨"b", .bare .divider, []⟩]
            positions := [("a", 0), ("b", 1)] } := by
  rfl

end Arena

end Blockmark
