import Mathlib.Data.List.Induction
import Blockmark.Forest

/-!
# Building forests

What becomes of blocks that are added one after the other. Every id stands in a forest once, so
adding the blocks of a forest again gives that forest; blocks with ids of their own are all kept
in their order, and none of them takes the place of another.

Main statements: `nodup_ids_ofList`, `blocks_ofList`, `ofList_blocks`, and `get?_ofList` with
`ids_ofList`, which say what stands in a forest after any number of insertions.
-/

namespace Blockmark.Forest

theorem insert_eq_append {forest : Forest} {block : Block} (fresh : block.id ∉ forest.ids) :
    forest.insert block = ⟨forest.blocks ++ [block]⟩ := by
  obtain ⟨blocks⟩ := forest
  simp only [insert, mk.injEq]
  induction blocks with
  | nil => rfl
  | cons other blocks ih =>
      simp only [ids, List.map_cons, List.mem_cons, not_or] at fresh
      rw [put, if_neg (Ne.symm fresh.1), ih fresh.2]
      rfl

theorem nodup_ids_insert {forest : Forest} (block : Block) (nodup : forest.ids.Nodup) :
    (forest.insert block).ids.Nodup := by
  rw [ids_insert]
  split
  · exact nodup
  · next fresh => exact List.nodup_append.2 ⟨nodup, by simp, by grind⟩

theorem mem_blocks_insert {forest : Forest} {block other : Block}
    (mem : other ∈ (forest.insert block).blocks) : other = block ∨ other ∈ forest.blocks := by
  obtain ⟨blocks⟩ := forest
  simp only [insert] at mem ⊢
  induction blocks with
  | nil => exact Or.inl (by simpa [put] using mem)
  | cons first blocks ih =>
      unfold put at mem
      split at mem <;> simp only [List.mem_cons] at mem ⊢
      · exact mem.imp_right Or.inr
      · rcases mem with rfl | mem
        · exact Or.inr (Or.inl rfl)
        · exact (ih mem).imp_right Or.inr

theorem ofList_concat (blocks : List Block) (block : Block) :
    ofList (blocks ++ [block]) = (ofList blocks).insert block := by
  simp [ofList]

theorem nodup_ids_ofList (blocks : List Block) : (ofList blocks).ids.Nodup := by
  induction blocks using List.reverseRecOn with
  | nil => exact List.nodup_nil
  | append_singleton blocks block ih =>
      rw [ofList_concat]
      exact nodup_ids_insert block ih

theorem mem_of_mem_ofList {blocks : List Block} {block : Block}
    (mem : block ∈ (ofList blocks).blocks) : block ∈ blocks := by
  induction blocks using List.reverseRecOn with
  | nil => exact mem
  | append_singleton blocks last ih =>
      rw [ofList_concat] at mem
      rcases mem_blocks_insert mem with rfl | mem
      · simp
      · exact List.mem_append_left _ (ih mem)

theorem get?_ofList (blocks : List Block) (id : BlockId) :
    (ofList blocks).get? id = blocks.findRev? (·.id = id) := by
  induction blocks using List.reverseRecOn with
  | nil => rfl
  | append_singleton blocks block ih =>
      rw [ofList_concat, get?_insert, ih, List.findRev?_eq_find?_reverse,
        List.findRev?_eq_find?_reverse, List.reverse_append, List.reverse_singleton,
        List.singleton_append, List.find?_cons]
      by_cases same : block.id = id <;> simp [same]

theorem ids_ofList (blocks : List Block) :
    (ofList blocks).ids = (blocks.map (·.id)).eraseDups := by
  induction blocks using List.reverseRecOn with
  | nil => rfl
  | append_singleton blocks block ih =>
      rw [ofList_concat, ids_insert, ih, List.map_append, List.eraseDups_append]
      by_cases known : block.id ∈ blocks.map (·.id)
      · simp [known, List.cons_removeAll]
      · simp [known, List.cons_removeAll, List.eraseDups_cons]

theorem blocks_ofList {blocks : List Block} (nodup : (blocks.map (·.id)).Nodup) :
    (ofList blocks).blocks = blocks := by
  induction blocks using List.reverseRecOn with
  | nil => rfl
  | append_singleton blocks block ih =>
      rw [List.map_append, List.nodup_append] at nodup
      have kept := ih nodup.1
      have fresh : block.id ∉ (ofList blocks).ids := by
        rw [ids, kept]
        exact fun mem => nodup.2.2 _ mem _ (by simp) rfl
      rw [ofList_concat, insert_eq_append fresh, kept]

theorem ofList_blocks (forest : Forest) (nodup : forest.ids.Nodup) :
    ofList forest.blocks = forest := by
  obtain ⟨blocks⟩ := forest
  have kept := blocks_ofList nodup
  cases h : ofList blocks
  rw [h] at kept
  exact congrArg mk kept

theorem get?_eq_some {forest : Forest} (nodup : forest.ids.Nodup) {block : Block}
    (mem : block ∈ forest.blocks) : forest.get? block.id = some block := by
  obtain ⟨blocks⟩ := forest
  simp only [ids, get?] at nodup mem ⊢
  induction blocks with
  | nil => cases mem
  | cons first blocks ih =>
      rw [List.map_cons, List.nodup_cons] at nodup
      rcases List.mem_cons.1 mem with rfl | mem
      · simp
      · have other : first.id ≠ block.id := fun same =>
          nodup.1 (same ▸ List.mem_map_of_mem mem)
        rw [List.find?_cons_of_neg (by simpa using other)]
        exact ih nodup.2 mem

theorem id_of_get? {forest : Forest} {id : BlockId} {block : Block}
    (found : forest.get? id = some block) : block.id = id := by
  simpa using List.find?_some found

theorem mem_of_get? {forest : Forest} {id : BlockId} {block : Block}
    (found : forest.get? id = some block) : block ∈ forest.blocks :=
  List.mem_of_find?_eq_some found

theorem contains_iff {forest : Forest} {id : BlockId} :
    forest.contains id = true ↔ id ∈ forest.ids := by
  simp [contains, get?, ids]

end Blockmark.Forest
