import Mathlib.Data.List.Chain
import Mathlib.Logic.Relation
import Blockmark.Proofs.Forest.Insertion

/-!
# Parents and children

A forest is well formed over its roots when it is made of trees: every id that is listed exists,
every block is listed once over the roots and all lists of children, and children come before
their parents. Then no block stands below itself. How far a forest goes down below a block is
bounded by `Within`, which bounds every chain of blocks that starts there.

Main statements: `acyclic_of_childrenFirst` and `length_le_of_within`.
-/

namespace Blockmark.Forest

def listed (forest : Forest) (roots : List BlockId) : List BlockId :=
  roots ++ forest.blocks.flatMap (·.children)

def Lists (forest : Forest) (parent child : BlockId) : Prop :=
  ∃ block, forest.get? parent = some block ∧ child ∈ block.children

def ChildrenFirst (blocks : List Block) : Prop :=
  ∀ before block after, blocks = before ++ block :: after →
    ∀ child ∈ block.children, child ∈ before.map (·.id)

/-- Trees over the given roots, children before their parents. -/
structure WellFormed (forest : Forest) (roots : List BlockId) : Prop where
  nodup_ids : forest.ids.Nodup
  contains_of_listed : ∀ id ∈ forest.listed roots, forest.contains id = true
  listed_once : ∀ block ∈ forest.blocks, (forest.listed roots).count block.id = 1
  childrenFirst : ChildrenFirst forest.blocks
  acyclic : ∀ id, ¬ Relation.TransGen forest.Lists id id

/-- At most `levels` blocks stand one below the other from a block on down. -/
inductive Within (forest : Forest) : Nat → BlockId → Prop
  | block {levels : Nat} {id : BlockId} {block : Block} (found : forest.get? id = some block)
      (below : ∀ child ∈ block.children, Within forest levels child) :
      Within forest (levels + 1) id

theorem childrenFirst_nil : ChildrenFirst [] := by
  intro before block after eq
  simp at eq

theorem ChildrenFirst.append_of {blocks more : List Block} (first : ChildrenFirst blocks)
    (rest : ∀ before block after, more = before ++ block :: after →
      ∀ child ∈ block.children, child ∈ blocks.map (·.id) ∨ child ∈ before.map (·.id)) :
    ChildrenFirst (blocks ++ more) := by
  intro before block after split child mem
  rcases List.append_eq_append_iff.1 split with ⟨between, rfl, eq⟩ | ⟨between, rfl, eq⟩
  · rw [List.map_append, List.mem_append]
    exact rest between block after eq child mem
  · cases between with
    | nil =>
        rw [List.append_nil] at rest
        simpa using rest [] block after eq.symm child mem
    | cons other between =>
        obtain ⟨rfl, rfl⟩ := List.cons.inj eq
        exact first before block between rfl child mem

theorem ChildrenFirst.append {blocks more : List Block} (first : ChildrenFirst blocks)
    (rest : ChildrenFirst more) : ChildrenFirst (blocks ++ more) :=
  first.append_of fun before block after split child mem =>
    Or.inr (rest before block after split child mem)

theorem ChildrenFirst.concat {blocks : List Block} {block : Block} (first : ChildrenFirst blocks)
    (children : ∀ child ∈ block.children, child ∈ blocks.map (·.id)) :
    ChildrenFirst (blocks ++ [block]) := by
  refine first.append_of fun before other after split child mem => Or.inl ?_
  rw [List.singleton_eq_append_iff] at split
  rcases split with ⟨-, eq⟩ | ⟨-, eq⟩
  · obtain ⟨rfl, -⟩ := List.cons.inj eq
    exact children child mem
  · simp at eq

theorem acyclic_of_childrenFirst {forest : Forest} (nodup : forest.ids.Nodup)
    (first : ChildrenFirst forest.blocks) (id : BlockId) :
    ¬ Relation.TransGen forest.Lists id id := by
  have step : ∀ parent child, forest.Lists parent child →
      forest.ids.idxOf child < forest.ids.idxOf parent := by
    rintro parent child ⟨block, found, mem⟩
    obtain ⟨before, after, split⟩ := List.append_of_mem (mem_of_get? found)
    have earlier := first before block after split child mem
    have ids : forest.ids = before.map (·.id) ++ parent :: after.map (·.id) := by
      rw [ids, split, List.map_append, List.map_cons, id_of_get? found]
    have absent : parent ∉ before.map (·.id) := by
      rw [ids] at nodup
      exact fun there => (List.nodup_append.1 nodup).2.2 _ there _ (List.mem_cons_self ..) rfl
    rw [ids, List.idxOf_append_of_mem earlier, List.idxOf_append_of_notMem absent,
      List.idxOf_cons_self]
    simpa using List.idxOf_lt_length_of_mem earlier
  have path : ∀ parent child, Relation.TransGen forest.Lists parent child →
      forest.ids.idxOf child < forest.ids.idxOf parent := by
    intro parent child below
    induction below with
    | single lists => exact step _ _ lists
    | tail _ lists ih => exact (step _ _ lists).trans ih
  exact fun below => lt_irrefl _ (path id id below)

theorem length_le_of_within {forest : Forest} {levels : Nat} {id : BlockId}
    (within : forest.Within levels id) {path : List BlockId}
    (chain : (id :: path).IsChain forest.Lists) : (id :: path).length ≤ levels := by
  induction within generalizing path with
  | @block levels id block found below ih =>
      cases path with
      | nil => simp
      | cons child path =>
          rw [List.isChain_cons_cons] at chain
          obtain ⟨⟨parent, found', mem⟩, chain⟩ := chain
          rw [found] at found'
          cases found'
          exact Nat.succ_le_succ (ih child mem chain)

theorem Within.mono {forest : Forest} {levels more : Nat} {id : BlockId}
    (within : forest.Within levels id) (le : levels ≤ more) : forest.Within more id := by
  induction within generalizing more with
  | block found below ih =>
      cases more with
      | zero => omega
      | succ more => exact .block found fun child mem => ih child mem (Nat.le_of_succ_le_succ le)

end Blockmark.Forest
