import Mathlib.Data.List.Chain
import Mathlib.Data.List.Flatten
import Mathlib.Data.List.Nodup
import Mathlib.Data.List.Perm.Subperm
import Mathlib.Logic.Relation

/-!
# Unfolding a graph

What is met on the way down from some nodes, given by the nodes that each node leads to. An
unfolding stops after a number of levels, whether the graph ends there or not. In a tree no key is
met twice, and a bound for all chains of nodes is a level on which nothing is left.

Main statements: `Tree.nodup_unfold`, and `level_eq_nil_iff`, by which the levels of an unfolding
are the chains of their length.
-/

namespace Blockmark

universe u v

variable {α : Type u} {β γ : Type v}

/-- The nodes of some levels, every node before the nodes it leads to. -/
def unfold (next : α → List α) : Nat → List α → List α
  | 0, _ => []
  | levels + 1, tops => tops.flatMap fun top => top :: unfold next levels (next top)

/-- The nodes of one level. The nodes on top are level zero. -/
def level (next : α → List α) : Nat → List α → List α
  | 0, tops => tops
  | number + 1, tops => level next number (tops.flatMap next)

def Reaches (next : α → List α) (tops : List α) (node : α) : Prop :=
  ∃ top ∈ tops, Relation.ReflTransGen (fun above below => below ∈ next above) top node

/-- Taken together, the nodes on top and the nodes that any reachable nodes lead to hold no key
twice. -/
def Tree (next : α → List α) (key : α → β) (tops : List α) : Prop :=
  ∀ above : List α, (above.map key).Nodup → (∀ node ∈ above, Reaches next tops node) →
    ((tops ++ above.flatMap next).map key).Nodup

def ChainsWithin (next : α → List α) (length : Nat) (tops : List α) : Prop :=
  ∀ path : List α, path.IsChain (fun above below => below ∈ next above) →
    (∀ top ∈ path.head?, top ∈ tops) → path.length ≤ length

variable {next : α → List α} {tops more : List α}

theorem reaches_of_mem {node : α} (mem : node ∈ tops) : Reaches next tops node :=
  ⟨node, mem, .refl⟩

theorem Reaches.closed {Good : α → Prop} {node : α} (reaches : Reaches next tops node)
    (good : ∀ top ∈ tops, Good top) (closed : ∀ node, Good node → ∀ below ∈ next node, Good below) :
    Good node := by
  obtain ⟨top, isTop, path⟩ := reaches
  induction path with
  | refl => exact good top isTop
  | tail _ step ih => exact closed _ ih _ step

theorem Reaches.step {above below : α} (reaches : Reaches next tops above)
    (leads : below ∈ next above) : Reaches next tops below := by
  obtain ⟨top, isTop, path⟩ := reaches
  exact ⟨top, isTop, path.tail leads⟩

theorem Reaches.head {top node : α} (isTop : top ∈ tops) (below : Reaches next (next top) node) :
    Reaches next tops node := by
  obtain ⟨first, leads, path⟩ := below
  exact ⟨top, isTop, path.head leads⟩

/-! ## Unfoldings -/

@[simp] theorem unfold_nil (levels : Nat) : unfold next levels [] = [] := by
  cases levels <;> rfl

theorem unfold_cons (levels : Nat) (top : α) :
    unfold next (levels + 1) (top :: tops) =
      top :: unfold next levels (next top) ++ unfold next (levels + 1) tops :=
  List.flatMap_cons

theorem unfold_append (levels : Nat) :
    unfold next levels (tops ++ more) = unfold next levels tops ++ unfold next levels more := by
  cases levels with
  | zero => rfl
  | succ levels => exact List.flatMap_append

theorem mem_unfold_of_mem {levels : Nat} {node : α} (mem : node ∈ tops) :
    node ∈ unfold next (levels + 1) tops :=
  List.mem_flatMap.2 ⟨node, mem, List.mem_cons_self⟩

theorem mem_unfold_below {levels : Nat} {top node : α} (mem : top ∈ tops)
    (below : node ∈ unfold next levels (next top)) : node ∈ unfold next (levels + 1) tops :=
  List.mem_flatMap.2 ⟨top, mem, List.mem_cons_of_mem _ below⟩

theorem unfold_succ_perm (levels : Nat) (tops : List α) :
    (unfold next (levels + 1) tops).Perm (tops ++ (unfold next levels tops).flatMap next) := by
  induction levels generalizing tops with
  | zero => simp [unfold]
  | succ levels ih =>
      have inner : (unfold next (levels + 2) tops).Perm (tops.flatMap fun top =>
          top :: (next top ++ (unfold next levels (next top)).flatMap next)) :=
        List.Perm.flatMap_left tops fun top _ => (ih (next top)).cons top
      have apart : (tops.flatMap fun top =>
          top :: (next top ++ (unfold next levels (next top)).flatMap next)).Perm
          (tops ++ tops.flatMap fun top =>
            next top ++ (unfold next levels (next top)).flatMap next) := by
        have split := List.flatMap_append_perm tops (fun top => [top]) fun top =>
          next top ++ (unfold next levels (next top)).flatMap next
        simpa using split.symm
      have below : (tops.flatMap fun top =>
          next top ++ (unfold next levels (next top)).flatMap next) =
          (unfold next (levels + 1) tops).flatMap next := by
        rw [unfold, List.flatMap_assoc]
        exact List.flatMap_congr fun top _ => List.flatMap_cons.symm
      exact below ▸ inner.trans apart

theorem reaches_of_mem_unfold {levels : Nat} {node : α} (mem : node ∈ unfold next levels tops) :
    Reaches next tops node := by
  induction levels generalizing tops with
  | zero => cases mem
  | succ levels ih =>
      obtain ⟨top, isTop, mem⟩ := List.mem_flatMap.1 mem
      rcases List.mem_cons.1 mem with rfl | mem
      · exact reaches_of_mem isTop
      · obtain ⟨child, isChild, path⟩ := ih mem
        exact ⟨top, isTop, .head isChild path⟩

theorem Tree.nodup_unfold {key : α → β} (tree : Tree next key tops) (levels : Nat) :
    ((unfold next levels tops).map key).Nodup := by
  induction levels with
  | zero => exact List.nodup_nil
  | succ levels ih =>
      -- The nodes of one level less are distinct and reachable, and the rest is what they lead to.
      rw [((unfold_succ_perm levels tops).map key).nodup_iff]
      exact tree _ ih fun node mem => reaches_of_mem_unfold mem

theorem unfold_sublist {narrow : α → List α} (sub : ∀ node, (narrow node).Sublist (next node))
    {part whole : List α} (tops : part.Sublist whole) (levels : Nat) :
    (unfold narrow levels part).Sublist (unfold next levels whole) := by
  induction levels generalizing part whole with
  | zero => exact .slnil
  | succ levels ih =>
      exact (List.Sublist.flatMap_right part fun top _ => (ih (sub top)).cons_cons top).trans
        (tops.flatMap _)

theorem unfold_succ_sublist (levels : Nat) (tops : List α) :
    (unfold next levels tops).Sublist (unfold next (levels + 1) tops) := by
  induction levels generalizing tops with
  | zero => exact List.nil_sublist _
  | succ levels ih => exact List.Sublist.flatMap_right tops fun top _ => (ih _).cons_cons top

theorem unfold_mono {levels more : Nat} (le : levels ≤ more) (tops : List α) :
    (unfold next levels tops).Sublist (unfold next more tops) := by
  induction le with
  | refl => exact .refl _
  | step _ ih => exact ih.trans (unfold_succ_sublist _ tops)

theorem unfold_of_mem_unfold {levels : Nat} {node : α} (mem : node ∈ unfold next levels tops)
    (more : Nat) : (unfold next more [node]).Sublist (unfold next (levels + more) tops) := by
  induction levels generalizing tops with
  | zero => cases mem
  | succ levels ih =>
      obtain ⟨top, isTop, mem⟩ := List.mem_flatMap.1 mem
      refine List.Sublist.trans ?_
        (unfold_sublist (fun _ => .refl _) (List.singleton_sublist.2 isTop) _)
      rcases List.mem_cons.1 mem with rfl | mem
      · exact unfold_mono (by omega) _
      · rw [Nat.add_right_comm, unfold_cons, unfold_nil, List.append_nil]
        exact (ih mem).trans (List.sublist_cons_self _ _)

/-! ## Remembering what was met -/

def Fresh (next : α → List α) (key : α → β) (levels : Nat) (tops : List α) (seen : List β) : Prop :=
  ((unfold next levels tops).map key).Nodup ∧ ∀ node ∈ unfold next levels tops, key node ∉ seen

def Adds (next : α → List α) (key : α → β) (levels : Nat) (tops : List α)
    (before after : List β) : Prop :=
  ∀ seen ∈ after, seen ∈ before ∨ ∃ node ∈ unfold next levels tops, key node = seen

section

variable {key : α → β} {levels : Nat} {top : α} {before between after seen : List β}

theorem Tree.fresh (tree : Tree next key tops) (levels : Nat) : Fresh next key levels tops [] :=
  ⟨tree.nodup_unfold levels, fun _ _ => List.not_mem_nil⟩

theorem adds_nil (seen : List β) : Adds next key levels [] seen seen :=
  fun _ mem => .inl mem

theorem Adds.append (first : Adds next key levels tops before between)
    (second : Adds next key levels more between after) :
    Adds next key levels (tops ++ more) before after := by
  intro seen mem
  rw [unfold_append]
  rcases second seen mem with mem | ⟨node, mem, eq⟩
  · rcases first seen mem with mem | ⟨node, mem, eq⟩
    · exact .inl mem
    · exact .inr ⟨node, List.mem_append_left _ mem, eq⟩
  · exact .inr ⟨node, List.mem_append_right _ mem, eq⟩

theorem Adds.above (inner : Adds next key levels (next top) between after)
    (own : ∀ seen ∈ between, seen ∈ before ∨ key top = seen) :
    Adds next key (levels + 1) [top] before after := by
  intro seen mem
  rw [unfold_cons, unfold_nil, List.append_nil]
  rcases inner seen mem with mem | ⟨node, mem, eq⟩
  · exact (own seen mem).imp_right fun eq => ⟨top, List.mem_cons_self, eq⟩
  · exact .inr ⟨node, List.mem_cons_of_mem _ mem, eq⟩

theorem Fresh.left (fresh : Fresh next key levels (tops ++ more) seen) :
    Fresh next key levels tops seen := by
  unfold Fresh at fresh
  rw [unfold_append, List.map_append, List.nodup_append] at fresh
  exact ⟨fresh.1.1, fun node mem => fresh.2 node (List.mem_append_left _ mem)⟩

theorem Fresh.right (fresh : Fresh next key levels (tops ++ more) before)
    (adds : Adds next key levels tops before after) : Fresh next key levels more after := by
  unfold Fresh at fresh
  rw [unfold_append, List.map_append, List.nodup_append] at fresh
  refine ⟨fresh.1.2.1, fun node mem seen => ?_⟩
  rcases adds _ seen with seen | ⟨other, inside, eq⟩
  · exact fresh.2 node (List.mem_append_right _ mem) seen
  · exact fresh.1.2.2 _ (List.mem_map_of_mem inside) _ (List.mem_map_of_mem mem) eq

theorem Fresh.key_notMem (fresh : Fresh next key (levels + 1) [top] seen) : key top ∉ seen :=
  fresh.2 top (mem_unfold_of_mem (List.mem_singleton.2 rfl))

theorem Fresh.below (fresh : Fresh next key (levels + 1) [top] seen) :
    Fresh next key levels (next top) (key top :: seen) := by
  unfold Fresh at fresh
  rw [unfold_cons, unfold_nil, List.append_nil, List.map_cons, List.nodup_cons] at fresh
  refine ⟨fresh.1.2, fun node mem seen => ?_⟩
  rcases List.mem_cons.1 seen with same | seen
  · exact fresh.1.1 (same ▸ List.mem_map_of_mem mem)
  · exact fresh.2 node (List.mem_cons_of_mem _ mem) seen

theorem Fresh.mono {fewer : List β} (fresh : Fresh next key levels tops seen)
    (sub : fewer ⊆ seen) : Fresh next key levels tops fewer :=
  ⟨fresh.1, fun node mem known => fresh.2 node mem (sub known)⟩

end

/-! ## Levels -/

theorem level_append (number : Nat) :
    level next number (tops ++ more) = level next number tops ++ level next number more := by
  induction number generalizing tops more with
  | zero => rfl
  | succ number ih => rw [level, List.flatMap_append, ih, level, level]

@[simp] theorem level_nil (number : Nat) : level next number [] = [] := by
  induction number with
  | zero => rfl
  | succ number ih => exact ih

theorem level_cons_succ (number : Nat) (top : α) :
    level next (number + 1) (top :: tops) =
      level next number (next top) ++ level next (number + 1) tops := by
  rw [level, List.flatMap_cons, level_append]
  rfl

theorem level_below_eq_nil {number : Nat} (empty : level next (number + 1) tops = []) {top : α}
    (mem : top ∈ tops) : level next number (next top) = [] := by
  obtain ⟨before, after, rfl⟩ := List.append_of_mem mem
  rw [level_append, List.append_eq_nil_iff, level_cons_succ, List.append_eq_nil_iff] at empty
  exact empty.2.1

theorem level_succ_eq_nil {number : Nat} {tops : List α} (empty : level next number tops = []) :
    level next (number + 1) tops = [] := by
  induction number generalizing tops with
  | zero =>
      obtain rfl : tops = [] := empty
      rfl
  | succ number ih => exact ih empty

theorem level_of_mem_unfold {levels number : Nat} {node : α}
    (mem : node ∈ unfold next levels tops) (empty : level next (number + 1) tops = []) :
    level next number (next node) = [] := by
  induction levels generalizing tops with
  | zero => cases mem
  | succ levels ih =>
      obtain ⟨top, isTop, mem⟩ := List.mem_flatMap.1 mem
      have below := level_below_eq_nil empty isTop
      rcases List.mem_cons.1 mem with rfl | mem
      · exact below
      · exact ih mem (level_succ_eq_nil below)

theorem level_succ_eq_flatMap (number : Nat) (tops : List α) :
    level next (number + 1) tops = (level next number tops).flatMap next := by
  induction number generalizing tops with
  | zero => rfl
  | succ number ih => exact ih (tops.flatMap next)

theorem unfold_succ_perm_level (levels : Nat) (tops : List α) :
    (unfold next (levels + 1) tops).Perm (unfold next levels tops ++ level next levels tops) := by
  induction levels with
  | zero => simp [unfold, level]
  | succ levels ih =>
      have below : (unfold next (levels + 2) tops).Perm
          (tops ++ ((unfold next levels tops).flatMap next ++ level next (levels + 1) tops)) := by
        rw [level_succ_eq_flatMap, ← List.flatMap_append]
        exact (unfold_succ_perm _ tops).trans ((ih.flatMap_right next).append_left tops)
      rw [← List.append_assoc] at below
      exact below.trans ((unfold_succ_perm levels tops).symm.append_right _)

theorem Tree.notMem_unfold {key : α → β} (tree : Tree next key tops) {levels : Nat} {node : α}
    (mem : node ∈ level next levels tops) : key node ∉ (unfold next levels tops).map key := by
  have distinct := tree.nodup_unfold (levels + 1)
  rw [((unfold_succ_perm_level levels tops).map key).nodup_iff, List.map_append,
    List.nodup_append] at distinct
  exact fun above => distinct.2.2 _ above _ (List.mem_map_of_mem mem) rfl

theorem reaches_of_mem_level {number : Nat} {node : α} (mem : node ∈ level next number tops) :
    Reaches next tops node :=
  reaches_of_mem_unfold
    ((unfold_succ_perm_level number tops).mem_iff.2 (List.mem_append_right _ mem))

theorem mem_level_iff {number : Nat} {node : α} :
    node ∈ level next number tops ↔ ∃ path : List α,
      path.IsChain (fun above below => below ∈ next above) ∧ (∀ top ∈ path.head?, top ∈ tops) ∧
        path.length = number + 1 ∧ path.getLast? = some node := by
  induction number generalizing tops with
  | zero =>
      constructor
      · intro mem
        exact ⟨[node], .singleton _, by simpa [level] using mem, rfl, rfl⟩
      · rintro ⟨path, -, isTop, length, last⟩
        obtain ⟨only, rfl⟩ := List.length_eq_one_iff.1 length
        obtain rfl : only = node := by simpa using last
        exact isTop _ rfl
  | succ number ih =>
      rw [level, ih]
      constructor
      · rintro ⟨path, chain, isTop, length, last⟩
        obtain ⟨first, path, rfl⟩ := List.exists_cons_of_length_eq_add_one length
        obtain ⟨top, mem, step⟩ := List.mem_flatMap.1 (isTop first rfl)
        exact ⟨top :: first :: path, List.isChain_cons_cons.2 ⟨step, chain⟩, by simpa using mem,
          by simpa using length, by simpa using last⟩
      · rintro ⟨path, chain, isTop, length, last⟩
        obtain ⟨top, path, rfl⟩ := List.exists_cons_of_length_eq_add_one length
        obtain ⟨first, path, rfl⟩ := List.exists_cons_of_length_eq_add_one
          (Nat.succ.inj (List.length_cons ▸ length))
        obtain ⟨step, chain⟩ := List.isChain_cons_cons.1 chain
        refine ⟨first :: path, chain, ?_, Nat.succ.inj length, by simpa using last⟩
        intro other isFirst
        obtain rfl : first = other := by simpa using isFirst
        exact List.mem_flatMap.2 ⟨top, isTop top rfl, step⟩

theorem level_eq_nil_iff {number : Nat} :
    level next number tops = [] ↔ ChainsWithin next number tops := by
  constructor
  · intro empty path chain isTop
    -- The first `number + 1` nodes of a longer chain would end on the level.
    by_contra long
    have start : (path.take (number + 1)).length = number + 1 := by
      rw [List.length_take]
      omega
    have nonempty : path.take (number + 1) ≠ [] := List.ne_nil_of_length_eq_add_one start
    have first : (path.take (number + 1)).head? = path.head? := by simp [List.head?_take]
    have mem : (path.take (number + 1)).getLast nonempty ∈ level next number tops :=
      mem_level_iff.2 ⟨path.take (number + 1), chain.prefix (List.take_prefix _ _),
        by rwa [first], start, List.getLast?_eq_some_getLast nonempty⟩
    rw [empty] at mem
    cases mem
  · intro bound
    rw [List.eq_nil_iff_forall_not_mem]
    intro node mem
    obtain ⟨path, chain, isTop, length, -⟩ := mem_level_iff.1 mem
    have := bound path chain isTop
    omega

theorem map_level {image : α → γ} {other : γ → List γ} {Good : α → Prop}
    (step : ∀ node, Good node → (next node).map image = other (image node))
    (closed : ∀ node, Good node → ∀ below ∈ next node, Good below) (number : Nat)
    (good : ∀ top ∈ tops, Good top) :
    (level next number tops).map image = level other number (tops.map image) := by
  induction number generalizing tops with
  | zero => rfl
  | succ number ih =>
      have below : ∀ node ∈ tops.flatMap next, Good node := by
        intro node mem
        obtain ⟨top, isTop, mem⟩ := List.mem_flatMap.1 mem
        exact closed top (good top isTop) node mem
      rw [level, level, ih below, List.map_flatMap, List.flatMap_map]
      exact congrArg _ (List.flatMap_congr fun top mem => step top (good top mem))

theorem map_unfold {image : α → γ} {other : γ → List γ} {Good : α → Prop}
    (step : ∀ node, Good node → (next node).map image = other (image node))
    (closed : ∀ node, Good node → ∀ below ∈ next node, Good below) (levels : Nat)
    (good : ∀ top ∈ tops, Good top) :
    (unfold next levels tops).map image = unfold other levels (tops.map image) := by
  induction levels generalizing tops with
  | zero => rfl
  | succ levels ih =>
      rw [unfold, unfold, List.map_flatMap, List.flatMap_map]
      refine List.flatMap_congr fun top mem => ?_
      rw [List.map_cons, ih (closed top (good top mem)), step top (good top mem)]

theorem mem_unfold_of_reaches {levels : Nat} (empty : level next levels tops = []) {node : α}
    (reaches : Reaches next tops node) : node ∈ unfold next levels tops := by
  obtain ⟨top, isTop, path⟩ := reaches
  induction path using Relation.ReflTransGen.head_induction_on generalizing levels tops with
  | refl =>
      cases levels with
      | zero => exact absurd isTop (List.eq_nil_iff_forall_not_mem.1 empty _)
      | succ levels => exact mem_unfold_of_mem isTop
  | head step _ ih =>
      cases levels with
      | zero => exact absurd isTop (List.eq_nil_iff_forall_not_mem.1 empty _)
      | succ levels => exact mem_unfold_below isTop (ih (level_below_eq_nil empty isTop) step)

theorem level_sublist {narrow : α → List α} (sub : ∀ node, (narrow node).Sublist (next node))
    {part whole : List α} (tops : part.Sublist whole) (number : Nat) :
    (level narrow number part).Sublist (level next number whole) := by
  induction number generalizing part whole with
  | zero => exact tops
  | succ number ih =>
      exact ih ((List.Sublist.flatMap_right part fun top _ => sub top).trans (tops.flatMap next))

theorem Reaches.widen {narrow : α → List α} (sub : ∀ node, narrow node ⊆ next node) {node : α}
    (reaches : Reaches narrow tops node) : Reaches next tops node := by
  obtain ⟨top, isTop, path⟩ := reaches
  exact ⟨top, isTop, Relation.ReflTransGen.mono (fun above _ mem => sub above mem) _ _ path⟩

theorem Tree.narrow {key : α → β} (tree : Tree next key tops) {narrow : α → List α}
    (sub : ∀ node, (narrow node).Sublist (next node)) : Tree narrow key tops := by
  intro above distinct reached
  refine List.Nodup.sublist ?_ (tree above distinct fun node mem =>
    (reached node mem).widen fun node => (sub node).subset)
  exact ((List.Sublist.flatMap_right above fun node _ => sub node).append_left tops).map key

theorem subperm_flatMap {nodes all : List α} (distinct : nodes.Nodup)
    (known : nodes ⊆ all) (f : α → List γ) : (nodes.flatMap f).Subperm (all.flatMap f) := by
  obtain ⟨same, perm, sub⟩ := distinct.subperm known
  exact ⟨same.flatMap f, perm.flatMap_right f, sub.flatMap f⟩

theorem tree_of_closed {key : α → β} (all : List α) (inside : tops ⊆ all)
    (closed : ∀ node ∈ all, next node ⊆ all)
    (once : ((tops ++ all.flatMap next).map key).Nodup) : Tree next key tops := by
  intro above distinct reached
  have known : above ⊆ all := fun node mem =>
    (reached node mem).closed inside closed
  obtain ⟨part, perm, sub⟩ := subperm_flatMap distinct.of_map known next
  refine (((perm.append_left tops).map key).nodup_iff).1 (List.Nodup.sublist ?_ once)
  exact (sub.append_left tops).map key

end Blockmark
