import Blockmark.Proofs.Render.Meeting
import Blockmark.Proofs.Render.Shown

/-!
# Outlines

The outline is what a planner plans if it does not remember what it has shown: a block has a part
wherever it is met.

Main statements: `occurs_outline` and `entry_of_occurs`, by which the blocks of an outline are the
blocks that are met on its levels.
-/

namespace Blockmark.Render

def outlineSiblings (forest : Forest) (below : Walk → List Shown) (before : Nat) :
    List BlockId → List Shown
  | [] => []
  | id :: ids =>
    match forest.get? id with
    | none => outlineSiblings forest below before ids
    | some block =>
      let ordinal := ordinalBehind before block.kind
      .own block ordinal (below (.below block)) :: outlineSiblings forest below ordinal ids

def outlineColumns (forest : Forest) (below : Walk → List Shown) (ids : List BlockId) :
    List Shown :=
  (ids.filterMap (column? forest)).map fun column =>
    .passage column (below (.siblings 0 column.children))

def outlineCell (forest : Forest) (below : Walk → List Shown) (cell : Option BlockId) : Shown :=
  match cell.bind forest.get? with
  | none => .gap
  | some block =>
    if block.children.isEmpty then .own block 0 (below (.below block))
    else .passage block (below (.siblings 0 block.children))

def outlineWalk (forest : Forest) (below : Walk → List Shown) : Walk → List Shown
  | .siblings before ids => outlineSiblings forest below before ids
  | .columns ids => outlineColumns forest below ids
  | .cells cells => cells.map (outlineCell forest below)

/-- What is shown on some levels if no block is passed over. -/
def outline (forest : Forest) (levels : Nat) (walk : Walk) : List Shown :=
  match levels, walk with
  | 0, .siblings _ _ | 0, .columns _ => []
  | 0, .cells cells => cells.map fun _ => .gap
  | levels + 1, walk => outlineWalk forest (outline forest levels) walk

variable {forest : Forest}

theorem part_of_entry (sub : Walk → List Shown) {way : Walk} {entry : Entry}
    (mem : entry ∈ way.entries forest) {block : Block}
    (found : forest.get? entry.id = some block) :
    ∃ shown ∈ outlineWalk forest sub way,
      shown.block? = some block ∧ shown.parts = sub (.at entry.spot block) := by
  cases way with
  | siblings before ids =>
      obtain ⟨spot, listed, -⟩ := Forest.mem_entries.1 mem
      rw [spot]
      clear mem
      induction ids generalizing before with
      | nil => cases listed
      | cons id ids ih =>
          rw [outlineWalk, outlineSiblings]
          rcases List.mem_cons.1 listed with rfl | listed
          · rw [found]
            exact ⟨_, List.mem_cons_self, rfl, rfl⟩
          · cases forest.get? id with
            | none => exact ih before listed
            | some other =>
                obtain ⟨shown, mem, same⟩ := ih (ordinalBehind before other.kind) listed
                exact ⟨shown, List.mem_cons_of_mem _ mem, same⟩
  | columns ids =>
      obtain ⟨spot, listed, -⟩ := Forest.mem_entries.1 mem
      obtain ⟨inside, isColumn⟩ := List.mem_filter.1 listed
      obtain ⟨column, isColumn⟩ := Option.isSome_iff_exists.1 isColumn
      obtain ⟨same, isGridColumn⟩ := column?_eq_some.1 isColumn
      obtain rfl : block = column := Option.some.inj (found.symm.trans same)
      refine ⟨_, List.mem_map_of_mem (List.mem_filterMap.2 ⟨_, inside, isColumn⟩), rfl, ?_⟩
      rw [spot, Walk.at, walk_below_column isGridColumn]
      rfl
  | cells slots =>
      obtain ⟨spot, listed, -⟩ := Forest.mem_entries.1 mem
      have inside : some entry.id ∈ slots := by simpa using listed
      refine ⟨_, List.mem_map_of_mem inside, ?_⟩
      rw [spot, outlineCell, Option.bind_some, found, Walk.at]
      dsimp only
      split <;> exact ⟨rfl, rfl⟩

theorem occurs_outline {levels : Nat} (way : Walk) {entry : Entry}
    (mem : entry ∈ unfold (meets forest) levels (way.entries forest)) {block : Block}
    (found : forest.get? entry.id = some block) :
    ∃ shown, Occurs (outline forest levels way) shown ∧ shown.block? = some block := by
  induction levels generalizing way with
  | zero => cases mem
  | succ levels ih =>
      obtain ⟨top, isTop, mem⟩ := List.mem_flatMap.1 mem
      rcases List.mem_cons.1 mem with rfl | mem
      · obtain ⟨shown, there, same, -⟩ := part_of_entry (outline forest levels) isTop found
        exact ⟨shown, .top there, same⟩
      · cases above : forest.get? top.id with
        | none => simp [meets, above] at mem
        | some parent =>
            obtain ⟨part, there, -, parts⟩ := part_of_entry (outline forest levels) isTop above
            rw [meets_eq above] at mem
            obtain ⟨shown, occurs, same⟩ := ih _ mem
            exact ⟨shown, (parts ▸ occurs).of_parts there, same⟩

theorem entry_of_part {sub : Walk → List Shown} {way : Walk} {shown : Shown}
    (mem : shown ∈ outlineWalk forest sub way) {block : Block}
    (isBlock : shown.block? = some block) :
    ∃ entry ∈ way.entries forest, forest.get? entry.id = some block ∧
      shown.parts = sub (.at entry.spot block) := by
  cases way with
  | siblings before ids =>
      rw [outlineWalk] at mem
      induction ids generalizing before with
      | nil => cases mem
      | cons id ids ih =>
          rw [outlineSiblings] at mem
          cases found : forest.get? id with
          | none =>
              rw [found] at mem
              rw [Walk.entries, Forest.entries_cons_missing found]
              exact ih before mem
          | some other =>
              rw [found] at mem
              rw [Walk.entries, Forest.entries_cons_found found]
              rcases List.mem_cons.1 mem with rfl | mem
              · obtain rfl := Option.some.inj isBlock
                exact ⟨_, List.mem_cons_self, found, rfl⟩
              · obtain ⟨entry, there, same⟩ := ih _ mem
                exact ⟨entry, List.mem_cons_of_mem _ there, same⟩
  | columns ids =>
      obtain ⟨column, among, rfl⟩ := List.mem_map.1 mem
      obtain ⟨id, inside, isColumn⟩ := List.mem_filterMap.1 among
      obtain ⟨found, isGridColumn⟩ := column?_eq_some.1 isColumn
      obtain rfl := Option.some.inj isBlock
      refine ⟨⟨.sibling, id⟩, Forest.mem_entries.2 ⟨rfl, ?_, ?_⟩, found, ?_⟩
      · exact List.mem_filter.2 ⟨inside, by rw [isColumn]; rfl⟩
      · simp [Forest.contains, found]
      · rw [Walk.at, walk_below_column isGridColumn]
        rfl
  | cells slots =>
      obtain ⟨slot, inside, rfl⟩ := List.mem_map.1 mem
      unfold outlineCell at isBlock ⊢
      cases slotted : slot.bind forest.get? with
      | none =>
          rw [slotted] at isBlock
          cases isBlock
      | some cell =>
          obtain ⟨id, rfl, found⟩ := Option.bind_eq_some_iff.1 slotted
          have there : (⟨.cell, id⟩ : Entry) ∈ (Walk.cells slots).entries forest :=
            Forest.mem_entries.2 ⟨rfl, by simpa using inside, by simp [Forest.contains, found]⟩
          rw [slotted] at isBlock
          dsimp only at isBlock ⊢
          refine ⟨⟨.cell, id⟩, there, ?_⟩
          rw [Walk.at]
          split
          · next childless =>
            rw [if_pos childless] at isBlock
            obtain rfl := Option.some.inj isBlock
            exact ⟨found, by rw [if_pos childless]; rfl⟩
          · next inhabited =>
            rw [if_neg inhabited] at isBlock
            obtain rfl := Option.some.inj isBlock
            exact ⟨found, by rw [if_neg inhabited]; rfl⟩

theorem Occurs.in_top {plan : List Shown} {shown : Shown} (occurs : Occurs plan shown) :
    shown ∈ plan ∨ ∃ top ∈ plan, Occurs top.parts shown := by
  induction occurs with
  | top mem => exact .inl mem
  | part _ mem ih =>
      rcases ih with top | ⟨top, isTop, inside⟩
      · exact .inr ⟨_, top, .top mem⟩
      · exact .inr ⟨top, isTop, .part inside mem⟩

theorem entry_of_occurs {levels : Nat} {way : Walk} {shown : Shown}
    (occurs : Occurs (outline forest levels way) shown) {block : Block}
    (isBlock : shown.block? = some block) :
    ∃ entry ∈ unfold (meets forest) levels (way.entries forest),
      forest.get? entry.id = some block := by
  induction levels generalizing way with
  | zero =>
      have gaps : ∀ top ∈ outline forest 0 way, top = .gap := by
        cases way with
        | cells slots => simp [outline]
        | _ => simp [outline]
      rcases occurs.in_top with top | ⟨top, isTop, inside⟩
      · rw [gaps shown top] at isBlock
        cases isBlock
      · rw [gaps top isTop] at inside
        exact absurd inside.in_top (by simp [Shown.parts])
  | succ levels ih =>
      rcases occurs.in_top with top | ⟨top, isTop, inside⟩
      · obtain ⟨entry, mem, found, -⟩ := entry_of_part top isBlock
        exact ⟨entry, mem_unfold_of_mem mem, found⟩
      · cases above : top.block? with
        | none =>
            cases top with
            | gap => exact absurd inside.in_top (by simp [Shown.parts])
            | own | passage => cases above
        | some parent =>
            obtain ⟨entry, mem, found, parts⟩ := entry_of_part isTop above
            rw [parts] at inside
            obtain ⟨below, there, same⟩ := ih inside
            rw [← meets_eq found] at there
            exact ⟨below, mem_unfold_below mem there, same⟩

end Blockmark.Render
