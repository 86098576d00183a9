import Blockmark.Proofs.Render.Outline

/-!
# Plans of trees

A planner remembers the blocks it has shown. On a tree it does not need to: what it plans is the
outline, for which nothing is remembered, and it is cut short exactly if there is something left
to be shown on the last level.

Main statements: `tracks_planRoots`, `shows_iff`.
-/

namespace Blockmark.Render

/-! ## Image tokens -/

def ownToken? : Kind → Option String
  | .image image => imageToken? image
  | _ => none

mutual

def Shown.tokens : Shown → List String
  | .own block _ below => (ownToken? block.kind).toList ++ Shown.tokensOfAll below
  | .passage _ below => Shown.tokensOfAll below
  | .gap => []

def Shown.tokensOfAll : List Shown → List String
  | [] => []
  | shown :: more => shown.tokens ++ Shown.tokensOfAll more

end

def addTokens (known tokens : List String) : List String :=
  tokens.foldl (fun known token => if token ∈ known then known else known ++ [token]) known

theorem addTokens_append (known tokens more : List String) :
    addTokens known (tokens ++ more) = addTokens (addTokens known tokens) more :=
  List.foldl_append

theorem imageTokens_noteToken (kind : Kind) (state : State) :
    (noteToken kind state).imageTokens =
      addTokens state.imageTokens (ownToken? kind).toList := by
  cases kind with
  | image image =>
      rw [noteToken, ownToken?]
      cases imageToken? image with
      | none => rfl
      | some token =>
          simp only [addToken, addTokens, Option.toList_some, List.foldl_cons, List.foldl_nil]
          split <;> rfl
  | _ => rfl

theorem truncated_noteToken (kind : Kind) (state : State) :
    (noteToken kind state).truncated = state.truncated := by
  unfold noteToken addToken
  split
  · split
    · rfl
    · split <;> rfl
  · rfl

theorem visited_noteToken (kind : Kind) (state : State) :
    (noteToken kind state).visited = state.visited := by
  unfold noteToken addToken
  split
  · split
    · rfl
    · split <;> rfl
  · rfl

theorem Shown.tokensOfAll_append (shown more : List Shown) :
    Shown.tokensOfAll (shown ++ more) = Shown.tokensOfAll shown ++ Shown.tokensOfAll more := by
  induction shown with
  | nil => rfl
  | cons first shown ih => simp [Shown.tokensOfAll, ih]

/-! ## What a planner leaves behind -/

def Unshown (forest : Forest) (levels : Nat) (entries : List Entry) (state : State) : Prop :=
  Fresh (meets forest) Entry.id levels entries state.visited

structure Effect (forest : Forest) (levels : Nat) (entries : List Entry) (shown : List Shown)
    (before after : State) : Prop where
  tokens : after.imageTokens = addTokens before.imageTokens (Shown.tokensOfAll shown)
  truncated : after.truncated =
    (before.truncated || !(level (meets forest) levels entries).isEmpty)
  visited : Adds (meets forest) Entry.id levels entries before.visited after.visited

section

variable {forest : Forest} {levels : Nat} {entries more : List Entry} {shown rest : List Shown}
  {before between after state : State}

theorem Effect.nil (state : State) : Effect forest levels [] [] state state :=
  ⟨rfl, by simp, adds_nil _⟩

theorem Effect.append (first : Effect forest levels entries shown before between)
    (second : Effect forest levels more rest between after) :
    Effect forest levels (entries ++ more) (shown ++ rest) before after where
  tokens := by
    rw [second.tokens, first.tokens, Shown.tokensOfAll_append, addTokens_append]
  truncated := by
    rw [second.truncated, first.truncated, level_append, Bool.or_assoc]
    cases level (meets forest) levels entries <;> simp
  visited := first.visited.append second.visited

theorem Effect.above {entry : Entry} {part : Shown} {below : List Shown}
    {visited : List BlockId}
    (inner : Effect forest levels (meets forest entry) below { before with visited } between)
    (seen : ∀ id ∈ visited, id ∈ before.visited ∨ entry.id = id)
    (tokens : after.imageTokens = addTokens before.imageTokens part.tokens)
    (truncated : after.truncated = between.truncated) (same : after.visited = between.visited) :
    Effect forest (levels + 1) [entry] [part] before after where
  tokens := by rw [tokens, Shown.tokensOfAll, Shown.tokensOfAll, List.append_nil]
  truncated := by
    rw [truncated, inner.truncated, level_cons_succ, level_nil, List.append_nil]
  visited := by
    rw [same]
    exact inner.visited.above seen

end

/-! ## Planners on trees -/

def planWalk (plan : Planner) : Walk → Rendering (List Shown)
  | .siblings _ ids => plan.siblings ids
  | .columns ids => plan.columns ids
  | .cells cells => planCells plan cells

structure Tracks (forest : Forest) (levels : Nat) (walk : Walk) (state : State)
    (result : List Shown × State) : Prop where
  shown : result.1 = outline forest levels walk
  effect : Effect forest levels (walk.entries forest) (outline forest levels walk) state result.2

/-- A planner of some levels plans the outline of what is met for the first time. -/
structure Faithful (forest : Forest) (levels : Nat) (plan : Planner) : Prop where
  siblings : ∀ ids state, Unshown forest levels ((Walk.siblings 0 ids).entries forest) state →
    Tracks forest levels (.siblings 0 ids) state (plan.siblings ids state)
  columns : ∀ ids state, Unshown forest levels ((Walk.columns ids).entries forest) state →
    Tracks forest levels (.columns ids) state (plan.columns ids state)
  cells : ∀ cells state, Unshown forest levels ((Walk.cells cells).entries forest) state →
    Tracks forest levels (.cells cells) state (planCells plan cells state)
  siblings_nil : ∀ state, plan.siblings [] state = ([], state)

section

variable {forest : Forest} {levels : Nat} {plan : Planner}

theorem outline_siblings_nil (levels before : Nat) :
    outline forest levels (.siblings before []) = [] := by
  cases levels <;> rfl

theorem tracks_siblings_nil (levels before : Nat) (state : State) :
    Tracks forest levels (.siblings before []) state ([], state) := by
  refine ⟨(outline_siblings_nil levels before).symm, ?_⟩
  rw [outline_siblings_nil]
  exact .nil state

theorem Faithful.below (faithful : Faithful forest levels plan) (block : Block) {state : State}
    (fresh : Unshown forest levels ((Walk.below block).entries forest) state) :
    Tracks forest levels (.below block) state (planWalk plan (.below block) state) := by
  unfold Walk.below at fresh ⊢
  cases way : descent block.kind with
  | stop =>
      rw [planWalk, faithful.siblings_nil]
      exact tracks_siblings_nil ..
  | children => exact faithful.siblings _ _ (by simpa only [way] using fresh)
  | columns => exact faithful.columns _ _ (by simpa only [way] using fresh)
  | cells ids => exact faithful.cells _ _ (by simpa only [way] using fresh)

theorem noteToken_of_descent {kind : Kind} (goesOn : descent kind ≠ .stop) :
    noteToken kind = id := by
  cases kind with
  | image => exact absurd rfl goesOn
  | _ => rfl

theorem planBelow_eq (faithful : Faithful forest levels plan) (block : Block) (state : State) :
    planBelow plan block state = ((planWalk plan (.below block) state).1,
      noteToken block.kind (planWalk plan (.below block) state).2) := by
  unfold planBelow Walk.below
  cases way : descent block.kind with
  | stop => simp only [planWalk, faithful.siblings_nil]
  | _ =>
      have same : noteToken block.kind = id := noteToken_of_descent (by simp [way])
      simp only [planWalk, same, id_eq]

theorem ownToken?_of_descent {kind : Kind} (goesOn : descent kind ≠ .stop) :
    ownToken? kind = none := by
  cases kind with
  | image => exact absurd rfl goesOn
  | _ => rfl

theorem tokens_own (block : Block) (ordinal : Nat) (state : State) :
    addTokens (addTokens state.imageTokens
        (Shown.tokensOfAll (outline forest levels (.below block)))) (ownToken? block.kind).toList =
      addTokens state.imageTokens
        (Shown.own block ordinal (outline forest levels (.below block))).tokens := by
  rw [Shown.tokens]
  by_cases way : descent block.kind = .stop
  · rw [Walk.below, way, outline_siblings_nil, Shown.tokensOfAll, List.append_nil]
    rfl
  · rw [ownToken?_of_descent way]
    rfl

-- Among siblings a block is noted in `visited` before it is planned, in a cell it is not noted at
-- all, so `visited` is only known to hold no other block than what was shown, and the block itself.
theorem tracks_planBlock (faithful : Faithful forest levels plan) (entry : Entry) {block : Block}
    (found : forest.get? entry.id = some block)
    (itself : Walk.at entry.spot block = .below block) (ordinal : Nat) {state : State}
    {visited : List BlockId} (seen : ∀ id ∈ visited, id ∈ state.visited ∨ entry.id = id)
    (fresh : Unshown forest levels (meets forest entry) { state with visited }) :
    (planBlock plan ordinal block { state with visited }).1 =
      .own block ordinal (outline forest levels (.below block)) ∧
    Effect forest (levels + 1) [entry] [.own block ordinal (outline forest levels (.below block))]
      state (planBlock plan ordinal block { state with visited }).2 := by
  rw [meets_eq found, itself] at fresh
  obtain ⟨shown, effect⟩ := faithful.below block fresh
  rw [planBlock, planBelow_eq faithful]
  refine ⟨congrArg (Shown.own block ordinal) shown, ?_⟩
  rw [← itself, ← meets_eq found, itself] at effect
  refine effect.above seen ?_ ?_ ?_
  · rw [imageTokens_noteToken, effect.tokens]
    exact tokens_own block ordinal state
  · rw [truncated_noteToken]
  · rw [visited_noteToken]

theorem tracks_passage (faithful : Faithful forest levels plan) (entry : Entry) {block : Block}
    (found : forest.get? entry.id = some block)
    (through : Walk.at entry.spot block = .siblings 0 block.children) {state : State}
    {visited : List BlockId} (seen : ∀ id ∈ visited, id ∈ state.visited ∨ entry.id = id)
    (fresh : Unshown forest levels (meets forest entry) { state with visited }) :
    (plan.siblings block.children { state with visited }).1 =
      outline forest levels (.siblings 0 block.children) ∧
    Effect forest (levels + 1) [entry]
      [.passage block (outline forest levels (.siblings 0 block.children))]
      state (plan.siblings block.children { state with visited }).2 := by
  rw [meets_eq found, through] at fresh
  obtain ⟨shown, effect⟩ := faithful.siblings _ _ fresh
  rw [← through, ← meets_eq found, through] at effect
  exact ⟨shown, effect.above seen effect.tokens rfl rfl⟩

theorem tracks_planSiblings (faithful : Faithful forest levels plan) (before : Nat)
    (ids : List BlockId) (state : State)
    (fresh : Unshown forest (levels + 1) ((Walk.siblings before ids).entries forest) state) :
    Tracks forest (levels + 1) (.siblings before ids) state
      (planSiblings forest plan before ids state) := by
  induction ids generalizing before state with
  | nil => exact tracks_siblings_nil ..
  | cons id ids ih =>
      cases found : forest.get? id with
      | none =>
          have skip := Forest.entries_cons_missing found .sibling ids
          have rest := ih before state (by simpa only [Walk.entries, skip] using fresh)
          refine ⟨?_, ?_⟩
          · simpa only [planSiblings, outline, outlineWalk, outlineSiblings, found]
              using rest.shown
          · simpa only [planSiblings, outline, outlineWalk, outlineSiblings, found, Walk.entries,
              skip] using rest.effect
      | some block =>
          have split := Forest.entries_cons_found found .sibling ids
          obtain rfl := Forest.id_of_get? found
          rw [Walk.entries, split, ← List.singleton_append] at fresh
          -- The planner would pass over a block that was shown before; this one was not.
          have top : block.id ∉ state.visited := fresh.left.key_notMem
          have first := tracks_planBlock faithful ⟨.sibling, block.id⟩ found rfl
            (ordinalBehind before block.kind) (by simp; tauto) fresh.left.below
          have rest := ih (ordinalBehind before block.kind) _ (fresh.right first.2.visited)
          refine ⟨?_, ?_⟩
          · simp only [planSiblings, outline, outlineWalk, outlineSiblings, found, top, if_false,
              first.1]
            exact congrArg _ rest.shown
          · simp only [planSiblings, outline, outlineWalk, outlineSiblings, found, top, if_false,
              Walk.entries, split]
            exact first.2.append rest.effect

theorem planColumns_cons_other {id : BlockId} (other : column? forest id = none)
    (ids : List BlockId) (state : State) :
    planColumns forest plan (id :: ids) state = planColumns forest plan ids state := by
  rw [planColumns]
  cases found : forest.get? id with
  | none => rfl
  | some block =>
      have : isGridColumn block.kind = false := by simpa [column?, found] using other
      simp [this]

theorem tracks_planColumns (faithful : Faithful forest levels plan) (ids : List BlockId)
    (state : State)
    (fresh : Unshown forest (levels + 1) ((Walk.columns ids).entries forest) state) :
    Tracks forest (levels + 1) (.columns ids) state (planColumns forest plan ids state) := by
  induction ids generalizing state with
  | nil => exact ⟨rfl, .nil state⟩
  | cons id ids ih =>
      cases column : column? forest id with
      | none =>
          have skip : (Walk.columns (id :: ids)).entries forest =
              (Walk.columns ids).entries forest := by
            simp [Walk.entries, column]
          have same : outline forest (levels + 1) (.columns (id :: ids)) =
              outline forest (levels + 1) (.columns ids) := by
            simp only [outline, outlineWalk, outlineColumns, List.filterMap_cons, column]
          rw [skip] at fresh
          obtain ⟨shown, effect⟩ := ih state fresh
          rw [planColumns_cons_other column]
          exact ⟨same ▸ shown, by rw [skip, same]; exact effect⟩
      | some block =>
          obtain ⟨found, isColumn⟩ := column?_eq_some.1 column
          obtain rfl := Forest.id_of_get? found
          have split : (Walk.columns (block.id :: ids)).entries forest =
              ⟨.sibling, block.id⟩ :: (Walk.columns ids).entries forest := by
            simp [Walk.entries, column, Forest.entries_cons_found found]
          rw [split, ← List.singleton_append] at fresh
          have top : block.id ∉ state.visited := fresh.left.key_notMem
          have first := tracks_passage faithful ⟨.sibling, block.id⟩ found
            (walk_below_column isColumn) (by simp; tauto) fresh.left.below
          have rest := ih _ (fresh.right first.2.visited)
          refine ⟨?_, ?_⟩
          · simp only [planColumns, outline, outlineWalk, outlineColumns, found, isColumn, top,
              first.1, List.filterMap_cons, column, List.map_cons]
            exact congrArg _ rest.shown
          · simp only [planColumns, outline, outlineWalk, outlineColumns, found, isColumn, top,
              split, List.filterMap_cons, column, List.map_cons]
            exact first.2.append rest.effect

theorem effect_gap {entries : List Entry} {state after : State} {shown : List Shown}
    (effect : Effect forest levels entries shown state after) :
    Effect forest levels entries (.gap :: shown) state after :=
  ⟨effect.tokens, effect.truncated, effect.visited⟩

theorem tracks_planCell (faithful : Faithful forest levels plan) {id : BlockId} {block : Block}
    (found : forest.get? id = some block) {state : State}
    (fresh : Unshown forest (levels + 1) [⟨.cell, id⟩] state) :
    (planCell forest plan id state).1 =
      outlineCell forest (outline forest levels) (some id) ∧
    Effect forest (levels + 1) [⟨.cell, id⟩] [outlineCell forest (outline forest levels) (some id)]
      state (planCell forest plan id state).2 := by
  rw [planCell]
  simp only [outlineCell, found, Option.bind_some]
  by_cases childless : block.children.isEmpty = true
  · rw [if_pos childless, if_pos childless]
    exact tracks_planBlock faithful ⟨.cell, id⟩ found (if_pos childless) 0
      (fun id mem => .inl mem) (fresh.below.mono (List.subset_cons_self ..))
  · rw [if_neg childless, if_neg childless]
    have through := tracks_passage faithful ⟨.cell, id⟩ found (if_neg childless)
      (fun id mem => .inl mem) (fresh.below.mono (List.subset_cons_self ..))
    exact ⟨congrArg (Shown.passage block) through.1, through.2⟩

theorem tracks_planCells (faithful : Faithful forest levels plan) {others : Planner}
    (cell : others.cell = planCell forest plan) (cells : List (Option BlockId)) (state : State)
    (fresh : Unshown forest (levels + 1) ((Walk.cells cells).entries forest) state) :
    Tracks forest (levels + 1) (.cells cells) state (planCells others cells state) := by
  induction cells generalizing state with
  | nil => exact ⟨rfl, .nil state⟩
  | cons slot cells ih =>
      -- A slot is a gap if it has no id, or if there is no block under its id.
      have gap (none : slot.bind forest.get? = none)
          (skip : (Walk.cells (slot :: cells)).entries forest = (Walk.cells cells).entries forest)
          (same : planCells others (slot :: cells) state =
            (.gap :: (planCells others cells state).1, (planCells others cells state).2)) :
          Tracks forest (levels + 1) (.cells (slot :: cells)) state
            (planCells others (slot :: cells) state) := by
        rw [skip] at fresh
        obtain ⟨shown, effect⟩ := ih state fresh
        have first : outline forest (levels + 1) (.cells (slot :: cells)) =
            .gap :: outline forest (levels + 1) (.cells cells) := by
          simp [outline, outlineWalk, outlineCell, none]
        rw [same]
        refine ⟨?_, ?_⟩
        · rw [first, shown]
        · rw [first, skip]
          exact effect_gap effect
      cases slot with
      | none => exact gap rfl rfl rfl
      | some id =>
          cases found : forest.get? id with
          | none =>
              refine gap found ?_ ?_
              · simp [Walk.entries, Forest.entries_cons_missing found]
              · simp [planCells, cell, planCell, found]
          | some block =>
              have split : (Walk.cells (some id :: cells)).entries forest =
                  ⟨.cell, id⟩ :: (Walk.cells cells).entries forest := by
                simp [Walk.entries, Forest.entries_cons_found found]
              rw [split, ← List.singleton_append] at fresh
              have first := tracks_planCell faithful found fresh.left
              have rest := ih _ (fresh.right first.2.visited)
              rw [planCells, cell]
              refine ⟨?_, ?_⟩
              · exact congrArg₂ List.cons first.1 rest.shown
              · rw [split]
                exact first.2.append rest.effect

theorem isEmpty_entries (forest : Forest) (spot : Spot) (ids : List BlockId) :
    (forest.entries spot ids).isEmpty = !ids.any forest.contains := by
  induction ids with
  | nil => rfl
  | cons id ids ih =>
      rw [Forest.entries_cons, List.any_cons]
      cases forest.contains id with
      | true => rfl
      | false => exact ih

theorem effect_cutOff {entries : List Entry} {shown : List Shown} (state : State) {any : Bool}
    (rest : entries.isEmpty = !any) (tokens : Shown.tokensOfAll shown = []) :
    Effect forest 0 entries shown state (cutOff any state) := by
  cases any with
  | false => exact ⟨by rw [tokens]; rfl, by simp [level, rest, cutOff], fun _ mem => .inl mem⟩
  | true => exact ⟨by rw [tokens]; rfl, by simp [level, rest, cutOff], fun _ mem => .inl mem⟩

theorem tracks_exhausted_cells (cells : List (Option BlockId)) (state : State) :
    Tracks forest 0 (.cells cells) state (planCells (nothingShown forest) cells state) := by
  induction cells generalizing state with
  | nil => exact ⟨rfl, .nil state⟩
  | cons slot cells ih =>
      cases slot with
      | none =>
          obtain ⟨shown, effect⟩ := ih state
          exact ⟨congrArg (List.cons Shown.gap) shown, effect_gap effect⟩
      | some id =>
          have split : (Walk.cells (some id :: cells)).entries forest =
              forest.entries .cell [id] ++ (Walk.cells cells).entries forest := by
            simp only [Walk.entries, List.filterMap_cons, id_eq, Forest.entries]
            rw [← List.singleton_append, List.filter_append, List.map_append]
          have first : Effect forest 0 (forest.entries .cell [id]) [.gap] state
              (cutOff (forest.contains id) state) :=
            effect_cutOff state (by simp [isEmpty_entries]) rfl
          obtain ⟨shown, effect⟩ := ih (cutOff (forest.contains id) state)
          refine ⟨congrArg (List.cons Shown.gap) shown, ?_⟩
          rw [split]
          exact first.append effect

theorem faithful_exhausted : Faithful forest 0 (nothingShown forest) where
  siblings ids state _ := ⟨rfl, effect_cutOff state (isEmpty_entries forest .sibling ids) rfl⟩
  columns ids state _ := by
    refine ⟨rfl, effect_cutOff state ?_ rfl⟩
    rw [Walk.entries, isEmpty_entries, List.any_filter]
    congr 2
    funext id
    cases found : forest.get? id <;> simp [column?, Forest.contains, found, Option.isSome_filter]
  cells cells state _ := tracks_exhausted_cells cells state
  siblings_nil _ := rfl

theorem faithful_planner (forest : Forest) (levels : Nat) :
    Faithful forest levels (planner forest levels) := by
  induction levels with
  | zero => exact faithful_exhausted
  | succ levels ih =>
      exact ⟨tracks_planSiblings ih 0, tracks_planColumns ih, tracks_planCells ih rfl,
        fun _ => rfl⟩

theorem tracks_planRoots {roots : List BlockId}
    (tree : Tree (meets forest) Entry.id (forest.entries .sibling roots)) :
    Tracks forest maxDepth (.siblings 0 roots) {} (planRoots forest roots) := by
  refine (faithful_planner forest maxDepth).siblings roots {} ?_
  exact tree.fresh maxDepth

theorem shows_iff {roots : List BlockId}
    (tree : Tree (meets forest) Entry.id (forest.entries .sibling roots)) {block : Block} :
    Shows forest roots block ↔
      ∃ entry ∈ unfold (meets forest) maxDepth (forest.entries .sibling roots),
        forest.get? entry.id = some block := by
  rw [Shows, (tracks_planRoots tree).shown]
  constructor
  · rintro ⟨shown, occurs, isBlock⟩
    exact entry_of_occurs occurs isBlock
  · rintro ⟨entry, mem, found⟩
    exact occurs_outline (.siblings 0 roots) mem found

end

end Blockmark.Render
