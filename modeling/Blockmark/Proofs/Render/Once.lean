import Blockmark.Proofs.Render.Tracking

/-!
# Blocks that are shown once

Among siblings, and as a column of a grid, a block is shown at its first place only: what was shown
is noted, and passed over from then on. A block without children in a cell of a table is shown
without a look at what was noted, and it is not noted itself. Such blocks are the only ones that a
document can show more than once.

Main statements: `nodup_noted` and `shownOnce_iff`.
-/

namespace Blockmark.Render

/-! ## Ids in a plan -/

def spotBelow (kind : Kind) : Spot :=
  match descent kind with
  | .cells _ => .cell
  | _ => .sibling

namespace Shown

mutual

/-- The ids that are picked from a part of a plan in its spot and from the parts below, in the
order of the text. -/
def ids (pick : Spot → Shown → List BlockId) (spot : Spot) : Shown → List BlockId
  | .own block ordinal below =>
    pick spot (.own block ordinal below) ++ idsOfAll pick (spotBelow block.kind) below
  | .passage block below => pick spot (.passage block below) ++ idsOfAll pick .sibling below
  | .gap => []

def idsOfAll (pick : Spot → Shown → List BlockId) (spot : Spot) : List Shown → List BlockId
  | [] => []
  | shown :: more => shown.ids pick spot ++ idsOfAll pick spot more

end

def notedId : Spot → Shown → List BlockId
  | .sibling, shown => (shown.block?.map (·.id)).toList
  | _, _ => []

def ownId : Spot → Shown → List BlockId
  | _, .own block _ _ => [block.id]
  | _, _ => []

def ownIdBeside (spot : Spot) (shown : Shown) : List BlockId :=
  if spot = .sibling then ownId spot shown else []

def ownIdInCell (spot : Spot) (shown : Shown) : List BlockId :=
  if spot = .sibling then [] else ownId spot shown

variable {pick part whole : Spot → Shown → List BlockId}

theorem idsOfAll_append (spot : Spot) (shown more : List Shown) :
    idsOfAll pick spot (shown ++ more) = idsOfAll pick spot shown ++ idsOfAll pick spot more := by
  induction shown with
  | nil => rfl
  | cons first shown ih => simp [idsOfAll, ih]

mutual

theorem ids_sublist (sub : ∀ spot shown, (part spot shown).Sublist (whole spot shown))
    (spot : Spot) (shown : Shown) : (shown.ids part spot).Sublist (shown.ids whole spot) := by
  cases shown with
  | own block ordinal below => exact (sub _ _).append (idsOfAll_sublist sub _ below)
  | passage block below => exact (sub _ _).append (idsOfAll_sublist sub _ below)
  | gap => exact .refl _

theorem idsOfAll_sublist (sub : ∀ spot shown, (part spot shown).Sublist (whole spot shown))
    (spot : Spot) (shown : List Shown) :
    (idsOfAll part spot shown).Sublist (idsOfAll whole spot shown) := by
  cases shown with
  | nil => exact .refl _
  | cons first shown => exact (ids_sublist sub spot first).append (idsOfAll_sublist sub spot shown)

end

theorem count_ownId (id : BlockId) (spot : Spot) (shown : Shown) :
    (ownId spot shown).count id =
      (ownIdBeside spot shown).count id + (ownIdInCell spot shown).count id := by
  unfold ownIdBeside ownIdInCell
  split <;> simp

mutual

theorem count_ids_ownId (id : BlockId) (spot : Spot) (shown : Shown) :
    (shown.ids ownId spot).count id =
      (shown.ids ownIdBeside spot).count id + (shown.ids ownIdInCell spot).count id := by
  cases shown with
  | own block ordinal below =>
      simp only [ids, List.count_append, count_ownId, count_idsOfAll_ownId id _ below]
      omega
  | passage block below =>
      simp only [ids, List.count_append, count_ownId, count_idsOfAll_ownId id _ below]
      omega
  | gap => rfl

theorem count_idsOfAll_ownId (id : BlockId) (spot : Spot) (shown : List Shown) :
    (idsOfAll ownId spot shown).count id =
      (idsOfAll ownIdBeside spot shown).count id +
        (idsOfAll ownIdInCell spot shown).count id := by
  cases shown with
  | nil => rfl
  | cons first shown =>
      simp only [idsOfAll, List.count_append, count_ids_ownId id spot first,
        count_idsOfAll_ownId id spot shown]
      omega

end

theorem ownIdBeside_sublist (spot : Spot) (shown : Shown) :
    (ownIdBeside spot shown).Sublist (notedId spot shown) := by
  cases spot with
  | sibling =>
      cases shown with
      | own => exact .refl _
      | passage | gap => exact List.nil_sublist _
  | cell | label => exact List.nil_sublist _

end Shown

/-! ## What planners note -/

/-- The blocks of some parts, in the order of the text, were noted when the parts were planned, and
none of them had been noted before. -/
structure Notes (spot : Spot) (before : State) (result : List Shown × State) : Prop where
  visited : result.2.visited =
    (Shown.idsOfAll Shown.notedId spot result.1).reverse ++ before.visited
  nodup : before.visited.Nodup → result.2.visited.Nodup

structure Noting (plan : Planner) : Prop where
  siblings : ∀ ids state, Notes .sibling state (plan.siblings ids state)
  columns : ∀ ids state, Notes .sibling state (plan.columns ids state)
  cell : ∀ id state, Notes .cell state ([(plan.cell id state).1], (plan.cell id state).2)

section

variable {forest : Forest} {plan : Planner} {spot : Spot} {before between after : State}
  {shown rest : List Shown}

theorem Notes.nil (same : after.visited = before.visited) : Notes spot before ([], after) :=
  ⟨same, fun nodup => same ▸ nodup⟩

theorem Notes.gap (same : after.visited = before.visited) :
    Notes spot before ([.gap], after) :=
  ⟨same, fun nodup => same ▸ nodup⟩

theorem Notes.append (first : Notes spot before (shown, between))
    (second : Notes spot between (rest, after)) : Notes spot before (shown ++ rest, after) where
  visited := by
    rw [second.visited, first.visited, Shown.idsOfAll_append, List.reverse_append,
      List.append_assoc]
  nodup nodup := second.nodup (first.nodup nodup)

theorem Notes.above {block : Block} {inner : Spot} (part : Shown)
    (ids : part.ids Shown.notedId .sibling = block.id :: Shown.idsOfAll Shown.notedId inner shown)
    (fresh : block.id ∉ before.visited)
    (below : Notes inner { before with visited := block.id :: before.visited } (shown, after)) :
    Notes .sibling before ([part], after) where
  visited := by
    rw [below.visited, Shown.idsOfAll, Shown.idsOfAll, List.append_nil, ids, List.reverse_cons,
      List.append_assoc]
    rfl
  nodup nodup := below.nodup (List.nodup_cons.2 ⟨fresh, nodup⟩)

theorem Notes.unnoted {part : Shown} {inner : Spot}
    (ids : part.ids Shown.notedId .cell = Shown.idsOfAll Shown.notedId inner shown)
    (below : Notes inner before (shown, after)) : Notes .cell before ([part], after) where
  visited := by
    rw [below.visited, Shown.idsOfAll, Shown.idsOfAll, List.append_nil, ids]
  nodup := below.nodup

theorem notes_planCells (noting : Noting plan) (cells : List (Option BlockId)) (state : State) :
    Notes .cell state (planCells plan cells state) := by
  induction cells generalizing state with
  | nil => exact .nil rfl
  | cons cell cells ih =>
      cases cell with
      | none => exact (Notes.gap rfl).append (ih state)
      | some id => exact (noting.cell id state).append (ih _)

theorem notes_planBelow (noting : Noting plan) (block : Block) (state : State) :
    Notes (spotBelow block.kind) state (planBelow plan block state) := by
  unfold spotBelow planBelow
  cases descent block.kind with
  | stop => exact .nil (visited_noteToken block.kind state)
  | children => exact noting.siblings block.children state
  | columns => exact noting.columns block.children state
  | cells ids => exact notes_planCells noting ids state

theorem notes_planSiblings (noting : Noting plan) (number : Nat) (ids : List BlockId)
    (state : State) : Notes .sibling state (planSiblings forest plan number ids state) := by
  induction ids generalizing number state with
  | nil => exact .nil rfl
  | cons id ids ih =>
      rw [planSiblings]
      cases forest.get? id with
      | none => exact ih number state
      | some block =>
          simp only
          split
          · exact ih number state
          · next fresh =>
            have below := notes_planBelow noting block
              { state with visited := block.id :: state.visited }
            exact (below.above (.own block (ordinalBehind number block.kind) _) rfl fresh).append
              (ih _ _)

theorem notes_planColumns (noting : Noting plan) (ids : List BlockId) (state : State) :
    Notes .sibling state (planColumns forest plan ids state) := by
  induction ids generalizing state with
  | nil => exact .nil rfl
  | cons id ids ih =>
      rw [planColumns]
      cases forest.get? id with
      | none => exact ih state
      | some block =>
          simp only
          split
          · exact ih state
          · next skipped =>
            have fresh : block.id ∉ state.visited := by
              intro seen
              simp [seen] at skipped
            have below := noting.siblings block.children
              { state with visited := block.id :: state.visited }
            exact (below.above (.passage block _) rfl fresh).append (ih _)

theorem notes_planCell (noting : Noting plan) (id : BlockId) (state : State) :
    Notes .cell state
      ([(planCell forest plan id state).1], (planCell forest plan id state).2) := by
  unfold planCell
  cases forest.get? id with
  | none => exact .gap rfl
  | some cell =>
      simp only
      split
      · exact (notes_planBelow noting cell state).unnoted rfl
      · exact (noting.siblings cell.children state).unnoted rfl

theorem visited_cutOff (any : Bool) (state : State) :
    (cutOff any state).visited = state.visited := by
  cases any <;> rfl

theorem noting_planner (forest : Forest) (levels : Nat) : Noting (planner forest levels) := by
  induction levels with
  | zero =>
      exact ⟨fun ids state => .nil (visited_cutOff _ state),
        fun ids state => .nil (visited_cutOff _ state),
        fun id state => .gap (visited_cutOff _ state)⟩
  | succ levels ih =>
      exact ⟨notes_planSiblings ih 0, notes_planColumns ih, notes_planCell ih⟩

end

/-! ## Whole documents -/

section

variable (forest : Forest) (roots : List BlockId)

/-- The blocks whose own content a document shows, in the order of the text. -/
def ownIds : List BlockId :=
  Shown.idsOfAll Shown.ownId .sibling (planRoots forest roots).1

def ownIdsBeside : List BlockId :=
  Shown.idsOfAll Shown.ownIdBeside .sibling (planRoots forest roots).1

def ownIdsInCells : List BlockId :=
  Shown.idsOfAll Shown.ownIdInCell .sibling (planRoots forest roots).1

theorem nodup_noted :
    (planRoots forest roots).2.visited =
        (Shown.idsOfAll Shown.notedId .sibling (planRoots forest roots).1).reverse ∧
      (Shown.idsOfAll Shown.notedId .sibling (planRoots forest roots).1).Nodup := by
  have notes := (noting_planner forest maxDepth).siblings roots {}
  have visited := notes.visited
  rw [List.append_nil] at visited
  exact ⟨visited, List.nodup_reverse.1 (visited ▸ notes.nodup List.nodup_nil)⟩

theorem nodup_ownIdsBeside : (ownIdsBeside forest roots).Nodup :=
  (nodup_noted forest roots).2.sublist
    (Shown.idsOfAll_sublist Shown.ownIdBeside_sublist _ _)

/-- A document shows the own content of no block twice exactly if no block in a cell is shown in
another cell or beside others as well. -/
theorem shownOnce_iff :
    (ownIds forest roots).Nodup ↔
      (ownIdsInCells forest roots).Nodup ∧
        ∀ id ∈ ownIdsInCells forest roots, id ∉ ownIdsBeside forest roots := by
  have split (id : BlockId) : (ownIds forest roots).count id =
      (ownIdsBeside forest roots).count id + (ownIdsInCells forest roots).count id :=
    Shown.count_idsOfAll_ownId id .sibling _
  have beside (id : BlockId) : (ownIdsBeside forest roots).count id ≤ 1 :=
    List.nodup_iff_count_le_one.1 (nodup_ownIdsBeside forest roots) id
  simp only [List.nodup_iff_count_le_one, ← List.count_pos_iff, split]
  constructor
  · intro once
    exact ⟨fun id => by have := once id; omega, fun id inCell => by have := once id; omega⟩
  · rintro ⟨once, apart⟩ id
    have := once id
    have := beside id
    have := apart id
    omega

def noteTwice : Forest := ⟨[
  ⟨"table", .table (some { cells := ["note"], rowSize := 1, columnSize := 1 }), []⟩,
  ⟨"note", .text .paragraph (some (.plain "once")), []⟩]⟩

theorem shown_again :
    (∀ block ∈ noteTwice.blocks, ∀ cell ∈ block.kind.cells,
      ¬ Reaches noteTwice.leadsTo [cell] block.id) ∧
    ownIds noteTwice ["table", "note"] = ["table", "note", "note"] ∧
    document noteTwice {} ["table", "note"] = ⟨"| once |\n| ---- |\n\nonce\n", []⟩ := by
  refine ⟨?_, by decide +kernel, by decide +kernel⟩
  have stays {id : BlockId} (reaches : Reaches noteTwice.leadsTo ["note"] id) : id = "note" := by
    have top : ∀ top ∈ ["note"], top ∈ ["note"] := fun _ mem => mem
    have closed : ∀ node, node ∈ ["note"] → ∀ below ∈ noteTwice.leadsTo node, below ∈ ["note"] := by
      intro node mem below leads
      obtain rfl := List.mem_singleton.1 mem
      cases leads
    exact List.mem_singleton.1 (reaches.closed top closed)
  have cells : ∀ block ∈ noteTwice.blocks, block.kind.cells ⊆ ["note"] ∧
      ("note" ∈ block.kind.cells → block.id ≠ "note") := by
    decide +kernel
  intro block mem cell isCell reaches
  obtain rfl := List.mem_singleton.1 ((cells block mem).1 isCell)
  exact (cells block mem).2 isCell (stays reaches)

end

end Blockmark.Render
