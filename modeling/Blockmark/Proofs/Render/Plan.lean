import Blockmark.Render.Document

/-!
# What is shown of a document

Which blocks are shown, and in what order, depends on the forest alone. A plan is the tree of the
blocks that are shown; the text is laid out from it afterwards, and only then do the options and
the known users matter.

Main statement: `renderRoots_eq_layout`.
-/

namespace Blockmark.Render

open Text

inductive Descent
  | stop
  | children
  | columns
  | cells (ids : List (Option BlockId))

def descent : Kind → Descent
  | .text .code _ | .text .equation _ | .heading _ _ => .stop
  | .text _ _ => .children
  | .embed .linkPreview _ => .children
  | .embed _ _ => .stop
  | .bare .divider | .bare .wikiCatalog | .bare .wikiCatalogV2 | .bare .aiTemplate => .stop
  | .bare _ => .children
  | .callout _ | .gridColumn _ | .syncReference _ => .children
  | .grid _ => .columns
  | .table (some property) => .cells property.rows.flatten
  | .table none | .diagram _ | .file _ | .image _ | .isv _ | .unknown _ => .stop

inductive Shown
  /-- A block that shows itself, with its number if it is an ordered item. -/
  | own (block : Block) (ordinal : Nat) (below : List Shown)
  /-- A column or a cell, of which only the children are shown. -/
  | passage (block : Block) (below : List Shown)
  /-- A cell without a block. -/
  | gap

/-! ## Plans -/

structure Planner where
  siblings : List BlockId → Rendering (List Shown)
  columns : List BlockId → Rendering (List Shown)
  cell : BlockId → Rendering Shown

def planCells (below : Planner) : List (Option BlockId) → Rendering (List Shown)
  | [], state => ([], state)
  | none :: cells, state =>
    let rest := planCells below cells state
    (.gap :: rest.1, rest.2)
  | some id :: cells, state =>
    let cell := below.cell id state
    let rest := planCells below cells cell.2
    (cell.1 :: rest.1, rest.2)

def noteToken (kind : Kind) (state : State) : State :=
  match kind with
  | .image image => addToken (imageToken? image) state
  | _ => state

def planBelow (below : Planner) (block : Block) : Rendering (List Shown) := fun state =>
  match descent block.kind with
  | .stop => ([], noteToken block.kind state)
  | .children => below.siblings block.children state
  | .columns => below.columns block.children state
  | .cells ids => planCells below ids state

def planBlock (below : Planner) (ordinal : Nat) (block : Block) : Rendering Shown := fun state =>
  let inner := planBelow below block state
  (.own block ordinal inner.1, inner.2)

def planSiblings (forest : Forest) (below : Planner) (before : Nat) :
    List BlockId → Rendering (List Shown)
  | [], state => ([], state)
  | id :: ids, state =>
    match forest.get? id with
    | none => planSiblings forest below before ids state
    | some block =>
      if block.id ∈ state.visited then planSiblings forest below before ids state
      else
        let ordinal := ordinalBehind before block.kind
        let shown := planBlock below ordinal block
          { state with visited := block.id :: state.visited }
        let rest := planSiblings forest below ordinal ids shown.2
        (shown.1 :: rest.1, rest.2)

def planColumns (forest : Forest) (below : Planner) : List BlockId → Rendering (List Shown)
  | [], state => ([], state)
  | id :: ids, state =>
    match forest.get? id with
    | none => planColumns forest below ids state
    | some block =>
      if !isGridColumn block.kind || block.id ∈ state.visited then
        planColumns forest below ids state
      else
        let column := below.siblings block.children
          { state with visited := block.id :: state.visited }
        let rest := planColumns forest below ids column.2
        (.passage block column.1 :: rest.1, rest.2)

def planCell (forest : Forest) (below : Planner) (id : BlockId) : Rendering Shown := fun state =>
  match forest.get? id with
  | none => (.gap, state)
  | some cell =>
    if cell.children.isEmpty then planBlock below 0 cell state
    else
      let inner := below.siblings cell.children state
      (.passage cell inner.1, inner.2)

def nothingShown (forest : Forest) : Planner where
  siblings ids state := ([], cutOff (ids.any forest.contains) state)
  columns ids state :=
    ([], cutOff (ids.any fun id => (forest.get? id).any (isGridColumn ·.kind)) state)
  cell id state := (.gap, cutOff (forest.contains id) state)

def planner (forest : Forest) : Nat → Planner
  | 0 => nothingShown forest
  | levels + 1 => {
      siblings := planSiblings forest (planner forest levels) 0
      columns := planColumns forest (planner forest levels)
      cell := planCell forest (planner forest levels) }

def planRoots (forest : Forest) (roots : List BlockId) : List Shown × State :=
  (planner forest maxDepth).siblings roots {}

/-! ## Layout -/

def joinShown (pieces : List Piece) : List Char :=
  joinPieces (pieces.filter (!·.text.isEmpty))

def given (pieces : List Piece) : Renderer where
  siblings _ _ state := (joinShown pieces, state)
  columns _ state := (pieces.map (·.text), state)
  cell _ state := ([], state)

def regroup {α β : Type} : List (List α) → List β → List (List β)
  | [], _ => []
  | row :: rows, items => items.take row.length :: regroup rows (items.drop row.length)

def gridText (forest : Forest) (property : TableProperty) (texts : List (List Char)) :
    List Char :=
  match property.rows with
  | [] => []
  | header :: body =>
    joinLines (tableLines property.columnSize (header.map (·.bind (cellAlignment forest)))
      (regroup (header :: body) (texts.map cellLine)))

def blockText (forest : Forest) (setting : Setting) (ordinal : Nat) (block : Block)
    (below : List Piece) : List Char :=
  match block.kind with
  | .table (some property) => gridText forest property (below.map (·.text))
  | _ => (renderBlock forest setting (given below) ordinal block {}).1

def siblingText (forest : Forest) (setting : Setting) (frame : Frame) (ordinal : Nat)
    (block : Block) (below : List Piece) : List Char :=
  match frame, block.kind, block.children with
  | .quoted, .text .quote body, [] => renderBody? setting body
  | _, _, _ => blockText forest setting ordinal block below

def innerFrame : Kind → Frame
  | .bare .quoteContainer => .quoted
  | _ => .plain

mutual

def Shown.piece (forest : Forest) (setting : Setting) (frame : Frame) : Shown → Piece
  | .own block ordinal below =>
    ⟨lineGroup frame block.kind, siblingText forest setting frame ordinal block
      (Shown.pieces forest setting (innerFrame block.kind) below)⟩
  | .passage _ below => ⟨none, joinShown (Shown.pieces forest setting .plain below)⟩
  | .gap => ⟨none, []⟩

def Shown.pieces (forest : Forest) (setting : Setting) (frame : Frame) :
    List Shown → List Piece
  | [] => []
  | shown :: more => shown.piece forest setting frame :: Shown.pieces forest setting frame more

end

/-- A renderer shows what a planner plans, and leaves the same behind. -/
structure Follows (forest : Forest) (setting : Setting) (renderer : Renderer) (planner : Planner) :
    Prop where
  siblings : ∀ frame ids state, renderer.siblings frame ids state =
    (joinShown (Shown.pieces forest setting frame (planner.siblings ids state).1),
      (planner.siblings ids state).2)
  columns : ∀ ids state, renderer.columns ids state =
    ((Shown.pieces forest setting .plain (planner.columns ids state).1).map (·.text),
      (planner.columns ids state).2)
  cell : ∀ id state, renderer.cell id state =
    (((planner.cell id state).1.piece forest setting .plain).text, (planner.cell id state).2)
  siblings_nil : ∀ state, planner.siblings [] state = ([], state)

section

variable {forest : Forest} {setting : Setting} {below : Renderer} {plan : Planner}

theorem length_planCells (cells : List (Option BlockId)) (state : State) :
    (planCells plan cells state).1.length = cells.length := by
  induction cells generalizing state with
  | nil => rfl
  | cons cell cells ih => cases cell <;> simp [planCells, ih]

theorem planCells_append (cells others : List (Option BlockId)) (state : State) :
    planCells plan (cells ++ others) state =
      ((planCells plan cells state).1 ++ (planCells plan others (planCells plan cells state).2).1,
        (planCells plan others (planCells plan cells state).2).2) := by
  induction cells generalizing state with
  | nil => rfl
  | cons cell cells ih => cases cell <;> simp [planCells, ih]

theorem pieces_append (frame : Frame) (shown more : List Shown) :
    Shown.pieces forest setting frame (shown ++ more) =
      Shown.pieces forest setting frame shown ++ Shown.pieces forest setting frame more := by
  induction shown with
  | nil => rfl
  | cons first shown ih => simp [Shown.pieces, ih]

theorem length_pieces (frame : Frame) (shown : List Shown) :
    (Shown.pieces forest setting frame shown).length = shown.length := by
  induction shown with
  | nil => rfl
  | cons first shown ih => simp [Shown.pieces, ih]

theorem cellLine_nil : cellLine [] = [] := by
  have none : lines [] = [] := rfl
  rw [cellLine, none]
  rfl

theorem renderCells_eq (follows : Follows forest setting below plan)
    (cells : List (Option BlockId)) (state : State) :
    renderCells below cells state =
      ((Shown.pieces forest setting .plain (planCells plan cells state).1).map
        (cellLine ·.text), (planCells plan cells state).2) := by
  induction cells generalizing state with
  | nil => rfl
  | cons cell cells ih =>
      cases cell with
      | none =>
          simp [renderCells, planCells, Shown.pieces, Shown.piece, cellLine_nil, ih]
      | some id =>
          simp [renderCells, planCells, Shown.pieces, follows.cell, ih]

theorem renderRows_eq (follows : Follows forest setting below plan)
    (rows : List (List (Option BlockId))) (state : State) :
    renderRows below rows state =
      (regroup rows ((Shown.pieces forest setting .plain
        (planCells plan rows.flatten state).1).map (cellLine ·.text)),
        (planCells plan rows.flatten state).2) := by
  induction rows generalizing state with
  | nil => rfl
  | cons row rows ih =>
      have size : ((Shown.pieces forest setting .plain (planCells plan row state).1).map
          (cellLine ·.text)).length = row.length := by
        rw [List.length_map, length_pieces, length_planCells]
      rw [renderRows, renderCells_eq follows, ih, List.flatten_cons, planCells_append,
        pieces_append, List.map_append, regroup, ← size, List.take_left, List.drop_left]

theorem renderBlock_eq (follows : Follows forest setting below plan) (ordinal : Nat)
    (block : Block) (state : State) :
    renderBlock forest setting below ordinal block state =
      (blockText forest setting ordinal block
        (Shown.pieces forest setting (innerFrame block.kind) (planBelow plan block state).1),
        (planBelow plan block state).2) := by
  obtain ⟨id, kind, children⟩ := block
  have siblings := follows.siblings
  cases kind with
  | text role body =>
      cases role with
      | code | equation => rfl
      | _ =>
          simp only [renderBlock, renderText, siblings]
          rfl
  | embed role token =>
      cases role with
      | linkPreview =>
          simp only [renderBlock, renderEmbed, siblings]
          rfl
      | _ => rfl
  | bare role =>
      cases role with
      | divider | wikiCatalog | wikiCatalogV2 | aiTemplate => rfl
      | _ =>
          simp only [renderBlock, renderBare, siblings]
          rfl
  | callout | gridColumn | syncReference =>
      simp only [renderBlock, siblings]
      rfl
  | grid columnSize =>
      simp only [renderBlock, follows.columns]
      rfl
  | table property =>
      cases property with
      | none => rfl
      | some property =>
          simp only [renderBlock, renderTable, blockText, planBelow, descent, gridText, innerFrame]
          cases property.rows with
          | nil => rfl
          | cons header body =>
              simp only [renderRows_eq follows, List.map_map]
              rfl
  | isv component => cases component <;> rfl
  | heading | diagram | file | image | unknown => rfl

theorem renderSibling_eq (follows : Follows forest setting below plan) (frame : Frame)
    (ordinal : Nat) (block : Block) (state : State) :
    renderSibling forest setting below frame ordinal block state =
      (((planBlock plan ordinal block state).1.piece forest setting frame).text,
        (planBlock plan ordinal block state).2) := by
  obtain ⟨id, kind, children⟩ := block
  have shown := renderBlock_eq follows ordinal ⟨id, kind, children⟩ state
  cases frame with
  | plain => exact shown
  | quoted =>
      cases kind with
      | text role body =>
          cases role with
          | quote =>
              cases children with
              | nil =>
                  simp only [planBlock, planBelow, descent, follows.siblings_nil]
                  rfl
              | cons child children => exact shown
          | _ => exact shown
      | _ => exact shown

theorem renderPieces_eq (follows : Follows forest setting below plan) (frame : Frame)
    (before : Nat) (ids : List BlockId) (state : State) :
    renderPieces forest setting below frame before ids state =
      ((Shown.pieces forest setting frame (planSiblings forest plan before ids state).1).filter
        (!·.text.isEmpty), (planSiblings forest plan before ids state).2) := by
  induction ids generalizing before state with
  | nil => rfl
  | cons id ids ih =>
      rw [renderPieces, planSiblings]
      cases forest.get? id with
      | none => exact ih before state
      | some block =>
          simp only
          split
          · exact ih before state
          · rw [renderSibling_eq follows, ih, Shown.pieces, List.filter_cons]
            cases empty : ((planBlock plan (ordinalBehind before block.kind) block
                { state with visited := block.id :: state.visited }).1.piece
              forest setting frame).text.isEmpty with
            | true => simp
            | false =>
                simp
                rfl

theorem renderColumns_eq (follows : Follows forest setting below plan) (ids : List BlockId)
    (state : State) :
    renderColumns forest below ids state =
      ((Shown.pieces forest setting .plain (planColumns forest plan ids state).1).map (·.text),
        (planColumns forest plan ids state).2) := by
  induction ids generalizing state with
  | nil => rfl
  | cons id ids ih =>
      rw [renderColumns, planColumns]
      cases forest.get? id with
      | none => exact ih state
      | some block =>
          simp only
          split
          · exact ih state
          · rw [follows.siblings, ih]
            rfl

theorem renderCell_eq (follows : Follows forest setting below plan) (id : BlockId)
    (state : State) :
    renderCell forest setting below id state =
      (((planCell forest plan id state).1.piece forest setting .plain).text,
        (planCell forest plan id state).2) := by
  rw [renderCell, planCell]
  cases forest.get? id with
  | none => rfl
  | some cell =>
      simp only
      split
      · exact renderSibling_eq follows .plain 0 cell state
      · rw [follows.siblings]
        rfl

theorem follows_next (follows : Follows forest setting below plan) :
    Follows forest setting (next forest setting below) {
      siblings := planSiblings forest plan 0
      columns := planColumns forest plan
      cell := planCell forest plan } where
  siblings frame ids state := by
    have pieces := renderPieces_eq follows frame 0 ids state
    exact congrArg (fun rendered => (joinPieces rendered.1, rendered.2)) pieces
  columns := renderColumns_eq follows
  cell := renderCell_eq follows
  siblings_nil _ := rfl

end

theorem renderer_follows (forest : Forest) (setting : Setting) (levels : Nat) :
    Follows forest setting (renderer forest setting levels) (planner forest levels) := by
  induction levels with
  | zero =>
      exact ⟨fun _ _ _ => rfl, fun _ _ => rfl, fun _ _ => rfl, fun _ => rfl⟩
  | succ levels ih => exact follows_next ih

theorem renderRoots_eq_layout (forest : Forest) (setting : Setting) (roots : List BlockId) :
    renderRoots forest setting roots =
      (joinShown (Shown.pieces forest setting .plain (planRoots forest roots).1),
        (planRoots forest roots).2) :=
  (renderer_follows forest setting maxDepth).siblings .plain roots {}

end Blockmark.Render
