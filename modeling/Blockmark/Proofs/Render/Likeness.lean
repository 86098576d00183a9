import Blockmark.Proofs.Forest.Likeness
import Blockmark.Render.Document

/-!
# Rendering forests that are alike

Two forests that are alike are rendered to the same text and the same image tokens. The blocks
rendered are the same under their names, so that a block passed over in one run is passed over in
the other.

In three spots it is asked whether a list of children is empty before the children are looked up:
in the cells of a table, for the quotes in a quote container, and under images. A block there that
is left without children must not show anything of its own.

Main statement: `document_likeness`.
-/

namespace Blockmark.Render

open Forest

def State.rename (f : BlockId → BlockId) (state : State) : State :=
  { state with visited := state.visited.map f }

def renamed (f : BlockId → BlockId) {α : Type} (rendered : α × State) : α × State :=
  (rendered.1, rendered.2.rename f)

/-- A block that renders nothing if it has no children. -/
def Mute (forest : Forest) (setting : Setting) (block : Block) : Prop :=
  ∀ levels state, renderBlock forest setting (renderer forest setting levels) 0
    { block with children := [] } state = ([], state)

def QuotesNothing (setting : Setting) (block : Block) : Prop :=
  ∀ body, block.kind = .text .quote body → renderBody? setting body = []

/-- What a block lists shows nothing by itself if it is left without children, as far as it is
asked whether there are children. -/
structure Conceals (f : BlockId → BlockId) (forest image : Forest) (setting : Setting)
    (block : Block) : Prop where
  cells : ∀ cell ∈ block.kind.cells, IfBereft f forest image (Mute forest setting) cell
  lines : block.kind = .bare .quoteContainer →
    ∀ child ∈ block.children, IfBereft f forest image (QuotesNothing setting) child
  labels : ∀ picture, block.kind = .image picture → ∀ id,
    Reaches forest.childIds block.children id → IfBereft f forest image (ownTexts · = []) id

structure Reflects (f : BlockId → BlockId) (met : BlockId → Prop) (forest image : Forest)
    (setting : Setting) (below other : Renderer) : Prop where
  siblings_nil : ∀ frame state, other.siblings frame [] state = ([], state)
  siblings : ∀ frame {ids others} state, Renamed f met forest ids others →
    (frame = .quoted → ∀ id ∈ ids, IfBereft f forest image (QuotesNothing setting) id) →
    other.siblings frame others (state.rename f) = renamed f (below.siblings frame ids state)
  columns : ∀ {ids others} state, Renamed f met forest ids others →
    other.columns others (state.rename f) = renamed f (below.columns ids state)
  cell : ∀ {id} state, met id → IfBereft f forest image (Mute forest setting) id →
    other.cell (f id) (state.rename f) = renamed f (below.cell id state)

section

variable {f : BlockId → BlockId} {met : BlockId → Prop} {forest image : Forest} {setting : Setting}
  {below other : Renderer}

@[simp] theorem ordinalBehind_mapCells (before : Nat) (kind : Kind) :
    ordinalBehind before (kind.mapCells f) = ordinalBehind before kind := by
  cases kind with
  | table property => cases property <;> rfl
  | _ => rfl

@[simp] theorem lineGroup_mapCells (frame : Frame) (kind : Kind) :
    lineGroup frame (kind.mapCells f) = lineGroup frame kind := by
  cases kind with
  | table property => cases property <;> rfl
  | _ => rfl

@[simp] theorem isGridColumn_mapCells (kind : Kind) :
    isGridColumn (kind.mapCells f) = isGridColumn kind := by
  cases kind with
  | table property => cases property <;> rfl
  | _ => rfl

theorem addToken_rename (token : Option String) (state : State) :
    addToken token (state.rename f) = (addToken token state).rename f := by
  cases token with
  | none => rfl
  | some token =>
      by_cases noted : token ∈ state.imageTokens <;> simp [addToken, State.rename, noted]

theorem cutOff_rename (any : Bool) (state : State) :
    cutOff any (state.rename f) = (cutOff any state).rename f := by
  cases any <;> rfl

theorem mem_visited_alike (like : Likeness f met forest image) {block block' : Block}
    (alike : Alike f met forest block block') {state : State} :
    block'.id ∈ (state.rename f).visited ↔ block.id ∈ state.visited := by
  rw [alike.id]
  exact like.mem_map

theorem visit_alike {block block' : Block} (alike : Alike f met forest block block')
    (state : State) :
    { state.rename f with visited := block'.id :: (state.rename f).visited } =
      State.rename f { state with visited := block.id :: state.visited } := by
  rw [alike.id]
  rfl

/-! ## Tables -/

theorem cellAlignment_likeness (like : Likeness f met forest image) {id : BlockId}
    (isMet : met id) : cellAlignment image (f id) = cellAlignment forest id := by
  cases found : forest.get? id with
  | none => rw [cellAlignment, cellAlignment, found, like.missing isMet found]; rfl
  | some block =>
      obtain ⟨block', found', alike⟩ := like.found isMet found
      have body {block block' : Block} (alike : Alike f met forest block block') :
          block'.kind.body? = block.kind.body? := by
        rw [alike.kind, Kind.body?_mapCells]
      have below : (image.childrenOf block').findSome? (·.kind.body?) =
          (forest.childrenOf block).findSome? (·.kind.body?) :=
        like.findSome? body alike.children
      simp only [cellAlignment, found, found', Option.bind_some, body alike, below]

variable (reflects : Reflects f met forest image setting below other)

include reflects

theorem renderCells_likeness {cells : List (Option BlockId)} (state : State)
    (fits : ∀ cell, some cell ∈ cells →
      met cell ∧ IfBereft f forest image (Mute forest setting) cell) :
    renderCells other (cells.map (·.map f)) (state.rename f) =
      renamed f (renderCells below cells state) := by
  induction cells generalizing state with
  | nil => rfl
  | cons slot cells ih =>
      have rest (state : State) := ih state fun cell mem => fits cell (List.mem_cons_of_mem _ mem)
      cases slot with
      | none =>
          simp only [List.map_cons, Option.map_none, renderCells, rest]
          rfl
      | some cell =>
          obtain ⟨isMet, mute⟩ := fits cell List.mem_cons_self
          simp only [List.map_cons, Option.map_some, renderCells, reflects.cell state isMet mute]
          simp only [renamed, rest]

theorem renderRows_likeness {rows : List (List (Option BlockId))} (state : State)
    (fits : ∀ row ∈ rows, ∀ cell, some cell ∈ row →
      met cell ∧ IfBereft f forest image (Mute forest setting) cell) :
    renderRows other (rows.map (·.map (·.map f))) (state.rename f) =
      renamed f (renderRows below rows state) := by
  induction rows generalizing state with
  | nil => rfl
  | cons row rows ih =>
      have first := renderCells_likeness reflects state (fits row List.mem_cons_self)
      have rest (state : State) := ih state fun row mem => fits row (List.mem_cons_of_mem _ mem)
      simp only [List.map_cons, renderRows, first]
      simp only [renamed, rest]

theorem renderTable_likeness (like : Likeness f met forest image) {property : TableProperty}
    (state : State) (fits : ∀ cell ∈ property.cells,
      met cell ∧ IfBereft f forest image (Mute forest setting) cell) :
    renderTable image other { property with cells := property.cells.map f } (state.rename f) =
      renamed f (renderTable forest below property state) := by
  have inRows : ∀ row ∈ property.rows, ∀ cell, some cell ∈ row →
      met cell ∧ IfBereft f forest image (Mute forest setting) cell :=
    fun row isRow cell mem => fits cell
      (TableProperty.mem_cells_of_mem_rows (List.mem_flatten.2 ⟨row, isRow, mem⟩))
  have rows := renderRows_likeness reflects state inRows
  unfold renderTable
  rw [rows_map like]
  cases shown : property.rows with
  | nil => rfl
  | cons header body =>
      rw [shown] at rows
      have alignments : (header.map (·.map f)).map (·.bind (cellAlignment image)) =
          header.map (·.bind (cellAlignment forest)) := by
        rw [List.map_map]
        refine List.map_congr_left fun slot mem => ?_
        cases slot with
        | none => rfl
        | some cell =>
            have isRow : header ∈ property.rows := shown ▸ List.mem_cons_self
            exact cellAlignment_likeness like (inRows header isRow cell mem).1
      rw [List.map_cons] at rows ⊢
      simp only [rows, alignments]
      rfl

/-! ## Blocks -/

theorem renderBlock_likeness (like : Likeness f met forest image) (ordinal : Nat) (state : State)
    {block block' : Block} (alike : Alike f met forest block block')
    (conceals : Conceals f forest image setting block) :
    renderBlock image setting other ordinal block' (state.rename f) =
      renamed f (renderBlock forest setting below ordinal block state) := by
  obtain ⟨id, kind, children⟩ := block
  obtain ⟨id', kind', children'⟩ := block'
  obtain rfl : kind' = kind.mapCells f := alike.kind
  have siblings (state : State) : other.siblings .plain children' (state.rename f) =
      renamed f (below.siblings .plain children state) :=
    reflects.siblings .plain state alike.children (by simp)
  cases kind with
  | text role body =>
      cases role with
      | code | equation => rfl
      | _ =>
          simp only [renderBlock, Kind.mapCells, renderText, siblings]
          rfl
  | embed role token =>
      cases role with
      | linkPreview =>
          simp only [renderBlock, Kind.mapCells, renderEmbed, siblings]
          rfl
      | _ => rfl
  | bare role =>
      cases role with
      | divider | wikiCatalog | wikiCatalogV2 | aiTemplate => rfl
      | quoteContainer =>
          have lines := reflects.siblings .quoted state alike.children fun _ => conceals.lines rfl
          simp only [renderBlock, Kind.mapCells, renderBare, lines]
          rfl
      | _ =>
          simp only [renderBlock, Kind.mapCells, renderBare, siblings]
  | callout =>
      simp only [renderBlock, Kind.mapCells, siblings]
      rfl
  | gridColumn | syncReference => simp only [renderBlock, Kind.mapCells, siblings]
  | grid columnSize =>
      simp only [renderBlock, Kind.mapCells, reflects.columns state alike.children]
      rfl
  | image picture =>
      have text : image.blockText ⟨id', .image picture, children'⟩ =
          forest.blockText ⟨id, .image picture, children⟩ :=
        blockText_likeness like alike (fun _ _ => rfl) (conceals.labels picture rfl)
      simp only [renderBlock, Kind.mapCells, altText, text, addToken_rename]
      rfl
  | table property =>
      cases property with
      | none => rfl
      | some property =>
          exact renderTable_likeness reflects like state fun cell mem =>
            ⟨alike.cells cell mem, conceals.cells cell mem⟩
  | isv component => cases component <;> rfl
  | heading | diagram | file | unknown => rfl

theorem siblings_bereft (frame : Frame) {ids : List BlockId} (state : State)
    (bereft : Renamed f met forest ids [])
    (lines : frame = .quoted → ∀ id ∈ ids, IfBereft f forest image (QuotesNothing setting) id) :
    renamed f (below.siblings frame ids state) = ([], state.rename f) := by
  rw [← reflects.siblings frame state bereft lines, reflects.siblings_nil]

theorem renderSibling_likeness (like : Likeness f met forest image) (frame : Frame) (ordinal : Nat)
    (state : State) {block block' : Block} (alike : Alike f met forest block block')
    (conceals : Conceals f forest image setting block)
    (line : frame = .quoted → block.children ≠ [] → block'.children = [] →
      QuotesNothing setting block) :
    renderSibling image setting other frame ordinal block' (state.rename f) =
      renamed f (renderSibling forest setting below frame ordinal block state) := by
  have shown := renderBlock_likeness reflects like ordinal state alike conceals
  obtain ⟨id, kind, children⟩ := block
  obtain ⟨id', kind', children'⟩ := block'
  obtain rfl : kind' = kind.mapCells f := alike.kind
  cases frame with
  | plain => exact shown
  | quoted =>
      cases kind with
      | text role body =>
          cases role with
          | quote =>
              have inside := alike.children
              cases children with
              | nil =>
                  obtain rfl : children' = [] := inside.nil_left
                  rfl
              | cons child children =>
                  cases children' with
                  | cons child' children' => exact shown
                  | nil =>
                      -- A line of the container on one side, a quote in its own right on the other.
                      have text := line rfl (List.cons_ne_nil _ _) rfl body rfl
                      have below := siblings_bereft reflects .plain state inside (by simp)
                      obtain ⟨nothing, same⟩ := Prod.mk.inj below
                      simp only [renderSibling, renderBlock, renderText, renamed, Kind.mapCells,
                        text, nothing, same]
                      rfl
          | _ => exact shown
      | table property => cases property <;> exact shown
      | _ => exact shown

theorem renderColumns_likeness (like : Likeness f met forest image) {ids others : List BlockId}
    (state : State) (inside : Renamed f met forest ids others) :
    renderColumns image other others (state.rename f) =
      renamed f (renderColumns forest below ids state) := by
  induction inside generalizing state with
  | nil => rfl
  | @skip id ids others missing rest ih =>
      rw [renderColumns, missing]
      exact ih state
  | @both id ids others isMet rest ih =>
      cases found : forest.get? id with
      | none =>
          rw [renderColumns, renderColumns, found, like.missing isMet found]
          exact ih state
      | some block =>
          obtain ⟨block', found', alike⟩ := like.found isMet found
          rw [renderColumns, renderColumns, found, found']
          simp only [alike.kind, isGridColumn_mapCells, mem_visited_alike like alike,
            visit_alike alike]
          split
          · exact ih state
          · rw [reflects.siblings .plain _ alike.children (by simp)]
            simp only [renamed, ih]

variable (like : Likeness f met forest image)
  (conceals : ∀ {id block}, met id → forest.get? id = some block →
    Conceals f forest image setting block)

include like conceals

theorem renderPieces_likeness (frame : Frame) (before : Nat) {ids others : List BlockId}
    (state : State) (inside : Renamed f met forest ids others)
    (lines : frame = .quoted → ∀ id ∈ ids, IfBereft f forest image (QuotesNothing setting) id) :
    renderPieces image setting other frame before others (state.rename f) =
      renamed f (renderPieces forest setting below frame before ids state) := by
  induction inside generalizing before state with
  | nil => rfl
  | @skip id ids others missing rest ih =>
      rw [renderPieces, missing]
      exact ih before state fun quoted id mem => lines quoted id (List.mem_cons_of_mem _ mem)
  | @both id ids others isMet rest ih =>
      have ih (before : Nat) (state : State) := ih before state fun quoted id mem =>
        lines quoted id (List.mem_cons_of_mem _ mem)
      cases found : forest.get? id with
      | none =>
          rw [renderPieces, renderPieces, found, like.missing isMet found]
          exact ih before state
      | some block =>
          obtain ⟨block', found', alike⟩ := like.found isMet found
          have line (quoted : frame = .quoted) :=
            lines quoted id List.mem_cons_self _ _ found found'
          rw [renderPieces, renderPieces, found, found']
          simp only [mem_visited_alike like alike, visit_alike alike]
          split
          · exact ih before state
          · rw [renderSibling_likeness reflects like frame _ _ alike (conceals isMet found) line]
            simp only [alike.kind, ordinalBehind_mapCells, lineGroup_mapCells, renamed, ih]

end

/-! ## Renderers -/

section

variable {f : BlockId → BlockId} {met : BlockId → Prop} {forest image : Forest} {setting : Setting}

theorem any_likeness {test other : BlockId → Bool} {ids others : List BlockId}
    (inside : Renamed f met forest ids others)
    (agree : ∀ {id}, met id → other (f id) = test id)
    (passes : ∀ {id}, forest.get? id = none → test id = false) :
    others.any other = ids.any test := by
  induction inside with
  | nil => rfl
  | both isMet rest ih => rw [List.any_cons, List.any_cons, agree isMet, ih]
  | skip missing rest ih => rw [List.any_cons, passes missing, Bool.false_or, ih]

theorem exhausted_reflects (like : Likeness f met forest image) :
    Reflects f met forest image setting (exhausted forest) (exhausted image) where
  siblings_nil _ _ := rfl
  siblings frame ids others state inside lines := by
    have any : others.any image.contains = ids.any forest.contains :=
      any_likeness inside like.contains fun missing => by simp [Forest.contains, missing]
    simp only [exhausted, any, cutOff_rename, renamed]
  columns {ids others} state inside := by
    have any : others.any (fun id => (image.get? id).any (isGridColumn ·.kind)) =
        ids.any fun id => (forest.get? id).any (isGridColumn ·.kind) := by
      refine any_likeness inside (fun {id} isMet => ?_) fun missing => by simp [missing]
      cases found : forest.get? id with
      | none => rw [like.missing isMet found]
      | some block =>
          obtain ⟨block', found', alike⟩ := like.found isMet found
          simp only [found', Option.any_some, alike.kind, isGridColumn_mapCells]
    simp only [exhausted, any, cutOff_rename, renamed]
  cell state isMet _ := by
    simp only [exhausted, like.contains isMet, cutOff_rename, renamed]

variable {levels : Nat}

theorem renderCell_likeness (like : Likeness f met forest image)
    (conceals : ∀ {id block}, met id → forest.get? id = some block →
      Conceals f forest image setting block)
    (reflects : Reflects f met forest image setting (renderer forest setting levels)
      (renderer image setting levels))
    {id : BlockId} (state : State) (isMet : met id)
    (mute : IfBereft f forest image (Mute forest setting) id) :
    renderCell image setting (renderer image setting levels) (f id) (state.rename f) =
      renamed f (renderCell forest setting (renderer forest setting levels) id state) := by
  cases found : forest.get? id with
  | none =>
      rw [renderCell, renderCell, found, like.missing isMet found]
      rfl
  | some block =>
      obtain ⟨block', found', alike⟩ := like.found isMet found
      have fits := conceals isMet found
      have inside := alike.children
      rw [renderCell, renderCell, found, found']
      simp only [List.isEmpty_iff]
      by_cases childless : block.children = []
      · have childless' : block'.children = [] := (childless ▸ inside).nil_left
        rw [if_pos childless, if_pos childless']
        exact renderBlock_likeness reflects like 0 state alike fits
      · by_cases bereft : block'.children = []
        · rw [if_neg childless, if_pos bereft]
          rw [bereft] at inside
          have alone : Alike f met forest { block with children := [] } block' :=
            ⟨alike.id, alike.kind, by rw [bereft]; exact .nil, alike.cells⟩
          have nothing : Conceals f forest image setting { block with children := [] } :=
            ⟨fits.cells, fun _ _ mem => absurd mem List.not_mem_nil,
              fun _ _ _ reaches => absurd reaches (by rintro ⟨_, mem, _⟩; cases mem)⟩
          rw [renderBlock_likeness reflects like 0 state alone nothing,
            mute block block' found found' childless bereft levels state,
            siblings_bereft reflects .plain state inside (by simp)]
          rfl
        · rw [if_neg childless, if_neg bereft]
          exact reflects.siblings .plain state inside (by simp)

theorem renderer_reflects (like : Likeness f met forest image)
    (conceals : ∀ {id block}, met id → forest.get? id = some block →
      Conceals f forest image setting block) (levels : Nat) :
    Reflects f met forest image setting (renderer forest setting levels)
      (renderer image setting levels) := by
  induction levels with
  | zero => exact exhausted_reflects like
  | succ levels ih =>
      refine ⟨fun _ _ => rfl, fun frame ids others state inside lines => ?_,
        fun state inside => renderColumns_likeness ih like state inside,
        fun state isMet mute => renderCell_likeness like conceals ih state isMet mute⟩
      have pieces := renderPieces_likeness ih like conceals frame 0 state inside lines
      exact congrArg (fun rendered => (joinPieces rendered.1, rendered.2)) pieces

theorem document_likeness (like : Likeness f met forest image)
    (conceals : ∀ {id block}, met id → forest.get? id = some block →
      Conceals f forest image setting block) {roots others : List BlockId}
    (inside : Renamed f met forest roots others) :
    document image setting others = document forest setting roots := by
  have rendered : renderRoots image setting others = renamed f (renderRoots forest setting roots) :=
    (renderer_reflects like conceals maxDepth).siblings .plain {} inside (by simp)
  rw [document, document, rendered]
  rfl

end

end Blockmark.Render
