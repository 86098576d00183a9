import Mathlib.Data.List.Basic
import Mathlib.Tactic.ByContra
import Blockmark.Mention.Collect
import Blockmark.Proofs.Forest.Insertion
import Blockmark.Proofs.Render.Meeting

/-!
# The parts of a plan

Every part of a plan stands for an existing block that the block above it lists as a child or as a
cell. Some parts render mentions, and what is known about other users does not show in the text.

Main statements: `stems_planRoots` and `document_eq_of_agree`.
-/

namespace Blockmark.Render

namespace Shown

def block? : Shown → Option Block
  | .own block _ _ | .passage block _ => some block
  | .gap => none

def parts : Shown → List Shown
  | .own _ _ below | .passage _ below => below
  | .gap => []

end Shown

/-- The users whose mentions are rendered with a block of this kind itself. Code and equations show
their text as it is. -/
def renderedUsers : Kind → List String
  | .text .code _ | .text .equation _ => []
  | kind => Mention.mentionedBy kind

def Shown.users : Shown → List String
  | .own block _ _ => renderedUsers block.kind
  | .passage _ _ | .gap => []

inductive Occurs (plan : List Shown) : Shown → Prop
  | top {shown : Shown} (mem : shown ∈ plan) : Occurs plan shown
  | part {above shown : Shown} (occurs : Occurs plan above) (mem : shown ∈ above.parts) :
      Occurs plan shown

theorem Occurs.mono {plan more : List Shown} (sub : plan ⊆ more) {shown : Shown}
    (occurs : Occurs plan shown) : Occurs more shown := by
  induction occurs with
  | top mem => exact .top (sub mem)
  | part _ mem ih => exact .part ih mem

theorem Occurs.of_parts {plan : List Shown} {above shown : Shown} (mem : above ∈ plan)
    (occurs : Occurs above.parts shown) : Occurs plan shown := by
  induction occurs with
  | top inside => exact .part (.top mem) inside
  | part _ inside ih => exact .part ih inside

def Shows (forest : Forest) (roots : List BlockId) (block : Block) : Prop :=
  ∃ shown, Occurs (planRoots forest roots).1 shown ∧ shown.block? = some block

def RendersUser (forest : Forest) (roots : List BlockId) (userId : String) : Prop :=
  ∃ shown, Occurs (planRoots forest roots).1 shown ∧ userId ∈ shown.users

/-! ## Where the parts come from -/

/-- A part that stands for an existing block under one of the ids, as do the parts below it for the
ids that the block leads to. -/
inductive Stems (forest : Forest) : List BlockId → Shown → Prop
  | own {ids : List BlockId} {id : BlockId} {block : Block} {ordinal : Nat} {below : List Shown}
      (mem : id ∈ ids) (found : forest.get? id = some block)
      (rest : ∀ shown ∈ below, Stems forest (Mention.below block) shown) :
      Stems forest ids (.own block ordinal below)
  | passage {ids : List BlockId} {id : BlockId} {block : Block} {below : List Shown}
      (mem : id ∈ ids) (found : forest.get? id = some block)
      (rest : ∀ shown ∈ below, Stems forest (Mention.below block) shown) :
      Stems forest ids (.passage block below)
  | gap {ids : List BlockId} : Stems forest ids .gap

structure Sound (forest : Forest) (plan : Planner) : Prop where
  siblings : ∀ ids state, ∀ shown ∈ (plan.siblings ids state).1, Stems forest ids shown
  columns : ∀ ids state, ∀ shown ∈ (plan.columns ids state).1, Stems forest ids shown
  cell : ∀ id state, Stems forest [id] (plan.cell id state).1

section

variable {forest : Forest} {plan : Planner}

theorem Stems.mono {ids more : List BlockId} (sub : ids ⊆ more) {shown : Shown}
    (stems : Stems forest ids shown) : Stems forest more shown := by
  cases stems with
  | own mem found rest => exact .own (sub mem) found rest
  | passage mem found rest => exact .passage (sub mem) found rest
  | gap => exact .gap

theorem Stems.leads {ids : List BlockId} {above shown : Shown} (stems : Stems forest ids above)
    (mem : shown ∈ above.parts) :
    ∃ block ∈ above.block?, Stems forest (Mention.below block) shown := by
  cases stems with
  | own _ _ rest => exact ⟨_, rfl, rest shown mem⟩
  | passage _ _ rest => exact ⟨_, rfl, rest shown mem⟩
  | gap => cases mem

theorem Stems.found {ids : List BlockId} {shown : Shown} (stems : Stems forest ids shown)
    {block : Block} (isBlock : shown.block? = some block) :
    ∃ id ∈ ids, forest.get? id = some block := by
  cases stems with
  | own mem found _ => exact ⟨_, mem, isBlock ▸ found⟩
  | passage mem found _ => exact ⟨_, mem, isBlock ▸ found⟩
  | gap => cases isBlock

theorem Occurs.stems {shown : Shown} {ids : List BlockId} {tops : List Shown}
    (stems : ∀ top ∈ tops, Stems forest ids top) (occurs : Occurs tops shown) :
    ∃ ids, Stems forest ids shown := by
  induction occurs with
  | top mem => exact ⟨ids, stems _ mem⟩
  | part _ mem ih =>
      obtain ⟨ids, above⟩ := ih
      obtain ⟨block, _, below⟩ := above.leads mem
      exact ⟨_, below⟩

theorem stems_planCells (sound : Sound forest plan) {ids : List BlockId}
    (cells : List (Option BlockId)) (listed : ∀ id, some id ∈ cells → id ∈ ids) (state : State) :
    ∀ shown ∈ (planCells plan cells state).1, Stems forest ids shown := by
  induction cells generalizing state with
  | nil => exact fun shown mem => absurd mem List.not_mem_nil
  | cons cell cells ih =>
      have rest := ih fun id mem => listed id (List.mem_cons_of_mem _ mem)
      intro shown mem
      cases cell with
      | none =>
          rcases List.mem_cons.1 mem with rfl | mem
          · exact .gap
          · exact rest _ shown mem
      | some id =>
          rcases List.mem_cons.1 mem with rfl | mem
          · exact (sound.cell id state).mono (by simp [listed id])
          · exact rest _ shown mem

theorem stems_planBelow (sound : Sound forest plan) (block : Block) (state : State) :
    ∀ shown ∈ (planBelow plan block state).1, Stems forest (Mention.below block) shown := by
  have children : block.children ⊆ Mention.below block := List.subset_append_left _ _
  unfold planBelow
  cases way : descent block.kind with
  | stop => exact fun shown mem => absurd mem List.not_mem_nil
  | children => exact fun shown mem => (sound.siblings _ state shown mem).mono children
  | columns => exact fun shown mem => (sound.columns _ state shown mem).mono children
  | cells ids =>
      apply stems_planCells sound
      intro id mem
      apply List.mem_append_right
      unfold descent at way
      split at way <;> cases way
      next property table =>
        rw [table]
        exact TableProperty.mem_cells_of_mem_rows mem

theorem stems_planBlock (sound : Sound forest plan) {ids : List BlockId} {id : BlockId}
    {block : Block} (mem : id ∈ ids) (found : forest.get? id = some block) (ordinal : Nat)
    (state : State) : Stems forest ids (planBlock plan ordinal block state).1 :=
  .own mem found (stems_planBelow sound block state)

theorem stems_planSiblings (sound : Sound forest plan) (before : Nat) (ids : List BlockId)
    (state : State) :
    ∀ shown ∈ (planSiblings forest plan before ids state).1, Stems forest ids shown := by
  induction ids generalizing before state with
  | nil => exact fun shown mem => absurd mem List.not_mem_nil
  | cons id ids ih =>
      intro shown mem
      have later : ∀ before state, shown ∈ (planSiblings forest plan before ids state).1 →
          Stems forest (id :: ids) shown :=
        fun before state mem => (ih before state shown mem).mono (List.subset_cons_self id ids)
      rw [planSiblings] at mem
      cases found : forest.get? id with
      | none =>
          rw [found] at mem
          exact later _ _ mem
      | some block =>
          rw [found] at mem
          simp only at mem
          split at mem
          · exact later _ _ mem
          · rcases List.mem_cons.1 mem with rfl | mem
            · exact stems_planBlock sound List.mem_cons_self found _ _
            · exact later _ _ mem

theorem stems_planColumns (sound : Sound forest plan) (ids : List BlockId) (state : State) :
    ∀ shown ∈ (planColumns forest plan ids state).1, Stems forest ids shown := by
  induction ids generalizing state with
  | nil => exact fun shown mem => absurd mem List.not_mem_nil
  | cons id ids ih =>
      intro shown mem
      have later : ∀ state, shown ∈ (planColumns forest plan ids state).1 →
          Stems forest (id :: ids) shown :=
        fun state mem => (ih state shown mem).mono (List.subset_cons_self id ids)
      rw [planColumns] at mem
      cases found : forest.get? id with
      | none =>
          rw [found] at mem
          exact later _ mem
      | some block =>
          rw [found] at mem
          simp only at mem
          split at mem
          · exact later _ mem
          · rcases List.mem_cons.1 mem with rfl | mem
            · have inner := sound.siblings block.children
                { state with visited := block.id :: state.visited }
              exact .passage List.mem_cons_self found fun shown mem =>
                (inner shown mem).mono (List.subset_append_left _ _)
            · exact later _ mem

theorem stems_planCell (sound : Sound forest plan) (id : BlockId) (state : State) :
    Stems forest [id] (planCell forest plan id state).1 := by
  unfold planCell
  cases found : forest.get? id with
  | none => exact .gap
  | some cell =>
      simp only
      split
      · exact stems_planBlock sound List.mem_cons_self found 0 state
      · exact .passage List.mem_cons_self found fun shown mem =>
          (sound.siblings cell.children state shown mem).mono (List.subset_append_left _ _)

theorem sound_planner (levels : Nat) : Sound forest (planner forest levels) := by
  induction levels with
  | zero =>
      exact ⟨fun _ _ _ mem => absurd mem List.not_mem_nil,
        fun _ _ _ mem => absurd mem List.not_mem_nil, fun _ _ => .gap⟩
  | succ levels ih =>
      exact ⟨stems_planSiblings ih 0, stems_planColumns ih, stems_planCell ih⟩

theorem stems_planRoots (roots : List BlockId) :
    ∀ shown ∈ (planRoots forest roots).1, Stems forest roots shown :=
  (sound_planner maxDepth).siblings roots {}

end

/-! ## What the text depends on -/

def Alike (options : ConvertOptions) (cache other : Mention.Cache) (userId : String) : Prop :=
  cache.render options.expandMentions userId = other.render options.expandMentions userId

section

variable {forest : Forest} {options : ConvertOptions} {cache other : Mention.Cache}

theorem renderBody?_congr {kind : Kind}
    (agree : ∀ userId ∈ Mention.mentionedBy kind, Alike options cache other userId) :
    renderBody? ⟨options, cache⟩ kind.body? = renderBody? ⟨options, other⟩ kind.body? := by
  cases carried : kind.body? with
  | none => rfl
  | some body =>
      apply List.flatMap_congr
      intro element mem
      cases element with
      | mentionUser userId =>
          have mentioned := Mention.mem_mentionedBy.2 ⟨body, carried, mem⟩
          exact congrArg String.toList (agree userId mentioned)
      | _ => rfl

theorem blockText_congr (ordinal : Nat) (block : Block) (below : List Piece)
    (agree : ∀ userId ∈ renderedUsers block.kind, Alike options cache other userId) :
    blockText forest ⟨options, cache⟩ ordinal block below =
      blockText forest ⟨options, other⟩ ordinal block below := by
  obtain ⟨id, kind, children⟩ := block
  cases kind with
  | text role body =>
      cases role with
      | code | equation => rfl
      | _ =>
          have text : renderBody? ⟨options, cache⟩ body = renderBody? ⟨options, other⟩ body :=
            renderBody?_congr agree
          simp only [blockText, renderBlock, renderText, renderTitle, text]
  | heading level body =>
      have text : renderBody? ⟨options, cache⟩ body = renderBody? ⟨options, other⟩ body :=
        renderBody?_congr agree
      simp only [blockText, renderBlock, renderHeading, text]
  | table property => cases property <;> rfl
  | isv component => cases component <;> rfl
  | _ => rfl

theorem siblingText_congr (frame : Frame) (ordinal : Nat) (block : Block) (below : List Piece)
    (agree : ∀ userId ∈ renderedUsers block.kind, Alike options cache other userId) :
    siblingText forest ⟨options, cache⟩ frame ordinal block below =
      siblingText forest ⟨options, other⟩ frame ordinal block below := by
  unfold siblingText
  split
  · next body kind children =>
      rw [kind] at agree
      exact renderBody?_congr agree
  · exact blockText_congr ordinal block below agree

mutual

theorem piece_congr (frame : Frame) (shown : Shown)
    (agree : ∀ part, Occurs [shown] part → ∀ userId ∈ part.users,
      Alike options cache other userId) :
    shown.piece forest ⟨options, cache⟩ frame = shown.piece forest ⟨options, other⟩ frame := by
  have inside : ∀ part, Occurs shown.parts part → ∀ userId ∈ part.users,
      Alike options cache other userId :=
    fun part occurs => agree part (occurs.of_parts List.mem_cons_self)
  cases shown with
  | own block ordinal below =>
      have own := agree _ (.top List.mem_cons_self)
      simp only [Shown.piece, pieces_congr (innerFrame block.kind) below inside,
        siblingText_congr frame ordinal block _ own]
  | passage block below =>
      simp only [Shown.piece, pieces_congr .plain below inside]
  | gap => rfl

theorem pieces_congr (frame : Frame) (plan : List Shown)
    (agree : ∀ part, Occurs plan part → ∀ userId ∈ part.users,
      Alike options cache other userId) :
    Shown.pieces forest ⟨options, cache⟩ frame plan =
      Shown.pieces forest ⟨options, other⟩ frame plan := by
  cases plan with
  | nil => rfl
  | cons shown more =>
      have first := piece_congr frame shown fun part occurs =>
        agree part (occurs.mono (by simp))
      have rest := pieces_congr frame more fun part occurs =>
        agree part (occurs.mono (List.subset_cons_self shown more))
      rw [Shown.pieces, Shown.pieces, first, rest]

end

theorem document_eq_of_alike {roots : List BlockId}
    (alike : ∀ userId, RendersUser forest roots userId → Alike options cache other userId) :
    document forest ⟨options, cache⟩ roots = document forest ⟨options, other⟩ roots := by
  have same : renderRoots forest ⟨options, cache⟩ roots =
      renderRoots forest ⟨options, other⟩ roots := by
    rw [renderRoots_eq_layout, renderRoots_eq_layout,
      pieces_congr .plain _ fun part occurs userId mem => alike userId ⟨part, occurs, mem⟩]
  rw [document, document, same]

theorem document_eq_of_agree {roots : List BlockId}
    (agree : ∀ userId, RendersUser forest roots userId →
      cache.get? userId = other.get? userId) :
    document forest ⟨options, cache⟩ roots = document forest ⟨options, other⟩ roots :=
  document_eq_of_alike fun userId renders => by
    simp only [Alike, Mention.Cache.render, agree userId renders]

theorem rendersUser_of_document_ne {roots : List BlockId} {userId : String}
    (elsewhere : ∀ user, user ≠ userId → cache.get? user = other.get? user)
    (differs : document forest ⟨options, cache⟩ roots ≠ document forest ⟨options, other⟩ roots) :
    RendersUser forest roots userId := by
  by_contra hidden
  apply differs
  apply document_eq_of_agree
  intro user renders
  apply elsewhere
  rintro rfl
  exact hidden renders

end

end Blockmark.Render
