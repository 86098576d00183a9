import Blockmark.Proofs.Render.Labels
import Blockmark.Proofs.Render.Tracking

/-!
# Rendering without guards

Plain recursive rendering: it follows what blocks list wherever that leads, remembers no block and
counts no level, so that it need not come to an end. The rules for the kinds of blocks are those of
`renderBlock`, with what is rendered below a block at hand.

Main statements: `Renders.unique`, `renders_outline`.
-/

namespace Blockmark.Render.Unguarded

def joinLabels (texts : List String) : List Char :=
  (String.intercalate "\n" texts).toList.map fun c => if c = '\n' then ' ' else c

def OwnText (forest : Forest) (setting : Setting) (frame : Frame) (ordinal : Nat) (block : Block)
    (below : List Piece) (text : List Char) : Prop :=
  match block.kind with
  | .image image => ∃ labels, forest.Labels block.children labels ∧
      text = renderImage setting (joinLabels labels) image
  | _ => text = siblingText forest setting frame ordinal block below

/-- What is rendered for some blocks, with the tokens of all images in it. -/
inductive Renders (forest : Forest) (setting : Setting) :
    Frame → Walk → List Piece → List String → Prop
  | siblings_nil {frame : Frame} {before : Nat} :
      Renders forest setting frame (.siblings before []) [] []
  | columns_nil {frame : Frame} : Renders forest setting frame (.columns []) [] []
  | cells_nil {frame : Frame} : Renders forest setting frame (.cells []) [] []
  | missing {frame : Frame} {before : Nat} {id : BlockId} {ids : List BlockId}
      {pieces : List Piece} {tokens : List String} (missing : forest.get? id = none)
      (behind : Renders forest setting frame (.siblings before ids) pieces tokens) :
      Renders forest setting frame (.siblings before (id :: ids)) pieces tokens
  | sibling {frame : Frame} {before : Nat} {id : BlockId} {ids : List BlockId} {block : Block}
      {inner pieces : List Piece} {text : List Char} {innerTokens tokens : List String}
      (found : forest.get? id = some block)
      (inside : Renders forest setting (innerFrame block.kind) (.below block) inner innerTokens)
      (own : OwnText forest setting frame (ordinalBehind before block.kind) block inner text)
      (behind : Renders forest setting frame (.siblings (ordinalBehind before block.kind) ids)
        pieces tokens) :
      Renders forest setting frame (.siblings before (id :: ids))
        (⟨lineGroup frame block.kind, text⟩ :: pieces)
        ((ownToken? block.kind).toList ++ innerTokens ++ tokens)
  | noColumn {frame : Frame} {id : BlockId} {ids : List BlockId} {pieces : List Piece}
      {tokens : List String} (other : column? forest id = none)
      (behind : Renders forest setting frame (.columns ids) pieces tokens) :
      Renders forest setting frame (.columns (id :: ids)) pieces tokens
  | column {frame : Frame} {id : BlockId} {ids : List BlockId} {block : Block}
      {inner pieces : List Piece} {innerTokens tokens : List String}
      (found : column? forest id = some block)
      (inside : Renders forest setting .plain (.siblings 0 block.children) inner innerTokens)
      (behind : Renders forest setting frame (.columns ids) pieces tokens) :
      Renders forest setting frame (.columns (id :: ids)) (⟨none, joinShown inner⟩ :: pieces)
        (innerTokens ++ tokens)
  | gap {frame : Frame} {slot : Option BlockId} {slots : List (Option BlockId)}
      {pieces : List Piece} {tokens : List String} (empty : slot.bind forest.get? = none)
      (behind : Renders forest setting frame (.cells slots) pieces tokens) :
      Renders forest setting frame (.cells (slot :: slots)) (⟨none, []⟩ :: pieces) tokens
  | cell {frame : Frame} {slot : Option BlockId} {slots : List (Option BlockId)} {block : Block}
      {inner pieces : List Piece} {text : List Char} {innerTokens tokens : List String}
      (found : slot.bind forest.get? = some block) (childless : block.children.isEmpty = true)
      (inside : Renders forest setting (innerFrame block.kind) (.below block) inner innerTokens)
      (own : OwnText forest setting frame 0 block inner text)
      (behind : Renders forest setting frame (.cells slots) pieces tokens) :
      Renders forest setting frame (.cells (slot :: slots))
        (⟨lineGroup frame block.kind, text⟩ :: pieces)
        ((ownToken? block.kind).toList ++ innerTokens ++ tokens)
  | passage {frame : Frame} {slot : Option BlockId} {slots : List (Option BlockId)}
      {block : Block} {inner pieces : List Piece} {innerTokens tokens : List String}
      (found : slot.bind forest.get? = some block) (inhabited : block.children.isEmpty = false)
      (inside : Renders forest setting .plain (.siblings 0 block.children) inner innerTokens)
      (behind : Renders forest setting frame (.cells slots) pieces tokens) :
      Renders forest setting frame (.cells (slot :: slots)) (⟨none, joinShown inner⟩ :: pieces)
        (innerTokens ++ tokens)

def assemble (pieces : List Piece) (tokens : List String) : Exported :=
  let text := joinShown pieces
  { markdown := if text.isEmpty then "" else String.ofList (text ++ ['\n'])
    imageTokens := addTokens [] tokens }

def Exports (forest : Forest) (setting : Setting) (roots : List BlockId) (exported : Exported) :
    Prop :=
  ∃ pieces tokens, Renders forest setting .plain (.siblings 0 roots) pieces tokens ∧
    exported = assemble pieces tokens

variable {forest : Forest} {setting : Setting}

/-! ## One result at most -/

theorem OwnText.unique {frame : Frame} {ordinal : Nat} {block : Block} {below : List Piece}
    {text other : List Char} (own : OwnText forest setting frame ordinal block below text)
    (own' : OwnText forest setting frame ordinal block below other) : text = other := by
  obtain ⟨id, kind, children⟩ := block
  cases kind with
  | image image =>
      obtain ⟨labels, read, rfl⟩ := own
      obtain ⟨labels', read', rfl⟩ := own'
      rw [read.unique read']
  | _ => exact Eq.trans own (Eq.symm own')

theorem Renders.unique {frame : Frame} {way : Walk} {pieces others : List Piece}
    {tokens otherTokens : List String} (renders : Renders forest setting frame way pieces tokens)
    (other : Renders forest setting frame way others otherTokens) :
    pieces = others ∧ tokens = otherTokens := by
  induction renders generalizing others otherTokens with
  | siblings_nil | columns_nil | cells_nil =>
      cases other
      exact ⟨rfl, rfl⟩
  | missing missing _ ih =>
      cases other with
      | missing _ behind => exact ih behind
      | sibling found => cases missing.symm.trans found
  | sibling found _ own _ ihInside ihBehind =>
      cases other with
      | missing missing => cases missing.symm.trans found
      | sibling found' inside own' behind =>
          obtain rfl := Option.some.inj (found.symm.trans found')
          obtain ⟨rfl, rfl⟩ := ihInside inside
          obtain ⟨rfl, rfl⟩ := ihBehind behind
          exact ⟨by rw [own.unique own'], rfl⟩
  | noColumn none _ ih =>
      cases other with
      | noColumn _ behind => exact ih behind
      | column found => cases none.symm.trans found
  | column found _ _ ihInside ihBehind =>
      cases other with
      | noColumn none => cases none.symm.trans found
      | column found' inside behind =>
          obtain rfl := Option.some.inj (found.symm.trans found')
          obtain ⟨rfl, rfl⟩ := ihInside inside
          obtain ⟨rfl, rfl⟩ := ihBehind behind
          exact ⟨rfl, rfl⟩
  | gap empty _ ih =>
      cases other with
      | gap _ behind =>
          obtain ⟨rfl, rfl⟩ := ih behind
          exact ⟨rfl, rfl⟩
      | cell found | passage found => cases empty.symm.trans found
  | cell found childless _ own _ ihInside ihBehind =>
      cases other with
      | gap empty => cases empty.symm.trans found
      | cell found' _ inside own' behind =>
          obtain rfl := Option.some.inj (found.symm.trans found')
          obtain ⟨rfl, rfl⟩ := ihInside inside
          obtain ⟨rfl, rfl⟩ := ihBehind behind
          exact ⟨by rw [own.unique own'], rfl⟩
      | passage found' inhabited =>
          obtain rfl := Option.some.inj (found.symm.trans found')
          cases childless.symm.trans inhabited
  | passage found inhabited _ _ ihInside ihBehind =>
      cases other with
      | gap empty => cases empty.symm.trans found
      | cell found' childless =>
          obtain rfl := Option.some.inj (found.symm.trans found')
          cases childless.symm.trans inhabited
      | passage found' _ inside behind =>
          obtain rfl := Option.some.inj (found.symm.trans found')
          obtain ⟨rfl, rfl⟩ := ihInside inside
          obtain ⟨rfl, rfl⟩ := ihBehind behind
          exact ⟨rfl, rfl⟩

/-! ## Outlines are what is rendered -/

/-- The texts under an image that shows itself are its alternative text. -/
def LabelsAgree (forest : Forest) (entry : Entry) : Prop :=
  ∀ block image, forest.get? entry.id = some block → Walk.at entry.spot block = .below block →
    block.kind = .image image → ∃ labels, forest.Labels block.children labels ∧
      joinLabels labels = altText forest block

section

variable {sub : Walk → List Shown}

/-- What is rendered below some blocks is the layout of the parts that `sub` gives for it. -/
def Lays (forest : Forest) (setting : Setting) (sub : Walk → List Shown) (frame : Frame)
    (way : Walk) : Prop :=
  Renders forest setting frame way (Shown.pieces forest setting frame (sub way))
    (Shown.tokensOfAll (sub way))

theorem ownText_siblingText {frame : Frame} {ordinal : Nat} {block : Block} {below : List Piece}
    (labels : ∀ image, block.kind = .image image → ∃ labels,
      forest.Labels block.children labels ∧ joinLabels labels = altText forest block) :
    OwnText forest setting frame ordinal block below
      (siblingText forest setting frame ordinal block below) := by
  unfold OwnText
  split
  · next image kind =>
    obtain ⟨labels, read, same⟩ := labels image kind
    refine ⟨labels, read, ?_⟩
    rw [same]
    unfold siblingText
    split
    · next kind' _ => rw [kind] at kind'; cases kind'
    · simp only [blockText, renderBlock, kind]
  · rfl

structure Met (forest : Forest) (setting : Setting) (sub : Walk → List Shown) (entry : Entry) :
    Prop where
  labels : LabelsAgree forest entry
  lays : ∀ top, forest.get? entry.id = some top → ∀ frame,
    Lays forest setting sub frame (.at entry.spot top)

theorem Met.own {entry : Entry} (met : Met forest setting sub entry) {top : Block}
    (found : forest.get? entry.id = some top) (itself : Walk.at entry.spot top = .below top)
    (frame : Frame) (ordinal : Nat) (below : List Piece) :
    OwnText forest setting frame ordinal top below
      (siblingText forest setting frame ordinal top below) :=
  ownText_siblingText fun image kind => met.labels top image found itself kind

theorem renders_siblings {frame : Frame} (before : Nat) (ids : List BlockId)
    (met : ∀ entry ∈ forest.entries .sibling ids, Met forest setting sub entry) :
    Renders forest setting frame (.siblings before ids)
      (Shown.pieces forest setting frame (outlineSiblings forest sub before ids))
      (Shown.tokensOfAll (outlineSiblings forest sub before ids)) := by
  induction ids generalizing before with
  | nil => exact .siblings_nil
  | cons id ids ih =>
      rw [outlineSiblings]
      cases found : forest.get? id with
      | none =>
          rw [Forest.entries_cons_missing found] at met
          exact .missing found (ih before met)
      | some top =>
          rw [Forest.entries_cons_found found] at met
          have first := met _ List.mem_cons_self
          have rest := ih (ordinalBehind before top.kind) fun entry mem =>
            met entry (List.mem_cons_of_mem _ mem)
          exact .sibling found (first.lays top found _) (first.own found rfl ..) rest

theorem renders_columns {frame : Frame} (ids : List BlockId)
    (met : ∀ entry ∈ (Walk.columns ids).entries forest, Met forest setting sub entry) :
    Renders forest setting frame (.columns ids)
      (Shown.pieces forest setting frame (outlineColumns forest sub ids))
      (Shown.tokensOfAll (outlineColumns forest sub ids)) := by
  induction ids with
  | nil => exact .columns_nil
  | cons id ids ih =>
      rw [outlineColumns, List.filterMap_cons]
      cases column : column? forest id with
      | none => exact .noColumn column (ih (by simpa [Walk.entries, column] using met))
      | some block =>
          obtain ⟨found, isColumn⟩ := column?_eq_some.1 column
          have split : (Walk.columns (id :: ids)).entries forest =
              ⟨.sibling, id⟩ :: (Walk.columns ids).entries forest := by
            simp [Walk.entries, column, Forest.entries_cons_found found]
          rw [split] at met
          have first := (met _ List.mem_cons_self).lays block found .plain
          rw [Walk.at, walk_below_column isColumn] at first
          exact .column column first (ih fun entry mem => met entry (List.mem_cons_of_mem _ mem))

theorem renders_cells {frame : Frame} (cells : List (Option BlockId))
    (met : ∀ entry ∈ (Walk.cells cells).entries forest, Met forest setting sub entry) :
    Renders forest setting frame (.cells cells)
      (Shown.pieces forest setting frame (cells.map (outlineCell forest sub)))
      (Shown.tokensOfAll (cells.map (outlineCell forest sub))) := by
  have known : ∀ id, some id ∈ cells → ∀ block, forest.get? id = some block →
      Met forest setting sub ⟨.cell, id⟩ := fun id mem block found =>
    met _ (Forest.mem_entries.2 ⟨rfl, by simpa using mem, by simp [Forest.contains, found]⟩)
  clear met
  induction cells with
  | nil => exact .cells_nil
  | cons slot cells ih =>
      have rest := ih fun id mem => known id (List.mem_cons_of_mem _ mem)
      rw [List.map_cons, outlineCell]
      cases slotted : slot.bind forest.get? with
      | none => exact .gap slotted rest
      | some cell =>
          obtain ⟨id, rfl, found⟩ := Option.bind_eq_some_iff.1 slotted
          have first := known id List.mem_cons_self cell found
          dsimp only
          split
          · next childless =>
            have itself : Walk.at .cell cell = .below cell := if_pos childless
            exact .cell slotted childless (itself ▸ first.lays cell found _)
              (first.own found itself ..) rest
          · next inhabited =>
            have through : Walk.at .cell cell = .siblings 0 cell.children := if_neg inhabited
            exact .passage slotted (by simpa using inhabited)
              (through ▸ first.lays cell found .plain) rest

theorem renders_outlineWalk {frame : Frame} (way : Walk)
    (met : ∀ entry ∈ way.entries forest, Met forest setting sub entry) :
    Renders forest setting frame way
      (Shown.pieces forest setting frame (outlineWalk forest sub way))
      (Shown.tokensOfAll (outlineWalk forest sub way)) := by
  cases way with
  | siblings before ids => exact renders_siblings before ids met
  | columns ids => exact renders_columns ids met
  | cells cells => exact renders_cells cells met

end

/-! ## Enough levels -/

theorem outline_zero_eq (sub : Walk → List Shown) {way : Walk}
    (empty : way.entries forest = []) :
    outline forest 0 way = outlineWalk forest sub way := by
  cases way with
  | siblings before ids =>
      induction ids generalizing before with
      | nil => rfl
      | cons id ids ih =>
          cases found : forest.get? id with
          | none =>
              rw [Walk.entries, Forest.entries_cons_missing found] at empty
              simpa only [outline, outlineWalk, outlineSiblings, found] using ih before empty
          | some block =>
              rw [Walk.entries, Forest.entries_cons_found found] at empty
              cases empty
  | columns ids =>
      have none : ids.filterMap (column? forest) = [] := by
        rw [List.filterMap_eq_nil_iff]
        intro id mem
        by_contra some
        obtain ⟨column, found⟩ := Option.ne_none_iff_exists'.1 some
        have there : (⟨.sibling, id⟩ : Entry) ∈ (Walk.columns ids).entries forest :=
          Forest.mem_entries.2 ⟨rfl, by simp [mem, found],
            by simp [Forest.contains, (column?_eq_some.1 found).1]⟩
        rw [empty] at there
        cases there
      simp only [outline, outlineWalk, outlineColumns, none, List.map_nil]
  | cells cells =>
      refine List.map_congr_left fun slot mem => ?_
      cases slotted : slot.bind forest.get? with
      | none => simp only [outlineCell, slotted]
      | some cell =>
          obtain ⟨id, rfl, found⟩ := Option.bind_eq_some_iff.1 slotted
          have there : (⟨.cell, id⟩ : Entry) ∈ (Walk.cells cells).entries forest :=
            Forest.mem_entries.2 ⟨rfl, by simpa using mem, by simp [Forest.contains, found]⟩
          rw [empty] at there
          cases there

theorem renders_outline (setting : Setting) (levels : Nat) (way : Walk)
    (fits : level (meets forest) levels (way.entries forest) = [])
    (labels : ∀ entry ∈ unfold (meets forest) levels (way.entries forest),
      LabelsAgree forest entry)
    (frame : Frame) : Lays forest setting (outline forest levels) frame way := by
  induction levels generalizing way frame with
  | zero =>
      -- Nothing is met any more, so the outline of no levels is that of any number of levels.
      have empty : way.entries forest = [] := fits
      rw [Lays, outline_zero_eq (outline forest 0) empty]
      exact renders_outlineWalk way (by simp [empty])
  | succ levels ih =>
      refine renders_outlineWalk way fun entry mem => ⟨?_, ?_⟩
      · exact labels entry (mem_unfold_of_mem mem)
      · intro top found frame
        have inside : ∀ other ∈ unfold (meets forest) levels (meets forest entry),
            other ∈ unfold (meets forest) (levels + 1) (way.entries forest) :=
          fun other below => mem_unfold_below mem below
        rw [meets_eq found] at inside
        refine ih _ ?_ (fun other below => labels other (inside other below)) frame
        rw [← meets_eq found]
        exact level_below_eq_nil fits mem

theorem exports_iff {roots : List BlockId} (levels : Nat)
    (fits : level (meets forest) levels (forest.entries .sibling roots) = [])
    (labels : ∀ entry ∈ unfold (meets forest) levels (forest.entries .sibling roots),
      LabelsAgree forest entry) (exported : Exported) :
    Exports forest setting roots exported ↔ exported =
      assemble (Shown.pieces forest setting .plain (outline forest levels (.siblings 0 roots)))
        (Shown.tokensOfAll (outline forest levels (.siblings 0 roots))) := by
  have plain := renders_outline setting levels (.siblings 0 roots) fits labels .plain
  constructor
  · rintro ⟨pieces, tokens, renders, rfl⟩
    obtain ⟨rfl, rfl⟩ := renders.unique plain
    rfl
  · rintro rfl
    exact ⟨_, _, plain, rfl⟩

end Blockmark.Render.Unguarded
