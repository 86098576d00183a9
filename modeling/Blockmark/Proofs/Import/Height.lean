import Blockmark.Import.Block

/-!
# Heights of drafts

How many blocks of a draft stand one below the other. A syntax tree that is imported at a depth
gives drafts that end at most three blocks below the last depth: that is a table with its cells
and their texts.

Main statement: `low_importBlock`.
-/

namespace Blockmark.Import

open Markdown

mutual

def Draft.height : Draft → Nat
  | .mk _ _ _ children => Draft.heightOfAll children + 1

def Draft.heightOfAll : List Draft → Nat
  | [] => 0
  | draft :: drafts => max draft.height (Draft.heightOfAll drafts)

end

def Low (bound : Nat) (drafts : List Draft) : Prop :=
  ∀ draft ∈ drafts, draft.height ≤ bound

theorem heightOfAll_le {bound : Nat} {drafts : List Draft} (low : Low bound drafts) :
    Draft.heightOfAll drafts ≤ bound := by
  induction drafts with
  | nil => exact Nat.zero_le _
  | cons draft drafts ih =>
      rw [Draft.heightOfAll]
      exact Nat.max_le.2 ⟨low draft List.mem_cons_self,
        ih fun other mem => low other (List.mem_cons_of_mem _ mem)⟩

theorem low_nil (bound : Nat) : Low bound [] := by
  simp [Low]

theorem Low.append {bound : Nat} {drafts more : List Draft} (first : Low bound drafts)
    (rest : Low bound more) : Low bound (drafts ++ more) := by
  intro draft mem
  exact (List.mem_append.1 mem).elim (first draft) (rest draft)

theorem Low.mono {bound more : Nat} {drafts : List Draft} (low : Low bound drafts)
    (le : bound ≤ more) : Low more drafts :=
  fun draft mem => Nat.le_trans (low draft mem) le

theorem Low.below {bound : Nat} {children : List Draft} (low : Low bound children)
    (numbering : Numbering) (kind : Kind) (table : Option RawTable) :
    Low (bound + 1) [.mk numbering kind table children] := by
  intro draft mem
  rw [List.mem_singleton] at mem
  subst mem
  exact Nat.succ_le_succ (heightOfAll_le low)

theorem low_leaf (kind : Kind) : Low 1 [.leaf kind] :=
  (low_nil 0).below _ kind none

/-! ## Leaves, images and tables -/

theorem low_importParagraph (options : ConvertOptions) (nodes : List Node) :
    Low 2 [importParagraph options nodes] := by
  have leaf (kind : Kind) : Low 2 [.leaf kind] := (low_leaf kind).mono (by decide)
  have image (url alt : String) : Low 2 [imageDraft options url alt] := by
    unfold imageDraft
    refine Low.below ?_ _ _ _
    split
    · exact low_nil 1
    · exact low_leaf _
  unfold importParagraph
  split
  · split
    · exact image _ _
    · exact leaf _
    · exact leaf _
  · exact leaf _

theorem low_quoteLeaves (options : ConvertOptions) (nodes : List Node) :
    Low 1 (quoteLeaves options nodes) := by
  intro draft mem
  obtain ⟨line, -, eq⟩ := List.mem_filterMap.1 mem
  dsimp only at eq
  split at eq
  · cases eq
  · exact low_leaf _ draft (by simpa [textLeaf] using eq.symm)

theorem low_calloutText (options : ConvertOptions) (marker : Admonition) :
    Low 1 (calloutText options marker) := by
  unfold calloutText
  dsimp only
  generalize TextBody.isEmpty _ = blank
  cases blank
  · exact low_leaf _
  · exact low_nil 1

theorem low_rowDrafts (alignments : List (Option Align)) (cells : List CellContent) :
    Low 2 (rowDrafts alignments cells) := by
  have cell (align : Option Align) (content : CellContent) : Low 2 [cellDraft align content] :=
    (low_leaf _).below _ _ _
  induction cells generalizing alignments with
  | nil => cases alignments <;> exact low_nil 2
  | cons content cells ih =>
      cases alignments with
      | nil => exact (cell none content).append (ih [])
      | cons align alignments => exact (cell align content).append (ih alignments)

theorem low_tableDraft (alignments : List (Option Align)) (columns : Nat)
    (grid : List (List CellContent)) : Low 3 [tableDraft alignments columns grid] := by
  have cells : Low 2 (grid.flatMap (rowDrafts alignments)) := by
    intro cell mem
    obtain ⟨row, -, mem⟩ := List.mem_flatMap.1 mem
    exact low_rowDrafts alignments row cell mem
  exact cells.below _ _ _

theorem low_importTable (options : ConvertOptions) (alignments : List (Option Align))
    (rows : List Node) : Low 3 (importTable options alignments rows) := by
  unfold importTable
  dsimp only
  split
  · exact low_nil 3
  · intro draft mem
    obtain ⟨segment, -, rfl⟩ := List.mem_map.1 mem
    exact low_tableDraft alignments _ _ _ (List.mem_singleton.2 rfl)

/-! ## All nodes -/

def room (depth : Nat) : Nat :=
  maxDepth + 2 - depth

theorem room_succ {depth : Nat} (inside : ¬ maxDepth ≤ depth) :
    room (depth + 1) + 1 = room depth := by
  unfold room
  omega

theorem three_le_room {depth : Nat} (inside : ¬ maxDepth ≤ depth) : 3 ≤ room depth := by
  unfold room
  omega

mutual

theorem low_importBlock (options : ConvertOptions) (depth : Nat) (node : Node) :
    Low (room depth) (importBlock options depth node) := by
  obtain ⟨kind, children⟩ := node
  by_cases inside : maxDepth ≤ depth
  · rw [importBlock_of_deep options inside]
    exact low_nil _
  · rw [importBlock_of_inside options inside]
    have three := three_le_room inside
    have leaf (kind : Kind) : Low (room depth) [.leaf kind] := (low_leaf kind).mono (by omega)
    have above {drafts : List Draft} (low : Low (room (depth + 1)) drafts) (kind : Kind) :
        Low (room depth) [.container kind drafts] :=
      room_succ inside ▸ low.below _ kind none
    cases kind with
    | heading level => exact leaf _
    | paragraph => exact (low_importParagraph options children).mono (by omega)
    | list ordered start =>
        exact (low_importItems options _ _ (depth + 1) children).mono (by unfold room; omega)
    | blockQuote =>
        dsimp only
        split
        · next marker _ =>
          refine above (Low.append ?_ (low_importBehindFirst options (depth + 1) children)) _
          exact (low_calloutText options marker).mono (by have := room_succ inside; omega)
        · exact above (low_importQuoted options (depth + 1) children
            (by have := room_succ inside; omega)) _
    | codeBlock info literal => exact leaf _
    | thematicBreak => exact leaf _
    | htmlBlock literal => exact leaf _
    | table alignments => exact (low_importTable options _ children).mono three
    | _ => exact low_nil _

theorem low_importBlocks (options : ConvertOptions) (depth : Nat) (nodes : List Node) :
    Low (room depth) (importBlocks options depth nodes) := by
  cases nodes with
  | nil => exact low_nil _
  | cons node nodes =>
      exact (low_importBlock options depth node).append (low_importBlocks options depth nodes)

theorem low_importItems (options : ConvertOptions) (ordered : Bool) (sequence : Option Nat)
    (depth : Nat) (nodes : List Node) :
    Low (room depth) (importItems options ordered sequence depth nodes) := by
  cases nodes with
  | nil => exact low_nil _
  | cons node nodes =>
      exact (low_importItem options ordered sequence depth node).append
        (low_importItems options ordered none depth nodes)

theorem low_importItem (options : ConvertOptions) (ordered : Bool) (sequence : Option Nat)
    (depth : Nat) (node : Node) :
    Low (room depth) (importItem options ordered sequence depth node) := by
  obtain ⟨kind, children⟩ := node
  rw [importItem]
  split
  · exact low_nil _
  · next inside =>
    split
    · exact low_nil _
    · exact room_succ inside ▸
        (low_importItemParts options (depth + 1) children).below .beforeChildren _ none

theorem low_importItemParts (options : ConvertOptions) (depth : Nat) (nodes : List Node) :
    Low (room depth) (importItemParts options depth nodes).2 := by
  cases nodes with
  | nil => exact low_nil _
  | cons node nodes =>
      have first := low_importBlock options depth node
      rw [importItemParts]
      split
      · exact low_importBlocks options depth nodes
      · cases blocks : importBlock options depth node with
        | nil => exact low_importItemParts options depth nodes
        | cons draft drafts =>
            exact (blocks ▸ first).append (low_importBlocks options depth nodes)

/-- The lines of a quote need room of their own, since they are made without a look at the
depth. -/
theorem low_importQuoted (options : ConvertOptions) (depth : Nat) (nodes : List Node)
    (line : 1 ≤ room depth) : Low (room depth) (importQuoted options depth nodes) := by
  cases nodes with
  | nil => exact low_nil _
  | cons node nodes =>
      rw [importQuoted]
      refine Low.append ?_ (low_importQuoted options depth nodes line)
      split
      · exact (low_quoteLeaves options node.children).mono line
      · split
        · exact low_nil _
        · exact low_importBlock options depth node

theorem low_importBehindFirst (options : ConvertOptions) (depth : Nat) (nodes : List Node) :
    Low (room depth) (importBehindFirst options depth nodes) := by
  cases nodes with
  | nil => exact low_nil _
  | cons node nodes => exact low_importBehind options depth nodes

theorem low_importBehind (options : ConvertOptions) (depth : Nat) (nodes : List Node) :
    Low (room depth) (importBehind options depth nodes) := by
  cases nodes with
  | nil => exact low_nil _
  | cons node nodes =>
      rw [importBehind]
      refine Low.append ?_ (low_importBehind options depth nodes)
      split
      · exact low_nil _
      · exact low_importBlock options depth node

end

theorem low_drafts (options : ConvertOptions) (nodes : List Node) :
    Low 102 (importBlocks options 0 nodes) :=
  low_importBlocks options 0 nodes

end Blockmark.Import
