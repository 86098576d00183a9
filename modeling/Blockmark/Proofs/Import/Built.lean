import Blockmark.Import.Document
import Blockmark.Proofs.Import.Grids
import Blockmark.Proofs.Render.Plan

/-!
# The drafts that an import builds

Whatever a syntax tree looks like, its blocks are built in four ways: leaves, images with their
alternative text, containers of which all children are shown, and tables. What holds of drafts
built in these ways holds of everything that is imported.

Main statement: `built_drafts`.
-/

namespace Blockmark.Import

open Markdown Render

def isTable : Kind → Bool
  | .table _ => true
  | _ => false

inductive Built (options : ConvertOptions) : Draft → Prop
  | leaf {kind : Kind} (other : isTable kind = false) : Built options (.leaf kind)
  | image {image : Option Image} {texts : List Draft}
      (leaves : ∀ text ∈ texts, ∃ role body, text = .leaf (.text role body)) :
      Built options (.wrapper (.image image) texts)
  | container {kind : Kind} {children : List Draft} (way : descent kind = .children)
      (below : ∀ child ∈ children, Built options child) : Built options (.container kind children)
  | table {alignments : List (Option Align)} {columns : Nat} {grid : List (List (List Node))}
      (some : columns ≠ 0) (full : ∀ row ∈ grid, row.length = columns) :
      Built options (tableDraft alignments columns (grid.map (·.map (contentOf options))))

def BuiltAll (options : ConvertOptions) (drafts : List Draft) : Prop :=
  ∀ draft ∈ drafts, Built options draft

section

variable {options : ConvertOptions}

theorem builtAll_nil : BuiltAll options [] := by
  simp [BuiltAll]

theorem BuiltAll.append {drafts more : List Draft} (first : BuiltAll options drafts)
    (rest : BuiltAll options more) : BuiltAll options (drafts ++ more) := by
  intro draft mem
  exact (List.mem_append.1 mem).elim (first draft) (rest draft)

theorem Built.only {draft : Draft} (built : Built options draft) : BuiltAll options [draft] := by
  intro other mem
  obtain rfl := List.mem_singleton.1 mem
  exact built

theorem BuiltAll.container {kind : Kind} {children : List Draft}
    (below : BuiltAll options children) (way : descent kind = .children) :
    BuiltAll options [.container kind children] :=
  (Built.container way below).only

end

/-! ## Leaves, images and tables -/

section

variable (options : ConvertOptions)

theorem built_imageDraft (url alt : String) : Built options (imageDraft options url alt) := by
  refine .image fun text mem => ?_
  split at mem
  · cases mem
  · exact ⟨.paragraph, _, List.mem_singleton.1 mem⟩

theorem built_importParagraph (nodes : List Node) :
    BuiltAll options [importParagraph options nodes] := by
  unfold importParagraph
  split
  · split
    · exact (built_imageDraft options _ _).only
    · exact (Built.leaf rfl).only
    · exact (Built.leaf rfl).only
  · exact (Built.leaf rfl).only

theorem built_quoteLeaves (nodes : List Node) : BuiltAll options (quoteLeaves options nodes) := by
  intro draft mem
  obtain ⟨line, -, eq⟩ := List.mem_filterMap.1 mem
  dsimp only at eq
  split at eq
  · cases eq
  · obtain rfl := Option.some.inj eq
    exact .leaf rfl

theorem built_calloutText (marker : Admonition) :
    BuiltAll options (calloutText options marker) := by
  unfold calloutText
  dsimp only
  generalize TextBody.isEmpty _ = blank
  cases blank
  · exact (Built.leaf rfl).only
  · exact builtAll_nil

theorem built_importTable (alignments : List (Option Align)) (rows : List Node) :
    BuiltAll options (importTable options alignments rows) := by
  rw [importTable_eq]
  split
  · exact builtAll_nil
  · next some =>
    intro draft mem
    obtain ⟨grid, inside, rfl⟩ := List.mem_map.1 mem
    exact .table some (length_of_mem_tableGrids inside)

end

/-! ## All nodes -/

theorem descent_itemKind (ordered : Bool) (sequence : Option Nat) (checkbox : Option Bool)
    (elements : List TextElement) :
    descent (itemKind ordered sequence checkbox elements) = .children := by
  cases checkbox with
  | none => cases ordered <;> rfl
  | some done => rfl

mutual

theorem built_importBlock (options : ConvertOptions) (depth : Nat) (node : Node) :
    BuiltAll options (importBlock options depth node) := by
  obtain ⟨kind, children⟩ := node
  by_cases inside : maxDepth ≤ depth
  · rw [importBlock_of_deep options inside]
    exact builtAll_nil
  · rw [importBlock_of_inside options inside]
    cases kind with
    | heading level => exact (Built.leaf rfl).only
    | paragraph => exact built_importParagraph options children
    | list ordered start => exact built_importItems options _ _ (depth + 1) children
    | blockQuote =>
        dsimp only
        split
        · next marker _ =>
          exact ((built_calloutText options marker).append
            (built_importBehindFirst options (depth + 1) children)).container rfl
        · exact (built_importQuoted options (depth + 1) children).container rfl
    | codeBlock info literal => exact (Built.leaf rfl).only
    | thematicBreak => exact (Built.leaf rfl).only
    | htmlBlock literal => exact (Built.leaf rfl).only
    | table alignments => exact built_importTable options _ children
    | _ => exact builtAll_nil

theorem built_importBlocks (options : ConvertOptions) (depth : Nat) (nodes : List Node) :
    BuiltAll options (importBlocks options depth nodes) := by
  cases nodes with
  | nil => exact builtAll_nil
  | cons node nodes =>
      exact (built_importBlock options depth node).append
        (built_importBlocks options depth nodes)

theorem built_importItems (options : ConvertOptions) (ordered : Bool) (sequence : Option Nat)
    (depth : Nat) (nodes : List Node) :
    BuiltAll options (importItems options ordered sequence depth nodes) := by
  cases nodes with
  | nil => exact builtAll_nil
  | cons node nodes =>
      exact (built_importItem options ordered sequence depth node).append
        (built_importItems options ordered none depth nodes)

theorem built_importItem (options : ConvertOptions) (ordered : Bool) (sequence : Option Nat)
    (depth : Nat) (node : Node) :
    BuiltAll options (importItem options ordered sequence depth node) := by
  obtain ⟨kind, children⟩ := node
  rw [importItem]
  split
  · exact builtAll_nil
  · split
    · exact builtAll_nil
    · exact (built_importItemParts options (depth + 1) children).container
        (descent_itemKind ..)

theorem built_importItemParts (options : ConvertOptions) (depth : Nat) (nodes : List Node) :
    BuiltAll options (importItemParts options depth nodes).2 := by
  cases nodes with
  | nil => exact builtAll_nil
  | cons node nodes =>
      have first := built_importBlock options depth node
      rw [importItemParts]
      split
      · exact built_importBlocks options depth nodes
      · cases blocks : importBlock options depth node with
        | nil => exact built_importItemParts options depth nodes
        | cons draft drafts =>
            exact (blocks ▸ first).append (built_importBlocks options depth nodes)

theorem built_importQuoted (options : ConvertOptions) (depth : Nat) (nodes : List Node) :
    BuiltAll options (importQuoted options depth nodes) := by
  cases nodes with
  | nil => exact builtAll_nil
  | cons node nodes =>
      rw [importQuoted]
      refine BuiltAll.append ?_ (built_importQuoted options depth nodes)
      split
      · exact built_quoteLeaves options node.children
      · split
        · exact builtAll_nil
        · exact built_importBlock options depth node

theorem built_importBehindFirst (options : ConvertOptions) (depth : Nat) (nodes : List Node) :
    BuiltAll options (importBehindFirst options depth nodes) := by
  cases nodes with
  | nil => exact builtAll_nil
  | cons node nodes => exact built_importBehind options depth nodes

theorem built_importBehind (options : ConvertOptions) (depth : Nat) (nodes : List Node) :
    BuiltAll options (importBehind options depth nodes) := by
  cases nodes with
  | nil => exact builtAll_nil
  | cons node nodes =>
      rw [importBehind]
      refine BuiltAll.append ?_ (built_importBehind options depth nodes)
      split
      · exact builtAll_nil
      · exact built_importBlock options depth node

end

theorem built_drafts (options : ConvertOptions) (nodes : List Node) :
    BuiltAll options (drafts options nodes) :=
  built_importBlocks options 0 nodes

end Blockmark.Import
