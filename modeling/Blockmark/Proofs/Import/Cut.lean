import Blockmark.Proofs.Import.Text
import Blockmark.Proofs.Inline.Cut
import Blockmark.Proofs.Text.Inked

/-!
# Importing texts in parts

How a reader cuts a text into neighbouring text nodes makes no difference for paragraphs, the lines
of a quote, tables and the keyword of a callout. For the text of a callout it makes one: behind the
marker white space is left out of the node in which the marker ends, and so are nodes that show
nothing, but white space at the start of a later node is shown.

Main statements: `calloutMarker?_cut`, `calloutText_eq`.
-/

namespace Blockmark.Import

open Markdown Text Inline

variable {options : ConvertOptions} {nodes parts children inner : List Node}

/-! ## Paragraphs -/

theorem isBlankInline_text {content : String} :
    isBlankInline (.mk (.text content) children) = (trimStart content.toList).isEmpty := by
  rw [Bool.eq_iff_iff, List.isEmpty_iff, ← trim_eq_nil_iff]
  exact List.isEmpty_iff

theorem isBlankInline_joined {first second : String} {firstChildren secondChildren : List Node} :
    isBlankInline (.mk (.text (first ++ second)) children) =
      (isBlankInline (.mk (.text first) firstChildren) &&
        isBlankInline (.mk (.text second) secondChildren)) := by
  rw [isBlankInline_text, isBlankInline_text, isBlankInline_text, String.toList_append]
  cases start : trimStart first.toList with
  | nil =>
      rw [trimStart_append_of_blank start]
      rfl
  | cons =>
      rw [trimStart_append_of_inked (by simp [start]), start]
      rfl

/-- More than one node, or a text: what a paragraph shows as a text, not as an image or formula. -/
def PlainParagraph (nodes : List Node) : Prop :=
  2 ≤ nodes.length ∨ ∃ content children, nodes = [.mk (.text content) children]

theorem plainParagraph_text (content : String) (children nodes : List Node) :
    PlainParagraph (.mk (.text content) children :: nodes) := by
  cases nodes with
  | nil => exact .inr ⟨content, children, rfl⟩
  | cons => exact .inl (by simp)

theorem PlainParagraph.cons (plain : PlainParagraph nodes) (node : Node) :
    PlainParagraph (node :: nodes) := by
  obtain long | ⟨content, children, rfl⟩ := plain
  · exact .inl (Nat.le_succ_of_le long)
  · exact .inl (Nat.le_refl 2)

/-- What is left of two paragraphs without the nodes that show nothing. -/
inductive LeftOver : List Node → List Node → Prop
  | nothing : LeftOver [] []
  | only {kind : NodeKind} {children inner : List Node} (inside : Cut children inner) :
      LeftOver [.mk kind children] [.mk kind inner]
  | prose {nodes parts : List Node} (first : PlainParagraph nodes) (second : PlainParagraph parts) :
      LeftOver nodes parts

theorem leftOver_filter (cut : Cut nodes parts) :
    LeftOver (nodes.filter (!isBlankInline ·)) (parts.filter (!isBlankInline ·)) := by
  induction cut with
  | nil => exact .nothing
  | @text content first second children firstChildren secondChildren nodes parts joined _ ih =>
      have blank := @isBlankInline_joined children first second firstChildren secondChildren
      rw [joined, List.filter_cons, List.filter_cons, List.filter_cons, blank]
      cases isBlankInline (.mk (.text first) firstChildren) with
      | false => exact .prose (plainParagraph_text _ _ _) (plainParagraph_text _ _ _)
      | true =>
          cases isBlankInline (.mk (.text second) secondChildren) with
          | false => exact .prose (plainParagraph_text _ _ _) (plainParagraph_text _ _ _)
          | true => exact ih
  | @node kind children inner nodes parts inside _ _ ih =>
      have blank : isBlankInline (.mk kind inner) = isBlankInline (.mk kind children) := rfl
      rw [List.filter_cons, List.filter_cons, blank]
      split
      · generalize nodes.filter (!isBlankInline ·) = left at ih
        generalize parts.filter (!isBlankInline ·) = right at ih
        cases ih with
        | nothing => exact .only inside
        | only => exact .prose (.inl (by simp)) (.inl (by simp))
        | prose first second => exact .prose (first.cons _) (second.cons _)
      · exact ih

theorem importParagraph_of_plain (prose : PlainParagraph (nodes.filter (!isBlankInline ·))) :
    importParagraph options nodes =
      textLeaf .paragraph { elements := Inline.compose options nodes } := by
  unfold importParagraph
  obtain long | ⟨content, children, left⟩ := prose
  · split
    · next left => simp [left] at long
    · rfl
  · rw [left]
    rfl

theorem importParagraph_cut (cut : Cut nodes parts) :
    importParagraph options nodes = importParagraph options parts := by
  have left := leftOver_filter cut
  generalize first : nodes.filter (!isBlankInline ·) = some at left
  generalize second : parts.filter (!isBlankInline ·) = others at left
  cases left with
  | nothing => simp only [importParagraph, first, second, compose_cut cut]
  | only inside =>
      simp only [importParagraph, first, second, compose_cut cut, Node.kind, Node.children,
        plainText_cut inside]
  | prose prose other =>
      rw [importParagraph_of_plain (first ▸ prose), importParagraph_of_plain (second ▸ other),
        compose_cut cut]

/-! ## Lines of a quote -/

theorem splitLines_cut (cut : Cut nodes parts) :
    List.Forall₂ Cut (splitLines nodes) (splitLines parts) := by
  induction cut with
  | nil => exact .cons .nil .nil
  | @text content first second children firstChildren secondChildren nodes parts joined _ ih =>
      simp only [splitLines, Node.isBreak, Node.kind, Bool.false_eq_true, if_false]
      generalize splitLines nodes = lines at ih
      generalize splitLines parts = others at ih
      cases ih with
      | nil => exact .cons (.text joined .nil) .nil
      | cons line more => exact .cons (.text joined line) more
  | @node kind children inner nodes parts inside _ _ ih =>
      have same : Node.isBreak (.mk kind inner) = Node.isBreak (.mk kind children) := rfl
      rw [splitLines, splitLines, same]
      split
      · exact .cons .nil ih
      · generalize splitLines nodes = lines at ih
        generalize splitLines parts = others at ih
        cases ih with
        | nil => exact .cons (.node inside .nil) .nil
        | cons line more => exact .cons (.node inside line) more

theorem quoteLeaves_cut (cut : Cut nodes parts) :
    quoteLeaves options nodes = quoteLeaves options parts := by
  unfold quoteLeaves
  have lines := splitLines_cut cut
  generalize splitLines nodes = first at lines
  generalize splitLines parts = second at lines
  induction lines with
  | nil => rfl
  | cons line _ ih => rw [List.filterMap_cons, List.filterMap_cons, compose_cut line, ih]

/-! ## Tables -/

def isText (node : Node) : Bool :=
  match node.kind with
  | .text _ => true
  | _ => false

mutual

/-- No text stands in a row of a table but in its cells. -/
def rowsHoldCells : Node → Bool
  | .mk kind children =>
    (match kind with
      | .tableRow _ => children.all (!isText ·)
      | _ => true) && allRowsHoldCells children

def allRowsHoldCells : List Node → Bool
  | [] => true
  | node :: nodes => rowsHoldCells node && allRowsHoldCells nodes

end

theorem cellContents_cut {kind other : NodeKind} (cut : Cut nodes parts)
    (cells : nodes.all (!isText ·) = true) :
    cellContents options (.mk kind nodes) = cellContents options (.mk other parts) := by
  simp only [cellContents, Node.children]
  induction cut with
  | nil => rfl
  | text => cases cells
  | node inside _ _ ih =>
      obtain ⟨-, behind⟩ := Bool.and_eq_true_iff.1 cells
      rw [List.map_cons, List.map_cons, ih behind]
      simp only [compose_cut inside, plainText_cut inside]

theorem splitHeader_cut (cut : Cut nodes parts) (tidy : allRowsHoldCells nodes = true)
    (header : Option (List CellContent)) :
    splitHeader options header nodes = splitHeader options header parts := by
  induction cut generalizing header with
  | nil => rfl
  | text _ _ ih => exact ih (Bool.and_eq_true_iff.1 tidy).2 header
  | @node kind children inner nodes parts inside _ _ ih =>
      obtain ⟨first, behind⟩ := Bool.and_eq_true_iff.1 tidy
      cases kind with
      | tableRow isHeader =>
          have cells := @cellContents_cut options _ _ (.tableRow isHeader) (.tableRow isHeader)
            inside (Bool.and_eq_true_iff.1 first).1
          simp only [splitHeader, Node.kind, cells, ih behind]
      | _ => exact ih behind header

theorem importTable_cut (cut : Cut nodes parts) (tidy : allRowsHoldCells nodes = true)
    (alignments : List (Option Align)) :
    importTable options alignments nodes = importTable options alignments parts := by
  rw [importTable, splitHeader_cut cut tidy, importTable]

/-! ## Markers -/

def Admonition.behind (marker : Admonition) : List Node :=
  .mk (.text (String.ofList marker.remainder)) [] :: marker.tail

structure SameMarker (first second : Admonition) : Prop where
  keyword : first.keyword = second.keyword
  behind : Cut first.behind second.behind

theorem matchMarker_append {text : List Char} (closed : ']' ∈ trimStart text)
    (more : List Char) :
    matchMarker (text ++ more) =
      (matchMarker text).map fun found => (found.1, found.2 ++ more) := by
  have start := trimStart_append_of_inked (List.ne_nil_of_mem closed) more
  apply Option.ext
  rintro ⟨keyword, after⟩
  rw [Option.map_eq_some_iff, matchMarker_eq_some_iff]
  constructor
  · rintro ⟨first, word, rfl, letter, chars, whole⟩
    have apart : ']' ∉ '[' :: '!' :: first :: word := by
      rw [List.all_eq_true] at chars
      intro mem
      simp only [List.mem_cons] at mem
      obtain same | same | rfl | mem := mem
      · cases same
      · cases same
      · cases letter
      · exact absurd (chars _ mem) (by decide)
    rw [start] at whole
    obtain ⟨inside, same, -⟩ | ⟨inside, same, behind⟩ := List.append_eq_append_iff.1 whole
    · exact absurd (same ▸ List.mem_append_left _ closed) apart
    · cases inside with
      | nil =>
          rw [same, List.append_nil] at closed
          exact absurd closed apart
      | cons c rest =>
          obtain ⟨rfl, rfl⟩ := List.cons.inj behind
          exact ⟨⟨_, rest⟩, matchMarker_eq_some_iff.2 ⟨first, word, rfl, letter, chars, same⟩, rfl⟩
  · rintro ⟨⟨keyword, rest⟩, found, same⟩
    cases same
    obtain ⟨first, word, rfl, letter, chars, whole⟩ := matchMarker_eq_some_iff.1 found
    refine ⟨first, word, rfl, letter, chars, ?_⟩
    rw [start, whole]
    simp

theorem findAdmonition_text (merged : List Char) (content : String) (children nodes : List Node) :
    findAdmonition merged (.mk (.text content) children :: nodes) =
      if !(trimStart (merged ++ content.toList)).isEmpty &&
          (trimStart (merged ++ content.toList)).head? != some '[' then none
      else if !(trimStart (merged ++ content.toList)).contains ']' then
        findAdmonition (merged ++ content.toList) nodes
      else (matchMarker (merged ++ content.toList)).map fun found =>
        ⟨String.ofList found.1, found.2, nodes⟩ :=
  rfl

theorem findAdmonition_text_cut (rest : Cut nodes parts)
    (behind : ∀ merged, Option.Rel SameMarker (findAdmonition merged nodes)
      (findAdmonition merged parts)) (merged : List Char) (content : String)
    (children inner : List Node) :
    Option.Rel SameMarker (findAdmonition merged (.mk (.text content) children :: nodes))
      (findAdmonition merged (.mk (.text content) inner :: parts)) := by
  rw [findAdmonition_text, findAdmonition_text]
  split
  · exact .none
  · split
    · exact behind _
    · cases matchMarker (merged ++ content.toList) with
      | none => exact .none
      | some found => exact .some ⟨rfl, .node .nil rest⟩

theorem findAdmonition_cut (cut : Cut nodes parts) (merged : List Char) :
    Option.Rel SameMarker (findAdmonition merged nodes) (findAdmonition merged parts) := by
  induction cut generalizing merged with
  | nil => exact .none
  | @text content first second children firstChildren secondChildren nodes parts joined rest ih =>
      have whole : merged ++ content.toList = merged ++ first.toList ++ second.toList := by
        rw [joined, String.toList_append, List.append_assoc]
      by_cases closed : ']' ∈ trimStart (merged ++ first.toList)
      · have start := trimStart_append_of_inked (List.ne_nil_of_mem closed) second.toList
        have here : (trimStart (merged ++ first.toList)).contains ']' = true :=
          List.contains_iff_mem.2 closed
        have there : (trimStart (merged ++ first.toList) ++ second.toList).contains ']' = true :=
          List.contains_iff_mem.2 (List.mem_append_left _ closed)
        rw [findAdmonition_text, findAdmonition_text, whole, matchMarker_append closed, start, here,
          there]
        cases head : trimStart (merged ++ first.toList) with
        | nil => simp [head] at closed
        | cons c more =>
            simp only [List.cons_append, List.isEmpty_cons, List.head?_cons, Bool.not_true,
              Bool.false_eq_true, if_false]
            split
            · exact .none
            · cases matchMarker (merged ++ first.toList) with
              | none => exact .none
              | some found => exact .some ⟨rfl, .text (by simp) rest⟩
      · -- The first part does not end the marker, so it may be put together with the second one.
        have later : findAdmonition merged (.mk (.text content) children :: nodes) =
            findAdmonition merged (.mk (.text first) firstChildren ::
              .mk (.text second) secondChildren :: nodes) := by
          have unfinished : (trimStart (merged ++ first.toList)).contains ']' = false := by
            simpa using closed
          rw [findAdmonition_text, findAdmonition_text merged first, findAdmonition_text, whole,
            unfinished]
          cases head : trimStart (merged ++ first.toList) with
          | nil => rfl
          | cons c more =>
              have inked : trimStart (merged ++ first.toList) ≠ [] := by simp [head]
              have start := trimStart_append_of_inked inked second.toList
              simp only [start, head, List.cons_append, List.isEmpty_cons, List.head?_cons,
                Bool.not_false, Bool.true_and, if_true]
              split <;> rfl
        rw [later]
        exact findAdmonition_text_cut (.node (Cut.refl _) rest)
          (fun merged => findAdmonition_text_cut rest ih merged second _ _) merged first _ _
  | @node kind children inner nodes parts inside rest _ ih =>
      cases kind with
      | text content => exact findAdmonition_text_cut rest ih merged content _ _
      | _ => exact .none

theorem calloutMarker?_cut (cut : Cut nodes parts) :
    Option.Rel SameMarker (nodes.head?.bind calloutMarker?) (parts.head?.bind calloutMarker?) := by
  cases cut with
  | nil => exact .none
  | text => exact .none
  | @node kind children inner nodes parts inside rest =>
      have same : Node.isParagraph (.mk kind inner) = Node.isParagraph (.mk kind children) := rfl
      simp only [List.head?_cons, Option.bind_some, calloutMarker?, same]
      split
      · exact findAdmonition_cut inside []
      · exact .none

/-! ## Texts of callouts -/

/-- White space that is shown in front of nodes: that of the first one that shows something. -/
def leadIn (nodes : List Node) : List Char :=
  match nodes.dropWhile isBlankInline with
  | .mk (.text content) _ :: _ => leadingBlanks content.toList
  | _ => []

def Admonition.leadIn (marker : Admonition) : List Char :=
  if (trimStart marker.remainder).isEmpty then Import.leadIn marker.tail else []

def trimFirst : List Node → List Node
  | .mk (.text content) _ :: nodes =>
    .mk (.text (String.ofList (trimStart content.toList))) [] :: nodes
  | nodes => nodes

def trimNodes (nodes : List Node) : List Node :=
  trimFirst (nodes.dropWhile isBlankInline)

theorem trimNodes_cut (cut : Cut nodes parts) : Cut (trimNodes nodes) (trimNodes parts) := by
  unfold trimNodes
  induction cut with
  | nil => exact .nil
  | @text content first second children firstChildren secondChildren nodes parts joined rest ih =>
      have blank := @isBlankInline_joined children first second firstChildren secondChildren
      rw [joined, List.dropWhile_cons, List.dropWhile_cons, blank]
      cases firstBlank : isBlankInline (.mk (.text first) firstChildren) with
      | false =>
          have inked : trimStart first.toList ≠ [] := by
            simpa [isBlankInline_text] using firstBlank
          exact .text (by simp [trimStart_append_of_inked inked]) rest
      | true =>
          have firstBlank : trimStart first.toList = [] := by
            simpa [isBlankInline_text] using firstBlank
          rw [Bool.true_and, if_pos rfl, List.dropWhile_cons]
          split
          · exact ih
          · rw [trimFirst, trimFirst, String.toList_append, trimStart_append_of_blank firstBlank]
            exact .node .nil rest
  | @node kind children inner nodes parts inside rest _ ih =>
      have blank : isBlankInline (.mk kind inner) = isBlankInline (.mk kind children) := rfl
      rw [List.dropWhile_cons, List.dropWhile_cons, blank]
      split
      · exact ih
      · cases kind with
        | text => exact .node .nil rest
        | _ => exact .node inside rest

def leadElements (options : ConvertOptions) (lead : List Char) (nodes : List Node) : Elements :=
  pushNodes options {} (pushText {} (String.ofList lead) []) nodes

theorem pushNodes_text (content : String) (elements : Elements) :
    pushNodes options {} elements (.mk (.text content) children :: nodes) =
      pushNodes options {} (pushText {} content elements) nodes := by
  rw [pushNodes, walkSiblings_other rfl, walkNode_text (by decide), pushNodes]

theorem leadElements_leadIn (nodes : List Node) :
    leadElements options (leadIn nodes) (trimNodes nodes) =
      pushNodes options {} [] (nodes.dropWhile isBlankInline) := by
  unfold leadIn trimNodes
  split
  · next content children rest left =>
    have whole : String.ofList (leadingBlanks content.toList) ++
        String.ofList (trimStart content.toList) = content := by
      rw [← String.ofList_append, trimStart_append_eq, String.ofList_toList]
    rw [left, trimFirst, leadElements, pushNodes_text, pushNodes_text, ← pushText_append, whole]
  · next other =>
    have kept : trimFirst (nodes.dropWhile isBlankInline) = nodes.dropWhile isBlankInline := by
      unfold trimFirst
      split
      · next left => exact absurd left (other _ _ _)
      · rfl
    rw [kept]
    rfl

theorem textSoFar_leadElements (lead : List Char) (nodes : List Node) :
    textSoFar (leadElements options lead nodes) =
      lead ++ textSoFar (pushNodes options {} [] nodes) := by
  rw [leadElements, pushNodes, textSoFar_walkSiblings_after, textSoFar_pushText,
    String.toList_ofList]
  rfl

theorem trimNodes_behind (marker : Admonition) :
    trimNodes marker.behind =
      if (trimStart marker.remainder).isEmpty then trimNodes marker.tail
      else .mk (.text (String.ofList (trimStart marker.remainder))) [] :: marker.tail := by
  unfold trimNodes Admonition.behind
  rw [List.dropWhile_cons, isBlankInline_text, String.toList_ofList]
  split
  · rfl
  · rw [trimFirst, String.toList_ofList]

theorem leadElements_behind (marker : Admonition) :
    leadElements options marker.leadIn (trimNodes marker.behind) =
      pushNodes options {} (pushText {} (String.ofList (trimStart marker.remainder)) [])
        (if (trimStart marker.remainder).isEmpty then marker.tail.dropWhile isBlankInline
          else marker.tail) := by
  rw [trimNodes_behind, Admonition.leadIn]
  split
  · next blank =>
    rw [leadElements_leadIn, List.isEmpty_iff.1 blank]
    rfl
  · exact pushNodes_text _ _

theorem calloutText_eq (marker : Admonition) :
    calloutText options marker =
      let body : TextBody :=
        { elements := (leadElements options marker.leadIn (trimNodes marker.behind)).reverse }
      if body.isEmpty then [] else [textLeaf .paragraph body] := by
  rw [leadElements_behind]
  rfl

theorem textSoFar_of_leadIn {marker : Admonition} (lead : marker.leadIn ≠ []) :
    textSoFar (pushNodes options {} [] (trimNodes marker.behind)) ≠ [] := by
  rw [Admonition.leadIn] at lead
  split at lead
  · next blank =>
    rw [trimNodes_behind, if_pos blank]
    unfold leadIn at lead
    split at lead
    · next content children rest left =>
      have inked : trimStart content.toList ≠ [] := by
        have first := List.head?_dropWhile_not isBlankInline marker.tail
        rw [left, List.head?_cons] at first
        simpa [isBlankInline_text] using first
      rw [trimNodes, left, trimFirst, pushNodes_text, pushNodes, textSoFar_walkSiblings_after,
        textSoFar_pushText, String.toList_ofList]
      intro nothing
      exact inked (List.append_eq_nil_iff.1 (List.append_eq_nil_iff.1 nothing).1).2
    · exact absurd rfl lead
  · exact absurd rfl lead

end Blockmark.Import
