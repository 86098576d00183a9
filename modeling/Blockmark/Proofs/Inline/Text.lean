import Blockmark.Inline.Compose

/-!
# The text of composed elements

Styles come and go, runs are merged, but the text stays: the elements that inline nodes are
composed to have the texts of these nodes, in their order. A break counts as a line feed.

Main statement: `text_compose`.
-/

namespace Blockmark.Inline

open Markdown

mutual

/-- Plain and code text in emphasis and breaks, of which nothing is nested too deep. -/
def isProse (depth : Nat) : Node → Bool
  | .mk kind children =>
    depth < maxDepth && match kind with
    | .text _ | .code _ | .softBreak | .lineBreak => children.isEmpty
    | .emph | .strong | .strikethrough => areProse (depth + 1) children
    | _ => false

def areProse (depth : Nat) : List Node → Bool
  | [] => true
  | node :: nodes => isProse depth node && areProse depth nodes

end

mutual

def proseText : Node → List Char
  | .mk kind children =>
    match kind with
    | .text literal | .code literal => literal.toList
    | .softBreak | .lineBreak => ['\n']
    | _ => proseTexts children

def proseTexts : List Node → List Char
  | [] => []
  | node :: nodes => proseText node ++ proseTexts nodes

end

def elementsText (elements : List TextElement) : List Char :=
  elements.flatMap (·.plainText.toList)

theorem toList_plainText (body : TextBody) :
    body.plainText.toList = elementsText body.elements := by
  rw [TextBody.plainText, String.toList_join, List.flatMap_map]
  rfl

/-- The text of elements that are still to be turned round. -/
abbrev textSoFar (elements : Elements) : List Char :=
  elementsText elements.reverse

theorem textSoFar_cons (element : TextElement) (elements : Elements) :
    textSoFar (element :: elements) = textSoFar elements ++ element.plainText.toList := by
  simp [elementsText]

theorem textSoFar_pushText (context : StyleContext) (text : String) (elements : Elements) :
    textSoFar (pushText context text elements) = textSoFar elements ++ text.toList := by
  unfold pushText
  split
  · next empty => simp [String.isEmpty_iff.1 empty]
  · split
    · next last before =>
      split
      · simp [textSoFar_cons, TextElement.plainText]
      · rw [textSoFar_cons]
        rfl
    · rw [textSoFar_cons]
      rfl

theorem not_opensUnderline {depth : Nat} {node : Node} (prose : isProse depth node = true) :
    opensUnderline node = false := by
  obtain ⟨kind, children⟩ := node
  cases kind with
  | htmlInline html => simp [isProse] at prose
  | _ => rfl

mutual

theorem textSoFar_walkNode (options : ConvertOptions) (context : StyleContext) (depth : Nat)
    (elements : Elements) (node : Node) (prose : isProse depth node = true) :
    textSoFar (walkNode options context depth elements node) =
      textSoFar elements ++ proseText node := by
  obtain ⟨kind, children⟩ := node
  obtain ⟨inside, form⟩ := Bool.and_eq_true_iff.1 prose
  have inside : ¬ maxDepth ≤ depth := by simpa using inside
  have below (context : StyleContext) (deeper : areProse (depth + 1) children = true) :=
    textSoFar_walkSiblings options context (depth + 1) elements children deeper
  rw [walkNode.eq_def]
  dsimp only
  rw [if_neg inside]
  cases kind with
  | text content => exact textSoFar_pushText context content elements
  | code literal => exact textSoFar_pushText _ literal elements
  | softBreak => exact textSoFar_pushText context "\n" elements
  | lineBreak => exact textSoFar_cons .lineBreak elements
  | emph => exact below _ form
  | strong => exact below _ form
  | strikethrough => exact below _ form
  | _ => cases form

theorem textSoFar_walkSiblings (options : ConvertOptions) (context : StyleContext) (depth : Nat)
    (elements : Elements) (nodes : List Node) (prose : areProse depth nodes = true) :
    textSoFar (walkSiblings options context depth elements nodes) =
      textSoFar elements ++ proseTexts nodes := by
  cases nodes with
  | nil => rw [walkSiblings, proseTexts, List.append_nil]
  | cons node nodes =>
      obtain ⟨first, rest⟩ := Bool.and_eq_true_iff.1 prose
      rw [walkSiblings, not_opensUnderline first, if_neg Bool.false_ne_true,
        textSoFar_walkSiblings options context depth _ nodes rest,
        textSoFar_walkNode options context depth elements node first, proseTexts, List.append_assoc]

end

theorem text_compose (options : ConvertOptions) {nodes : List Node}
    (prose : areProse 0 nodes = true) :
    elementsText (compose options nodes) = proseTexts nodes :=
  textSoFar_walkSiblings options {} 0 [] nodes prose

end Blockmark.Inline
