import Blockmark.Proofs.Inline.Text

/-!
# Two readings of inline nodes

The text of inline nodes is taken in two ways: with the marks left out of the nodes, and from the
elements they are composed to, where a link or an image may be one element with a title of its
own. For text, code, formulas, emphasis, links and images they are the same, unless a local image
is written out as Markdown or a link shows the mail address that it leads to.

Main statement: `elementsText_compose`.
-/

namespace Blockmark.Inline

open Markdown

def isImageElement (options : ConvertOptions) (url : String) : Bool :=
  match Link.classifyImage url options.uriScheme with
  | .remote _ | .media _ => true
  | .disk _ => options.uploadImages

mutual

/-- Inline nodes without breaks and HTML, of which nothing is nested too deep. Images of the file
system count if they are uploaded, links to a mail address unless they show that address. -/
def isPlain (options : ConvertOptions) (depth : Nat) : Node → Bool
  | .mk kind children =>
    depth < maxDepth && match kind with
    | .text _ | .code _ | .math _ _ => true
    | .emph | .strong | .strikethrough => arePlain options (depth + 1) children
    | .link url =>
      arePlain options (depth + 1) children &&
        Text.stripPrefix? "mailto:" url != some (plainText children)
    | .image url => arePlain options (depth + 1) children && isImageElement options url
    | _ => false

def arePlain (options : ConvertOptions) (depth : Nat) : List Node → Bool
  | [] => true
  | node :: nodes => isPlain options depth node && arePlain options depth nodes

end

mutual

def literalText : Node → List Char
  | .mk kind children =>
    match kind with
    | .text literal | .code literal | .math _ literal => literal.toList
    | _ => literalTexts children

def literalTexts : List Node → List Char
  | [] => []
  | node :: nodes => literalText node ++ literalTexts nodes

end

variable {options : ConvertOptions}

/-! ## The text of nodes -/

mutual

theorem nodeText_eq {levels depth : Nat} {node : Node} (plain : isPlain options depth node = true)
    (enough : maxDepth ≤ depth + levels) : nodeText levels node = literalText node := by
  obtain ⟨kind, children⟩ := node
  obtain ⟨inside, form⟩ := Bool.and_eq_true_iff.1 plain
  have inside : depth < maxDepth := of_decide_eq_true inside
  obtain ⟨levels, rfl⟩ := Nat.exists_eq_succ_of_ne_zero (n := levels) (by omega)
  have below (deeper : arePlain options (depth + 1) children = true) :
      siblingsText levels children = literalTexts children :=
    siblingsText_eq deeper (by omega)
  cases kind with
  | text | code | math => rfl
  | emph | strong | strikethrough => exact below form
  | link url => exact below (Bool.and_eq_true_iff.1 form).1
  | image url => exact below (Bool.and_eq_true_iff.1 form).1
  | _ => cases form

theorem siblingsText_eq {levels depth : Nat} {nodes : List Node}
    (plain : arePlain options depth nodes = true) (enough : maxDepth ≤ depth + levels) :
    siblingsText levels nodes = literalTexts nodes := by
  cases nodes with
  | nil => rfl
  | cons node nodes =>
      obtain ⟨first, rest⟩ := Bool.and_eq_true_iff.1 plain
      rw [siblingsText, nodeText_eq first enough, siblingsText_eq rest enough, literalTexts]

end

theorem toList_plainText_of_arePlain {depth : Nat} {nodes : List Node}
    (plain : arePlain options depth nodes = true) :
    (plainText nodes).toList = literalTexts nodes := by
  rw [plainText, String.toList_ofList]
  exact siblingsText_eq plain (Nat.le_add_left _ _)

/-! ## The text of elements -/

theorem not_opensUnderline_of_isPlain {depth : Nat} {node : Node}
    (plain : isPlain options depth node = true) : opensUnderline node = false := by
  obtain ⟨kind, children⟩ := node
  cases kind with
  | htmlInline html => simp [isPlain] at plain
  | _ => rfl

theorem textSoFar_pushImage (context : StyleContext) (alt : String) {url : String}
    (elements : Elements) (one : isImageElement options url = true) :
    textSoFar (pushImage options context alt url elements) =
      textSoFar elements ++ alt.toList := by
  unfold isImageElement at one
  unfold pushImage
  cases source : Link.classifyImage url options.uriScheme with
  | remote | media => exact textSoFar_cons _ _
  | disk path =>
      rw [source] at one
      dsimp only at one ⊢
      rw [if_pos one]
      exact textSoFar_cons _ _

mutual

theorem textSoFar_walkNode_plain (context : StyleContext) (depth : Nat) (elements : Elements)
    (node : Node) (plain : isPlain options depth node = true) :
    textSoFar (walkNode options context depth elements node) =
      textSoFar elements ++ literalText node := by
  obtain ⟨kind, children⟩ := node
  obtain ⟨inside, form⟩ := Bool.and_eq_true_iff.1 plain
  have inside : ¬ maxDepth ≤ depth := by simpa using inside
  have below (context : StyleContext) (deeper : arePlain options (depth + 1) children = true) :=
    textSoFar_walkSiblings_plain context (depth + 1) elements children deeper
  rw [walkNode.eq_def]
  dsimp only
  rw [if_neg inside]
  cases kind with
  | text content => exact textSoFar_pushText context content elements
  | code literal => exact textSoFar_pushText _ literal elements
  | math display literal => exact textSoFar_cons _ _
  | emph => exact below _ form
  | strong => exact below _ form
  | strikethrough => exact below _ form
  | link url =>
      obtain ⟨deeper, noMail⟩ := Bool.and_eq_true_iff.1 form
      have title := toList_plainText_of_arePlain deeper
      dsimp only
      split
      · rw [textSoFar_cons]
        exact congrArg _ title
      · split
        · next shows =>
          have same : url = plainText children := by
            simpa [isAutolink, bne_iff_ne.1 noMail] using shows
          rw [textSoFar_cons, TextElement.plainText, same, title]
          rfl
        · exact below _ deeper
  | image url =>
      obtain ⟨deeper, one⟩ := Bool.and_eq_true_iff.1 form
      rw [textSoFar_pushImage context _ elements one, toList_plainText_of_arePlain deeper]
      rfl
  | _ => cases form

theorem textSoFar_walkSiblings_plain (context : StyleContext) (depth : Nat)
    (elements : Elements) (nodes : List Node) (plain : arePlain options depth nodes = true) :
    textSoFar (walkSiblings options context depth elements nodes) =
      textSoFar elements ++ literalTexts nodes := by
  cases nodes with
  | nil => rw [walkSiblings, literalTexts, List.append_nil]
  | cons node nodes =>
      obtain ⟨first, rest⟩ := Bool.and_eq_true_iff.1 plain
      rw [walkSiblings, not_opensUnderline_of_isPlain first, if_neg Bool.false_ne_true,
        textSoFar_walkSiblings_plain context depth _ nodes rest,
        textSoFar_walkNode_plain context depth elements node first, literalTexts,
        List.append_assoc]

end

theorem elementsText_compose (options : ConvertOptions) {nodes : List Node}
    (plain : arePlain options 0 nodes = true) :
    elementsText (compose options nodes) = (plainText nodes).toList := by
  rw [toList_plainText_of_arePlain plain]
  exact textSoFar_walkSiblings_plain {} 0 [] nodes plain

end Blockmark.Inline
