import Blockmark.Proofs.Inline.Depth
import Blockmark.Proofs.Inline.Text

/-!
# Texts in parts

A reader may cut a text into neighbouring text nodes wherever it likes. What the nodes are composed
to and their plain text do not depend on it.

Main statements: `walkSiblings_cut` and `plainText_cut`.
-/

namespace Blockmark.Inline

open Markdown

/-- Some text nodes of the first list, at any depth, are cut in two in the second one. -/
inductive Cut : List Node → List Node → Prop
  | nil : Cut [] []
  | text {content first second : String} {children firstChildren secondChildren nodes parts :
      List Node} (joined : content = first ++ second) (behind : Cut nodes parts) :
      Cut (.mk (.text content) children :: nodes)
        (.mk (.text first) firstChildren :: .mk (.text second) secondChildren :: parts)
  | node {kind : NodeKind} {children inner nodes parts : List Node} (inside : Cut children inner)
      (behind : Cut nodes parts) : Cut (.mk kind children :: nodes) (.mk kind inner :: parts)

theorem Cut.refl : ∀ nodes : List Node, Cut nodes nodes
  | [] => .nil
  | .mk _ children :: nodes => .node (Cut.refl children) (Cut.refl nodes)
termination_by nodes => sizeOf nodes

variable {options : ConvertOptions} {nodes parts children inner : List Node}

/-! ## Plain text -/

theorem siblingsText_cut (cut : Cut nodes parts) (levels : Nat) :
    siblingsText levels nodes = siblingsText levels parts := by
  induction cut generalizing levels with
  | nil => rfl
  | text joined _ ih =>
      simp only [siblingsText]
      cases levels with
      | zero => simp [nodeText, ih]
      | succ levels => simp [nodeText, joined, ih]
  | @node kind _ _ _ _ _ _ ihInside ihBehind =>
      rw [siblingsText, siblingsText, ihBehind]
      congr 1
      cases levels with
      | zero => rfl
      | succ levels =>
          cases kind with
          | text | code | math | softBreak | lineBreak => rfl
          | _ => exact ihInside levels

theorem plainText_cut (cut : Cut nodes parts) : plainText nodes = plainText parts := by
  rw [plainText, siblingsText_cut cut, plainText]

/-! ## Elements -/

theorem pushText_apart {context : StyleContext} {text : String} {elements : Elements}
    (filled : text.isEmpty = false)
    (apart : ∀ content before,
      elements ≠ .run ⟨content, context.flags, context.link⟩ :: before) :
    pushText context text elements =
      .run ⟨text, context.flags, context.link⟩ :: elements := by
  unfold pushText
  rw [filled, if_neg Bool.false_ne_true]
  split
  · next last before =>
    obtain ⟨content, style, link⟩ := last
    rw [if_neg]
    rintro ⟨rfl, rfl⟩
    exact apart content before rfl
  · rfl

theorem pushText_append (context : StyleContext) (first second : String) (elements : Elements) :
    pushText context (first ++ second) elements =
      pushText context second (pushText context first elements) := by
  cases noFirst : first.isEmpty with
  | true => rw [String.isEmpty_iff.1 noFirst, pushText_empty, String.empty_append]
  | false =>
      cases noSecond : second.isEmpty with
      | true => rw [String.isEmpty_iff.1 noSecond, pushText_empty, String.append_empty]
      | false =>
          have filled : (first ++ second).isEmpty = false := by
            rw [← Bool.not_eq_true, String.isEmpty_iff] at noFirst ⊢
            exact fun empty => noFirst (String.append_eq_empty_iff.1 empty).1
          by_cases joins : ∃ content before,
              elements = .run ⟨content, context.flags, context.link⟩ :: before
          · obtain ⟨content, before, rfl⟩ := joins
            rw [pushText_run filled, pushText_run noFirst, pushText_run noSecond,
              String.append_assoc]
          · have apart : ∀ content before,
                elements ≠ .run ⟨content, context.flags, context.link⟩ :: before :=
              fun content before same => joins ⟨content, before, same⟩
            rw [pushText_apart filled apart, pushText_apart noFirst apart, pushText_run noSecond]

abbrev CutParts (first second : List Node × List Node) : Prop :=
  Cut first.1 second.1 ∧ Cut first.2 second.2

theorem rel_map_cons {kind : NodeKind} (inside : Cut children inner)
    {found other : Option (List Node × List Node)} (same : Option.Rel CutParts found other) :
    Option.Rel CutParts (found.map fun split => (.mk kind children :: split.1, split.2))
      (other.map fun split => (.mk kind inner :: split.1, split.2)) := by
  cases same with
  | none => exact .none
  | some same => exact .some ⟨.node inside same.1, same.2⟩

theorem splitAtClose_cut (cut : Cut nodes parts) (opened : Nat) :
    Option.Rel CutParts (splitAtClose opened nodes) (splitAtClose opened parts) := by
  induction cut generalizing opened with
  | nil => exact .none
  | @text content first second children _ _ nodes parts joined _ ih =>
      have same := ih opened
      simp only [splitAtClose, opensUnderline, closesUnderline, Node.kind, Bool.false_eq_true,
        if_false]
      generalize splitAtClose opened nodes = found at same
      generalize splitAtClose opened parts = other at same
      cases same with
      | none => exact .none
      | some same => exact .some ⟨.text joined same.1, same.2⟩
  | @node kind children inner nodes parts inside behind _ ih =>
      have opens : opensUnderline (.mk kind inner) = opensUnderline (.mk kind children) := rfl
      have closes : closesUnderline (.mk kind inner) = closesUnderline (.mk kind children) := rfl
      simp only [splitAtClose.eq_def _ (_ :: _), opens, closes]
      split
      · exact rel_map_cons inside (ih (opened + 1))
      · split
        · cases opened with
          | zero => exact .some ⟨.nil, behind⟩
          | succ opened => exact rel_map_cons inside (ih opened)
        · exact rel_map_cons inside (ih opened)

theorem inner?_cut (cut : Cut children inner) (kind : NodeKind) :
    inner? options (.mk kind children) = inner? options (.mk kind inner) := by
  cases kind with
  | link url => simp only [inner?, plainText_cut cut]
  | _ => rfl

theorem leaf_cut (cut : Cut children inner) (kind : NodeKind) (context : StyleContext)
    (elements : Elements) :
    leaf options context elements (.mk kind children) =
      leaf options context elements (.mk kind inner) := by
  cases kind with
  | link | image => simp only [leaf, plainText_cut cut]
  | _ => rfl

theorem walkNode_cut (inside : Cut children inner)
    (walked : ∀ context depth elements, walkSiblings options context depth elements children =
      walkSiblings options context depth elements inner) {kind : NodeKind} {context : StyleContext}
    {depth : Nat} {elements : Elements} :
    walkNode options context depth elements (.mk kind children) =
      walkNode options context depth elements (.mk kind inner) := by
  by_cases beyond : maxDepth ≤ depth
  · rw [walkNode_beyond beyond, walkNode_beyond beyond]
  · have above := Nat.not_le.1 beyond
    have same := @inner?_cut options _ _ inside kind
    cases form : inner? options (.mk kind children) with
    | some change =>
        rw [walkNode_inner above form, walkNode_inner above (same.symm.trans form)]
        exact walked _ _ _
    | none =>
        rw [walkNode_leaf above form, walkNode_leaf above (same.symm.trans form), leaf_cut inside]

theorem walkNode_text {depth : Nat} (inside : depth < maxDepth) (context : StyleContext)
    (elements : Elements) (content : String) :
    walkNode options context depth elements (.mk (.text content) children) =
      pushText context content elements :=
  walkNode_leaf inside rfl

theorem walkSiblings_cut (cut : Cut nodes parts) (context : StyleContext) (depth : Nat)
    (elements : Elements) :
    walkSiblings options context depth elements nodes =
      walkSiblings options context depth elements parts := by
  induction nodes using siblings_induction generalizing parts context depth elements with
  | nil =>
      cases cut
      rfl
  | span opens matched between behind =>
      cases cut with
      | text => cases opens
      | @node kind children inner nodes parts inside rest =>
          have split := splitAtClose_cut rest 0
          rw [matched] at split
          generalize other : splitAtClose 0 parts = found at split
          cases split with
          | some same =>
              have opens' : opensUnderline (.mk kind inner) = true := opens
              rw [walkSiblings_span opens matched, walkSiblings_span opens' other,
                between same.1, behind same.2]
  | lone opens unmatched ih =>
      cases cut with
      | text => cases opens
      | @node kind children inner nodes parts inside rest =>
          have split := splitAtClose_cut rest 0
          rw [unmatched] at split
          generalize other : splitAtClose 0 parts = found at split
          cases split
          have opens' : opensUnderline (.mk kind inner) = true := opens
          rw [walkSiblings_lone opens unmatched, walkSiblings_lone opens' other, ih rest]
  | other other ihInside ih =>
      cases cut with
      | @text content first second children _ _ nodes parts joined rest =>
          rw [walkSiblings_other other, walkSiblings_other rfl, walkSiblings_other rfl, ih rest]
          by_cases beyond : maxDepth ≤ depth
          · simp only [walkNode_beyond beyond]
          · have above := Nat.not_le.1 beyond
            rw [walkNode_text above, walkNode_text above, walkNode_text above, joined,
              pushText_append]
      | @node kind children inner nodes parts inside rest =>
          have other' : opensUnderline (.mk kind inner) = false := other
          rw [walkSiblings_other other, walkSiblings_other other', ih rest,
            walkNode_cut inside fun context depth elements => ihInside inside context depth elements]

theorem compose_cut (cut : Cut nodes parts) : compose options nodes = compose options parts := by
  rw [compose, pushNodes, walkSiblings_cut cut, compose, pushNodes]

/-! ## What stands before -/

theorem textSoFar_append (newer elements : Elements) :
    textSoFar (newer ++ elements) = textSoFar elements ++ textSoFar newer := by
  simp [elementsText]

theorem textSoFar_pushText_after (context : StyleContext) (text : String) (elements : Elements) :
    textSoFar (pushText context text elements) =
      textSoFar elements ++ textSoFar (pushText context text []) := by
  rw [textSoFar_pushText, textSoFar_pushText]
  rfl

theorem textSoFar_pushImage_after (context : StyleContext) (alt url : String)
    (elements : Elements) :
    textSoFar (pushImage options context alt url elements) =
      textSoFar elements ++ textSoFar (pushImage options context alt url []) := by
  unfold pushImage
  split
  · exact textSoFar_append [_] elements
  · exact textSoFar_append [_] elements
  · split
    · exact textSoFar_append [_] elements
    · exact textSoFar_pushText_after context _ elements

theorem textSoFar_leaf_after (context : StyleContext) (elements : Elements) (node : Node) :
    textSoFar (leaf options context elements node) =
      textSoFar elements ++ textSoFar (leaf options context [] node) := by
  have kept : textSoFar elements = textSoFar elements ++ textSoFar [] := (List.append_nil _).symm
  obtain ⟨kind, children⟩ := node
  cases kind with
  | text | code | softBreak => exact textSoFar_pushText_after _ _ elements
  | link url =>
      dsimp only [leaf]
      split <;> exact textSoFar_append [_] elements
  | image url => exact textSoFar_pushImage_after context _ url elements
  | math | lineBreak => exact textSoFar_append [_] elements
  | htmlInline html =>
      dsimp only [leaf]
      split
      · exact textSoFar_append [_] elements
      · split
        · exact kept
        · exact textSoFar_pushText_after _ _ elements
  | _ => exact kept

theorem textSoFar_walkSiblings_after (context : StyleContext) (depth : Nat) (elements : Elements)
    (nodes : List Node) :
    textSoFar (walkSiblings options context depth elements nodes) =
      textSoFar elements ++ textSoFar (walkSiblings options context depth [] nodes) := by
  induction nodes using siblings_induction generalizing context depth elements with
  | nil =>
      rw [walkSiblings, walkSiblings]
      exact (List.append_nil _).symm
  | span opens matched between behind =>
      rw [walkSiblings_span opens matched, walkSiblings_span opens matched, behind, between,
        behind _ _ (walkSiblings _ _ _ [] _), List.append_assoc]
  | lone opens unmatched ih =>
      rw [walkSiblings_lone opens unmatched, walkSiblings_lone opens unmatched, ih]
  | @other node rest other ihInside ih =>
      have first : textSoFar (walkNode options context depth elements node) =
          textSoFar elements ++ textSoFar (walkNode options context depth [] node) := by
        by_cases beyond : maxDepth ≤ depth
        · rw [walkNode_beyond beyond, walkNode_beyond beyond]
          exact (List.append_nil _).symm
        · have above := Nat.not_le.1 beyond
          cases form : inner? options node with
          | some change =>
              rw [walkNode_inner above form, walkNode_inner above form, ihInside]
          | none =>
              rw [walkNode_leaf above form, walkNode_leaf above form, textSoFar_leaf_after]
      rw [walkSiblings_other other, walkSiblings_other other, ih, first,
        ih _ _ (walkNode _ _ _ [] _), List.append_assoc]

end Blockmark.Inline
