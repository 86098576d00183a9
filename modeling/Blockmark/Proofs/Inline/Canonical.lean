import Mathlib.Data.List.Chain
import Blockmark.Proofs.Inline.Cut

/-!
# Canonical elements

Elements are canonical if no run among them is empty and no two neighbouring runs could be one.
Text only ever joins the newest element, but that is enough to keep elements canonical, whatever
texts and nodes are added and whatever styles are around them. So one text has one form, however a
reader cuts it into nodes.

Main statements: `IsCanonical.pushText`, `IsCanonical.walkSiblings` and `composed_canonical`.
-/

namespace Blockmark.Inline

open Markdown

def Joins : TextElement → TextElement → Prop
  | .run first, .run second => first.style = second.style ∧ first.link = second.link
  | _, _ => False

structure IsCanonical (elements : List TextElement) : Prop where
  filled : ∀ span, .run span ∈ elements → span.content ≠ ""
  apart : elements.IsChain fun first second => ¬ Joins first second

inductive Push
  | text (content : String) (context : StyleContext)
  | nodes (nodes : List Node) (context : StyleContext)

def push (options : ConvertOptions) (elements : Elements) : Push → Elements
  | .text content context => pushText context content elements
  | .nodes nodes context => pushNodes options context elements nodes

def pushAll (options : ConvertOptions) (pushes : List Push) : List TextElement :=
  (pushes.foldl (push options) []).reverse

/-! ## Elements -/

theorem Joins.symm {first second : TextElement} (joins : Joins first second) :
    Joins second first := by
  cases first with
  | run => cases second with
    | run => exact ⟨joins.1.symm, joins.2.symm⟩
    | _ => cases joins
  | _ => cases joins

namespace IsCanonical

variable {options : ConvertOptions} {context : StyleContext} {elements : Elements}

theorem nil : IsCanonical [] :=
  ⟨by simp, .nil⟩

theorem reverse (canonical : IsCanonical elements) : IsCanonical elements.reverse := by
  refine ⟨fun span mem => canonical.filled span (List.mem_reverse.1 mem), ?_⟩
  rw [List.isChain_reverse]
  exact canonical.apart.imp fun _ _ apart joins => apart joins.symm

theorem cons {element : TextElement} (canonical : IsCanonical elements)
    (filled : ∀ span, element = .run span → span.content ≠ "")
    (apart : ∀ last ∈ elements.head?, ¬ Joins element last) :
    IsCanonical (element :: elements) := by
  refine ⟨fun span mem => ?_, List.isChain_cons.2 ⟨apart, canonical.apart⟩⟩
  rcases List.mem_cons.1 mem with same | mem
  · exact filled span same.symm
  · exact canonical.filled span mem

theorem cons_other {element : TextElement} (canonical : IsCanonical elements)
    (other : ∀ span, element ≠ .run span) : IsCanonical (element :: elements) := by
  refine canonical.cons (fun span same => absurd same (other span)) fun last _ joins => ?_
  cases element with
  | run span => exact other span rfl
  | _ => cases joins

theorem pushText (canonical : IsCanonical elements) (context : StyleContext) (text : String) :
    IsCanonical (pushText context text elements) := by
  by_cases empty : text = ""
  · rwa [empty, pushText_empty]
  · have some : text.isEmpty = false := by rwa [← Bool.not_eq_true, String.isEmpty_iff]
    by_cases joins : ∃ content before,
        elements = .run ⟨content, context.flags, context.link⟩ :: before
    · -- The newest run grows. Whether it could be one with its neighbour depends on style and link.
      obtain ⟨content, before, rfl⟩ := joins
      rw [pushText_run some]
      obtain ⟨apart, behind⟩ := List.isChain_cons.1 canonical.apart
      have before : IsCanonical before :=
        ⟨fun span mem => canonical.filled span (List.mem_cons_of_mem _ mem), behind⟩
      refine before.cons ?_ fun last isLast joins => apart last isLast ?_
      · rintro span ⟨⟩ both
        exact empty (String.append_eq_empty_iff.1 both).2
      · cases last with
        | run => exact joins
        | _ => cases joins
    · rw [pushText_apart some fun content before same => joins ⟨content, before, same⟩]
      refine canonical.cons ?_ fun last isLast same => joins ?_
      · rintro span ⟨⟩
        exact empty
      · cases last with
        | run last =>
            obtain ⟨before, rfl⟩ := List.head?_eq_some_iff.1 isLast
            obtain ⟨content, style, link⟩ := last
            obtain ⟨rfl, rfl⟩ := same
            exact ⟨content, before, rfl⟩
        | _ => cases same

theorem pushImage (canonical : IsCanonical elements) (options : ConvertOptions)
    (context : StyleContext) (alt url : String) :
    IsCanonical (pushImage options context alt url elements) := by
  unfold Inline.pushImage
  split
  · exact canonical.cons_other (by simp)
  · exact canonical.cons_other (by simp)
  · split
    · exact canonical.cons_other (by simp)
    · exact canonical.pushText context _

theorem leaf (canonical : IsCanonical elements) (options : ConvertOptions)
    (context : StyleContext) (node : Node) :
    IsCanonical (leaf options context elements node) := by
  obtain ⟨kind, children⟩ := node
  cases kind with
  | text | code | softBreak => exact canonical.pushText _ _
  | link url =>
      dsimp only [Inline.leaf]
      split <;> exact canonical.cons_other (by simp)
  | image url => exact canonical.pushImage options context _ url
  | math | lineBreak => exact canonical.cons_other (by simp)
  | htmlInline html =>
      dsimp only [Inline.leaf]
      split
      · exact canonical.cons_other (by simp)
      · split
        · exact canonical
        · exact canonical.pushText _ _
  | _ => exact canonical

theorem walkSiblings (canonical : IsCanonical elements) (options : ConvertOptions)
    (context : StyleContext) (depth : Nat) (nodes : List Node) :
    IsCanonical (walkSiblings options context depth elements nodes) := by
  induction nodes using siblings_induction generalizing context depth elements with
  | nil => rwa [Inline.walkSiblings]
  | span opens matched between behind =>
      rw [walkSiblings_span opens matched]
      exact behind (between canonical context.underline (depth + 1)) context depth
  | lone opens unmatched ih =>
      rw [walkSiblings_lone opens unmatched]
      exact ih canonical context depth
  | @other node rest other inside ih =>
      have first : IsCanonical (walkNode options context depth elements node) := by
        by_cases beyond : maxDepth ≤ depth
        · rwa [walkNode_beyond beyond]
        · have above := Nat.not_le.1 beyond
          cases form : inner? options node with
          | some change =>
              rw [walkNode_inner above form]
              exact inside canonical (change context) (depth + 1)
          | none =>
              rw [walkNode_leaf above form]
              exact canonical.leaf options context node
      rw [walkSiblings_other other]
      exact ih first context depth

theorem push (canonical : IsCanonical elements) (options : ConvertOptions) (addition : Push) :
    IsCanonical (push options elements addition) := by
  cases addition with
  | text content context => exact canonical.pushText context content
  | nodes nodes context => exact canonical.walkSiblings options context 0 nodes

theorem foldl_push (canonical : IsCanonical elements) (options : ConvertOptions)
    (pushes : List Push) : IsCanonical (pushes.foldl (Inline.push options) elements) := by
  induction pushes generalizing elements with
  | nil => exact canonical
  | cons addition pushes ih => exact ih (canonical.push options addition)

end IsCanonical

/-- Whatever is added leaves canonical elements, and it makes no difference to them how texts are
cut into text nodes. -/
theorem composed_canonical (options : ConvertOptions) :
    (∀ pushes, IsCanonical (pushAll options pushes)) ∧
      ∀ nodes parts, Cut nodes parts →
        compose options nodes = compose options parts ∧
          ∀ context elements, pushNodes options context elements nodes =
            pushNodes options context elements parts := by
  refine ⟨fun pushes => (IsCanonical.nil.foldl_push options pushes).reverse,
    fun nodes parts cut => ⟨compose_cut cut, fun context elements => ?_⟩⟩
  exact walkSiblings_cut cut context 0 elements

theorem composed_canonical_address :
    Cut [.mk .strong [.mk (.link "http://a") [.mk (.text "http://a") []]]]
        [.mk .strong [.mk (.link "http://a") [.mk (.text "http:") [], .mk (.text "//a") []]]] ∧
      compose {}
          [.mk .strong [.mk (.link "http://a") [.mk (.text "http:") [], .mk (.text "//a") []]]] =
        [.autoLink "http://a" { bold := true }] := by
  have cut : Cut [.mk .strong [.mk (.link "http://a") [.mk (.text "http://a") []]]]
      [.mk .strong [.mk (.link "http://a") [.mk (.text "http:") [], .mk (.text "//a") []]]] :=
    .node (.node (.text rfl .nil) .nil) .nil
  exact ⟨cut, ((composed_canonical {}).2 _ _ cut).1.symm.trans (by decide +kernel)⟩

end Blockmark.Inline
