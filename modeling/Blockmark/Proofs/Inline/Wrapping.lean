import Blockmark.Proofs.Inline.Brackets

/-!
# Styles inside each other

Emphasis, strong text and strikethrough are nodes around a list of siblings, and underlining is two
tags among them. Either way the walk comes to the siblings in a style that has one more flag, one
level deeper. Flags are only ever added, so that it makes no difference which style is around which.
The depth limit is asked for at a node and not at a tag, but from the limit on nothing is added
below either of them.

Main statements: `IsBalanced.closesAt`, `walkSiblings_wrapAll` and `composed_reordered`.
-/

namespace Blockmark.Inline

open Markdown

inductive IsBalanced : List Node → Prop
  | nil : IsBalanced []
  | other {node : Node} {nodes : List Node} (plain : bracket? node = none)
      (behind : IsBalanced nodes) : IsBalanced (node :: nodes)
  | pair {first last : Node} {nodes behind : List Node} (opens : bracket? first = some .opening)
      (closes : bracket? last = some .closing) (between : IsBalanced nodes)
      (after : IsBalanced behind) : IsBalanced (first :: (nodes ++ last :: behind))

inductive Wrapper
  | emph
  | strong
  | strikethrough
  | underline
  deriving DecidableEq, Repr, Inhabited

namespace Wrapper

def around : Wrapper → List Node → List Node
  | .emph, nodes => [.mk .emph nodes]
  | .strong, nodes => [.mk .strong nodes]
  | .strikethrough, nodes => [.mk .strikethrough nodes]
  | .underline, nodes => openTag :: (nodes ++ [closeTag])

def styled (context : StyleContext) : Wrapper → StyleContext
  | .emph => context.italic
  | .strong => context.bold
  | .strikethrough => context.strikethrough
  | .underline => context.underline

end Wrapper

/-- Siblings inside wrappers, the first of which is the outermost. -/
def wrapAll (wrappers : List Wrapper) (nodes : List Node) : List Node :=
  wrappers.foldr Wrapper.around nodes

theorem Wrapper.styled_comm (context : StyleContext) (first second : Wrapper) :
    second.styled (first.styled context) = first.styled (second.styled context) := by
  cases first <;> cases second <;> rfl

theorem bracket?_openTag : bracket? openTag = some .opening := by decide

theorem bracket?_closeTag : bracket? closeTag = some .closing := by decide

section

variable {options : ConvertOptions} {context : StyleContext} {depth opened : Nat}
  {elements : Elements} {nodes : List Node}

namespace IsBalanced

theorem closesAt (balanced : IsBalanced nodes) {rest inside behind : List Node}
    (found : ClosesAt opened rest inside behind) :
    ClosesAt opened (nodes ++ rest) (nodes ++ inside) behind := by
  induction balanced generalizing opened rest inside with
  | nil => exact found
  | other plain _ ih => exact .other plain (ih found)
  | pair opens closes _ _ ihBetween ihAfter =>
      simp only [List.cons_append, List.append_assoc]
      exact .opening opens (ihBetween (.closing closes (ihAfter found)))

theorem around (balanced : IsBalanced nodes) (wrapper : Wrapper) :
    IsBalanced (wrapper.around nodes) := by
  cases wrapper with
  | underline => exact .pair bracket?_openTag bracket?_closeTag balanced .nil
  | emph | strong | strikethrough => exact .other rfl .nil

theorem wrapAll (balanced : IsBalanced nodes) (wrappers : List Wrapper) :
    IsBalanced (wrapAll wrappers nodes) := by
  induction wrappers with
  | nil => exact balanced
  | cons wrapper wrappers ih => exact ih.around wrapper

end IsBalanced

theorem walkSiblings_underlined (balanced : IsBalanced nodes) :
    walkSiblings options context depth elements (openTag :: (nodes ++ [closeTag])) =
      walkSiblings options context.underline (depth + 1) elements nodes := by
  have found : ClosesAt 0 (nodes ++ [closeTag]) (nodes ++ []) [] :=
    balanced.closesAt (.found bracket?_closeTag)
  rw [walkSiblings_eq_walkBehind, walkSiblings_eq_walkBehind, walkBehind, bracket?_openTag]
  refine (found.walkBehind elements).trans ?_
  rw [walkBehind, List.append_nil]

theorem walkSiblings_node {kind : NodeKind} (change : StyleContext → StyleContext)
    (other : opensUnderline (.mk kind nodes) = false)
    (goesOn : inner? options (.mk kind nodes) = some change) :
    walkSiblings options context depth elements [.mk kind nodes] =
      walkSiblings options (change context) (depth + 1) elements nodes := by
  rw [walkSiblings_other other, walkSiblings]
  by_cases beyond : maxDepth ≤ depth
  · rw [walkNode_beyond beyond, walkSiblings_beyond (Nat.le_succ_of_le beyond)]
  · exact walkNode_inner (Nat.not_le.1 beyond) goesOn

theorem walkSiblings_around (balanced : IsBalanced nodes) (wrapper : Wrapper) :
    walkSiblings options context depth elements (wrapper.around nodes) =
      walkSiblings options (wrapper.styled context) (depth + 1) elements nodes := by
  cases wrapper with
  | underline => exact walkSiblings_underlined balanced
  | emph => exact walkSiblings_node (·.italic) rfl rfl
  | strong => exact walkSiblings_node (·.bold) rfl rfl
  | strikethrough => exact walkSiblings_node (·.strikethrough) rfl rfl

theorem walkSiblings_wrapAll (balanced : IsBalanced nodes) (wrappers : List Wrapper) :
    walkSiblings options context depth elements (wrapAll wrappers nodes) =
      walkSiblings options (wrappers.foldl Wrapper.styled context) (depth + wrappers.length)
        elements nodes := by
  induction wrappers generalizing context depth with
  | nil => rfl
  | cons wrapper wrappers ih =>
      rw [wrapAll, List.foldr_cons, ← wrapAll,
        walkSiblings_around (balanced.wrapAll wrappers) wrapper, ih, List.foldl_cons,
        List.length_cons, Nat.add_assoc, Nat.add_comm 1]

end

/-- The same wrappers in another order around the same siblings give the same elements, wherever
the walk comes to them: those of the siblings in all the styles, as deep as there are wrappers. -/
theorem composed_reordered (options : ConvertOptions) {nodes : List Node}
    (balanced : IsBalanced nodes) {first second : List Wrapper} (reordered : first.Perm second) :
    compose options (wrapAll first nodes) = compose options (wrapAll second nodes) ∧
      ∀ context depth elements,
        walkSiblings options context depth elements (wrapAll first nodes) =
            walkSiblings options context depth elements (wrapAll second nodes) ∧
          walkSiblings options context depth elements (wrapAll first nodes) =
            walkSiblings options (first.foldl Wrapper.styled context) (depth + first.length)
              elements nodes := by
  have same (context : StyleContext) (depth : Nat) (elements : Elements) :
      walkSiblings options context depth elements (wrapAll first nodes) =
        walkSiblings options context depth elements (wrapAll second nodes) := by
    have style : first.foldl Wrapper.styled context = second.foldl Wrapper.styled context :=
      reordered.foldl_eq' (fun _ _ _ _ context => Wrapper.styled_comm context _ _) context
    rw [walkSiblings_wrapAll balanced, walkSiblings_wrapAll balanced, style, reordered.length_eq]
  refine ⟨?_, fun context depth elements =>
    ⟨same context depth elements, walkSiblings_wrapAll balanced first⟩⟩
  rw [compose, pushNodes, same, compose, pushNodes]

def markedUp : List Node :=
  [.mk (.text "see ") [], .mk (.htmlInline "<U>") [], .mk (.image "http://a/b.png") [],
    .mk (.htmlInline "</u> ") [], .mk (.link "http://a") [.mk (.text "http://a") []]]

theorem composed_reordered_markedUp :
    IsBalanced markedUp ∧
      [Wrapper.underline, .emph, .underline, .strong].Perm
        [.strong, .underline, .underline, .emph] ∧
      compose {} (wrapAll [.underline, .emph, .underline, .strong] markedUp) =
        compose {} (wrapAll [.strong, .underline, .underline, .emph] markedUp) ∧
      compose {} (wrapAll [.strong, .underline, .underline, .emph] markedUp) =
        [.run { content := "see ", style := { bold := true, italic := true, underline := true } },
          .imageRef "" "http://a/b.png" { bold := true, italic := true, underline := true },
          .autoLink "http://a" { bold := true, italic := true, underline := true }] := by
  have image : IsBalanced [.mk (.image "http://a/b.png") []] := .other rfl .nil
  have balanced : IsBalanced markedUp :=
    .other rfl (.pair (by decide) (by decide) image (.other rfl .nil))
  have reordered : [Wrapper.underline, .emph, .underline, .strong].Perm
      [.strong, .underline, .underline, .emph] := by decide
  exact ⟨balanced, reordered, (composed_reordered {} balanced reordered).1, by decide +kernel⟩

end Blockmark.Inline
