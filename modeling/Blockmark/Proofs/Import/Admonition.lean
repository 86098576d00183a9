import Blockmark.Proofs.Import.Cut

/-!
# The grammar of markers

A marker is looked for in the leading text nodes of a paragraph, which are put together one by one.
The search gives up at the first character that no marker can start with, and it settles at the
first closing bracket. What it finds is what the whole text that the paragraph starts with says,
however that text is cut into nodes: white space, `[!`, a keyword and `]`.

Main statements: `matchMarker_eq_some_iff_isMarked`, `findAdmonition_whole` and
`detect_iff_isMarked`.
-/

namespace Blockmark.Import

open Markdown Text

def leadingText : List Node → List Char
  | .mk (.text content) _ :: nodes => content.toList ++ leadingText nodes
  | _ => []

def IsKeyword : List Char → Prop
  | [] => False
  | first :: word => isLetter first = true ∧ ∀ c ∈ word, isKeywordChar c = true

/-- A text that starts with white space and a marker. -/
def IsMarked (text keyword rest : List Char) : Prop :=
  ∃ blanks : List Char, (∀ c ∈ blanks, isBlank c = true) ∧ IsKeyword keyword ∧
    text = blanks ++ '[' :: '!' :: keyword ++ ']' :: rest

/-- The keyword of a marker, and all of the text behind it. -/
def Admonition.reading (marker : Admonition) : List Char × List Char :=
  (marker.keyword.toList, marker.remainder ++ leadingText marker.tail)

section

variable {text keyword rest merged more : List Char} {found : Admonition} {nodes : List Node}

theorem matchMarker_eq_some_iff_isMarked :
    matchMarker text = some (keyword, rest) ↔ IsMarked text keyword rest := by
  rw [matchMarker_eq_some_iff]
  constructor
  · rintro ⟨first, word, rfl, letter, chars, trimmed⟩
    refine ⟨leadingBlanks text, fun c mem => List.mem_takeWhile_imp mem,
      ⟨letter, List.all_eq_true.1 chars⟩, ?_⟩
    rw [List.append_assoc, ← trimmed, trimStart_append_eq]
  · rintro ⟨blanks, blank, isKeyword, rfl⟩
    cases keyword with
    | nil => exact isKeyword.elim
    | cons first word =>
        have opening : isBlank '[' = false := by decide
        refine ⟨first, word, rfl, isKeyword.1, List.all_eq_true.2 isKeyword.2, ?_⟩
        rw [trimStart, List.append_assoc, List.dropWhile_append_of_pos blank, List.cons_append,
          List.dropWhile_cons_of_neg (by simp [opening])]

theorem trimStart_of_matchMarker {found : List Char × List Char}
    (matched : matchMarker text = some found) :
    (trimStart text).head? = some '[' ∧ ']' ∈ trimStart text := by
  obtain ⟨first, word, -, -, -, trimmed⟩ := matchMarker_eq_some_iff.1 matched
  rw [trimmed]
  simp

theorem matchMarker_of_unclosed (unclosed : ']' ∉ trimStart text) : matchMarker text = none := by
  cases matched : matchMarker text with
  | none => rfl
  | some => exact absurd (trimStart_of_matchMarker matched).2 unclosed

theorem matchMarker_of_unopened (inked : trimStart text ≠ [])
    (unopened : (trimStart text).head? ≠ some '[') (more : List Char) :
    matchMarker (text ++ more) = none := by
  cases matched : matchMarker (text ++ more) with
  | none => rfl
  | some =>
      have opening := (trimStart_of_matchMarker matched).1
      rw [trimStart_append_of_inked inked, List.head?_append_of_ne_nil _ inked] at opening
      exact absurd opening unopened

-- As long as the search goes on, the text put together so far has no closing bracket in it.
theorem findAdmonition_whole (unclosed : ']' ∉ trimStart merged) :
    (findAdmonition merged nodes).map Admonition.reading =
      matchMarker (merged ++ leadingText nodes) := by
  induction nodes generalizing merged with
  | nil =>
      change none = matchMarker (merged ++ [])
      rw [List.append_nil, matchMarker_of_unclosed unclosed]
  | cons node nodes ih =>
      obtain ⟨kind, children⟩ := node
      cases kind with
      | text content =>
          rw [findAdmonition_text, leadingText, ← List.append_assoc]
          generalize merged ++ content.toList = merged
          by_cases hopeless : trimStart merged ≠ [] ∧ (trimStart merged).head? ≠ some '['
          · rw [if_pos (by simpa using hopeless), matchMarker_of_unopened hopeless.1 hopeless.2,
              Option.map_none]
          · rw [if_neg (by simpa using hopeless)]
            by_cases closed : ']' ∈ trimStart merged
            · rw [if_neg (by simpa using closed), matchMarker_append closed, Option.map_map]
              congr 1
              funext found
              simp [Admonition.reading]
            · rw [if_pos (by simpa using closed), ih closed]
      | _ =>
          change none = matchMarker (merged ++ [])
          rw [List.append_nil, matchMarker_of_unclosed unclosed]

theorem findAdmonition_tail (matched : findAdmonition merged nodes = some found) :
    found.tail <:+ nodes := by
  induction nodes generalizing merged with
  | nil => cases matched
  | cons node nodes ih =>
      obtain ⟨kind, children⟩ := node
      cases kind with
      | text content =>
          rw [findAdmonition_text] at matched
          split at matched
          · cases matched
          · split at matched
            · exact (ih matched).trans (List.suffix_cons _ _)
            · obtain ⟨reading, -, rfl⟩ := Option.map_eq_some_iff.1 matched
              exact List.suffix_cons _ _
      | _ => cases matched

end

/-- A marker is found exactly if the text in front starts with one. It is that one, and what is
left of the text stands behind it. -/
theorem detect_iff_isMarked (nodes : List Node) :
    ((Admonition.detect nodes).isSome = true ↔
        ∃ keyword rest, IsMarked (leadingText nodes) keyword rest) ∧
      ∀ found, Admonition.detect nodes = some found →
        found.tail <:+ nodes ∧
          ∀ keyword rest, IsMarked (leadingText nodes) keyword rest ↔
            keyword = found.keyword.toList ∧
              rest = found.remainder ++ leadingText found.tail := by
  have unclosed : ']' ∉ trimStart [] := by simp [trimStart]
  have whole : (Admonition.detect nodes).map Admonition.reading =
      matchMarker (leadingText nodes) := findAdmonition_whole unclosed
  constructor
  · rw [← Option.isSome_map (f := Admonition.reading), whole, Option.isSome_iff_exists]
    simp only [Prod.exists, matchMarker_eq_some_iff_isMarked]
  · intro found matched
    refine ⟨findAdmonition_tail matched, fun keyword rest => ?_⟩
    rw [← matchMarker_eq_some_iff_isMarked, ← whole, matched, Option.map_some, Option.some_inj,
      Admonition.reading, Prod.mk.injEq, eq_comm, @eq_comm _ _ rest]

theorem detect_iff_isMarked_fragments :
    let nodes : List Node := [.mk (.text " ") [], .mk (.text "[") [], .mk (.text "!No") [],
      .mk (.text "te-1] a") [], .mk (.text "]b") [], .mk .softBreak [], .mk (.text "c") []]
    (∃ found, Admonition.detect nodes = some found) ∧
      IsMarked (leadingText nodes) "Note-1".toList " a]b".toList ∧
      ¬ IsMarked (leadingText nodes) "Note".toList "-1] a]b".toList := by
  intro nodes
  have matched : Admonition.detect nodes = some ⟨"Note-1", " a".toList,
      [.mk (.text "]b") [], .mk .softBreak [], .mk (.text "c") []]⟩ := by rfl
  obtain ⟨-, marked⟩ := (detect_iff_isMarked nodes).2 _ matched
  refine ⟨⟨_, matched⟩, (marked _ _).2 ⟨by decide, by decide⟩, fun other => ?_⟩
  exact absurd ((marked _ _).1 other).1 (by decide)

end Blockmark.Import
