import Blockmark.Markdown.Node
import Blockmark.Text.Blank

/-!
# Admonitions

A quote whose first paragraph starts with `[!KEYWORD]` is a callout. A reader may cut the marker
into several text nodes, so the leading text nodes are taken together until a closing bracket
shows up.

Main statement: `matchMarker_eq_some_iff` gives the form of a marker.
-/

namespace Blockmark.Import

open Markdown Text

/-- A marker that was found: its keyword, the text behind it in the last node it needed, and the
nodes behind that one. -/
structure Admonition where
  keyword : String
  remainder : List Char
  tail : List Node

def isKeywordChar (c : Char) : Bool :=
  isLetter c || isDigit c || c == '_' || c == '-'

/-- The keyword of the marker at the start of a text, and what follows the marker. White space may
precede it. -/
def matchMarker (text : List Char) : Option (List Char × List Char) :=
  match trimStart text with
  | '[' :: '!' :: first :: rest =>
    if isLetter first then
      match rest.dropWhile isKeywordChar with
      | ']' :: after => some (first :: rest.takeWhile isKeywordChar, after)
      | _ => none
    else none
  | _ => none

theorem matchMarker_eq_some_iff {text keyword after : List Char} :
    matchMarker text = some (keyword, after) ↔
      ∃ first word, keyword = first :: word ∧ isLetter first = true ∧
        word.all isKeywordChar = true ∧
        trimStart text = '[' :: '!' :: keyword ++ ']' :: after := by
  unfold matchMarker
  constructor
  · intro h
    split at h
    · next first rest htrim =>
      split at h
      · next hletter =>
        split at h
        · next tail hdrop =>
          cases h
          refine ⟨first, rest.takeWhile isKeywordChar, rfl, hletter, ?_, ?_⟩
          · exact List.all_takeWhile
          · rw [htrim, ← hdrop]
            simp
        · cases h
      · cases h
    · cases h
  · rintro ⟨first, word, rfl, hletter, hword, htrim⟩
    rw [htrim]
    have hclose : isKeywordChar ']' = false := by decide
    rw [List.all_eq_true] at hword
    have hdrop : (word ++ ']' :: after).dropWhile isKeywordChar = ']' :: after := by
      rw [List.dropWhile_append_of_pos hword, List.dropWhile_cons_of_neg (by simp [hclose])]
    have htake : (word ++ ']' :: after).takeWhile isKeywordChar = word := by
      rw [List.takeWhile_append_of_pos hword, List.takeWhile_cons_of_neg (by simp [hclose]),
        List.append_nil]
    simp [hletter, hdrop, htake]

/-- Looks for a marker behind the text `merged` of the nodes before. -/
def findAdmonition (merged : List Char) : List Node → Option Admonition
  | [] => none
  | node :: nodes =>
    match node.kind with
    | .text content =>
      let merged := merged ++ content.toList
      let head := trimStart merged
      if !head.isEmpty && head.head? != some '[' then none
      else if !head.contains ']' then findAdmonition merged nodes
      else (matchMarker merged).map fun found => ⟨String.ofList found.1, found.2, nodes⟩
    | _ => none

def Admonition.detect (nodes : List Node) : Option Admonition :=
  findAdmonition [] nodes

end Blockmark.Import
