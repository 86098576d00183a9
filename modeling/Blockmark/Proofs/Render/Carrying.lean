import Mathlib.Data.List.Forall2
import Mathlib.Data.List.TakeDrop
import Mathlib.Data.List.TakeWhile
import Blockmark.Proofs.Render.Containers
import Blockmark.Proofs.Render.Plan

/-!
# Texts that carry words

A text carries some words if its lines that end in a letter end with these words, one after the
other. Whatever is made of a text carries the words of its parts: marks are put before lines, and
lines without letters at the end are put between them.

Main statements: `carries_joinShown` and the lemmas on each form in which texts are nested.
-/

namespace Blockmark.Render

open Text

def endsIn (isWord : Char → Bool) (line : List Char) : Bool :=
  line.getLast?.any isWord

/-- No white space, and no character that ends a line without words. -/
def Letters (isWord : Char → Bool) : Prop :=
  ∀ c, isWord c = true → isBlank c = false ∧ c ≠ '>' ∧ c ≠ ']'

def Carries (isWord : Char → Bool) (words : List (List Char)) (text : List Char) : Prop :=
  ∃ lines, Sheet lines ∧ text = joinLines lines ∧
    List.Forall₂ (fun word line => word <:+ line) words (lines.filter (endsIn isWord))

variable {isWord : Char → Bool} {words more : List (List Char)} {text other : List Char}

theorem carries_nil : Carries isWord [] [] :=
  ⟨[], .nil, rfl, .nil⟩

theorem Carries.words_eq_nil (carries : Carries isWord words []) : words = [] := by
  obtain ⟨lines, sheet, none, matched⟩ := carries
  by_cases some : lines = []
  · rw [some] at matched
    cases matched
    rfl
  · exact absurd none.symm (sheet.joinLines_ne_nil some)

theorem Carries.trimEnd_eq (carries : Carries isWord words text) : trimEnd text = text := by
  obtain ⟨lines, sheet, rfl, -⟩ := carries
  exact sheet.trimEnd_joinLines

theorem endsIn_of_last {line : List Char} {c : Char} (last : line.getLast? = some c) :
    endsIn isWord line = isWord c := by
  rw [endsIn, last, Option.any_some]

theorem carries_word (letters : Letters isWord) {front word : List Char} {c : Char}
    (last : word.getLast? = some c) (letter : isWord c = true)
    (whole : '\n' ∉ front ++ word ∧ '\r' ∉ front ++ word) :
    Carries isWord [word] (front ++ word) := by
  have ends : (front ++ word).getLast? = some c := getLast?_of_suffix ⟨front, rfl⟩ last
  refine ⟨[front ++ word], .line whole ends (letters c letter).1, by simp [joinLines], ?_⟩
  rw [List.filter_singleton, endsIn_of_last ends, letter]
  exact .cons ⟨front, rfl⟩ .nil

theorem carries_mark {line : List Char} {c : Char} (last : line.getLast? = some c)
    (other : isWord c = false) (inked : isBlank c = false) (whole : '\n' ∉ line ∧ '\r' ∉ line) :
    Carries isWord [] line := by
  refine ⟨[line], .line whole last inked, by simp [joinLines], ?_⟩
  rw [List.filter_singleton, endsIn_of_last last, other]
  exact .nil

/-! ## One text behind another -/

theorem Carries.behind (first : Carries isWord words text) (rest : Carries isWord more other)
    (start : text ≠ []) (some : other ≠ []) :
    Carries isWord (words ++ more) (text ++ '\n' :: other) := by
  obtain ⟨above, sheet, rfl, matched⟩ := first
  obtain ⟨below, sheet', rfl, matched'⟩ := rest
  have filled : above ≠ [] := by
    rintro rfl
    exact start rfl
  have filled' : below ≠ [] := by
    rintro rfl
    exact some rfl
  refine ⟨above ++ below, sheet.append sheet', (joinLines_append filled filled').symm, ?_⟩
  rw [List.filter_append]
  exact List.rel_append matched matched'

theorem Carries.blank_cons (rest : Carries isWord more other) (some : other ≠ []) :
    Carries isWord more ('\n' :: other) := by
  obtain ⟨below, sheet, rfl, matched⟩ := rest
  have filled : below ≠ [] := by
    rintro rfl
    exact some rfl
  exact ⟨[] :: below, sheet.blank_cons filled, (joinLines_cons [] filled).symm, matched⟩

theorem Carries.apart (first : Carries isWord words text) (rest : Carries isWord more other)
    (start : text ≠ []) (some : other ≠ []) :
    Carries isWord (words ++ more) (text ++ '\n' :: '\n' :: other) :=
  first.behind (rest.blank_cons some) start (List.cons_ne_nil _ _)

theorem carries_joinParagraphs (first : Carries isWord words text)
    (rest : Carries isWord more other) :
    Carries isWord (words ++ more) (joinParagraphs [text, other]) := by
  cases text with
  | nil =>
      rw [first.words_eq_nil]
      cases other with
      | nil => simpa [rest.words_eq_nil, joinParagraphs] using carries_nil
      | cons d other => simpa [joinParagraphs] using rest
  | cons c text =>
      cases other with
      | nil => simpa [rest.words_eq_nil, joinParagraphs] using first
      | cons d other =>
          have both := first.apart rest (List.cons_ne_nil _ _) (List.cons_ne_nil _ _)
          simpa [joinParagraphs] using both

/-! ## Marks before every line -/

theorem Carries.map {write : List Char → List Char} (carries : Carries isWord words text)
    (whole : ∀ line, '\n' ∉ line ∧ '\r' ∉ line → '\n' ∉ write line ∧ '\r' ∉ write line)
    (behind : ∀ line, line <:+ write line) (blank : endsIn isWord (write []) = false) :
    Carries isWord words (joinLines ((lines text).map write)) ∧
      (text ≠ [] → joinLines ((lines text).map write) ≠ []) := by
  obtain ⟨parts, sheet, rfl, matched⟩ := carries
  rw [sheet.lines_joinLines]
  have same : ∀ line ∈ parts, endsIn isWord (write line) = endsIn isWord line := by
    intro line _
    cases last : line.getLast? with
    | none =>
        obtain rfl := List.getLast?_eq_none_iff.1 last
        exact blank
    | some c => rw [endsIn_of_last last, endsIn_of_last (getLast?_of_suffix (behind line) last)]
  refine ⟨⟨parts.map write, sheet.map whole behind, rfl, ?_⟩, fun some => ?_⟩
  · have lettered : parts.filter (endsIn isWord ∘ write) = parts.filter (endsIn isWord) :=
      List.filter_congr same
    rw [List.filter_map, lettered, List.forall₂_map_right_iff]
    exact matched.imp fun word line suffix => suffix.trans (behind line)
  · refine (sheet.map whole behind).joinLines_ne_nil fun none => some ?_
    rw [List.map_eq_nil_iff.1 none]
    rfl

theorem carries_quoteLines (letters : Letters isWord) (carries : Carries isWord words text) :
    Carries isWord words (quoteLines text) ∧ (text ≠ [] → quoteLines text ≠ []) := by
  refine carries.map ?_ ?_ ?_
  · rintro line ⟨feed, carriage⟩
    unfold quoteLine
    split <;> simp [feed, carriage]
  · intro line
    unfold quoteLine
    split
    · next empty =>
      rw [List.isEmpty_iff.1 empty]
      exact List.nil_suffix
    · exact ⟨['>', ' '], rfl⟩
  · rw [← Bool.not_eq_true]
    exact fun letter => (letters _ letter).2.1 rfl

theorem carries_indentLines (width : Nat) (carries : Carries isWord words text) :
    Carries isWord words (indentLines width text) ∧
      (text ≠ [] → indentLines width text ≠ []) := by
  refine carries.map ?_ ?_ rfl
  · rintro line ⟨feed, carriage⟩
    unfold indentLine
    split <;> simp [feed, carriage]
  · intro line
    unfold indentLine
    split
    · next empty =>
      obtain rfl := List.isEmpty_iff.1 empty
      exact List.suffix_refl _
    · exact ⟨_, rfl⟩

/-! ## Siblings -/

theorem carries_joinPieces {parts : List (List (List Char))} {pieces : List Piece}
    (each : List.Forall₂ (fun words piece => Carries isWord words piece.text ∧ piece.text ≠ [])
      parts pieces) :
    Carries isWord parts.flatten (joinPieces pieces) ∧ (pieces ≠ [] → joinPieces pieces ≠ []) := by
  induction each with
  | nil => exact ⟨carries_nil, fun some => absurd rfl some⟩
  | @cons words piece parts pieces first _ ih =>
      refine ⟨?_, fun _ => by simp [joinPieces, first.2]⟩
      rw [List.flatten_cons, joinPieces]
      cases pieces with
      | nil =>
          rw [ih.1.words_eq_nil, joinBehind, List.append_nil, List.append_nil]
          exact first.1
      | cons next pieces =>
          have rest := ih.2 (List.cons_ne_nil _ _)
          have behind : joinBehind piece.group (next :: pieces) =
              (if next.group.isSome ∧ next.group = piece.group then ['\n'] else ['\n', '\n']) ++
                joinPieces (next :: pieces) :=
            List.append_assoc ..
          rw [behind]
          split
          · exact first.1.behind ih.1 first.2 rest
          · exact first.1.apart ih.1 first.2 rest

theorem carries_joinShown {parts : List (List (List Char))} {pieces : List Piece}
    (each : List.Forall₂ (fun words piece => Carries isWord words piece.text) parts pieces) :
    Carries isWord parts.flatten (joinShown pieces) := by
  have visible : ∃ shown, shown.flatten = parts.flatten ∧
      List.Forall₂ (fun words piece => Carries isWord words piece.text ∧ piece.text ≠ []) shown
        (pieces.filter (!·.text.isEmpty)) := by
    induction each with
    | nil => exact ⟨[], rfl, .nil⟩
    | @cons words piece parts pieces first _ ih =>
        obtain ⟨shown, same, matched⟩ := ih
        cases empty : piece.text.isEmpty with
        | true =>
            rw [List.isEmpty_iff.1 empty] at first
            refine ⟨shown, ?_, by simpa [empty] using matched⟩
            rw [same, List.flatten_cons, first.words_eq_nil, List.nil_append]
        | false =>
            refine ⟨words :: shown, by rw [List.flatten_cons, same, List.flatten_cons], ?_⟩
            rw [List.filter_cons, empty]
            exact .cons ⟨first, by simpa using empty⟩ matched
  obtain ⟨shown, same, matched⟩ := visible
  exact same ▸ (carries_joinPieces matched).1

/-! ## List items and callouts -/

theorem carries_listItem {marker line nested : List Char} {width : Nat} {word : List Char}
    (head : Carries isWord [word] (marker ++ line)) (some : marker ++ line ≠ [])
    (whole : '\n' ∉ line) (inner : Carries isWord words nested) :
    Carries isWord (word :: words) (listItem marker width line nested) := by
  rw [listItem, indentContinuation_of_notMem whole, head.trimEnd_eq]
  cases empty : nested.isEmpty with
  | true =>
      rw [List.isEmpty_iff.1 empty] at inner
      rw [inner.words_eq_nil, if_pos rfl, head.trimEnd_eq]
      exact head
  | false =>
      have deeper := carries_indentLines width inner
      have both := head.behind deeper.1 some (deeper.2 (by simpa using empty))
      rw [List.singleton_append] at both
      rw [List.append_assoc, List.singleton_append]
      exact both.trimEnd_eq.symm ▸ both

theorem carries_calloutText (letters : Letters isWord) (callout : Option Callout)
    (inner : Carries isWord words text) : Carries isWord words (calloutText callout text) := by
  have mark : isWord ']' = false := by
    rw [← Bool.not_eq_true]
    exact fun letter => (letters _ letter).2.2 rfl
  have header : Carries isWord [] (calloutHeader callout) :=
    carries_mark List.getLast?_concat mark (by decide) (whole_calloutHeader callout)
  rw [calloutText_eq]
  split
  · next empty =>
    rw [List.isEmpty_iff.1 empty] at inner
    exact inner.words_eq_nil ▸ header
  · next filled =>
    have quoted := carries_quoteLines letters inner
    have both := header.behind quoted.1 (by simp [calloutHeader]) (quoted.2 (by simpa using filled))
    rw [List.append_assoc, List.singleton_append]
    exact both

end Blockmark.Render
