import Mathlib.Data.List.Basic
import Blockmark.Text.Lines

/-!
# Lines of a text

Lines that a text can be cut into again: no line has a line end inside, and the last one does not
end with white space. Such lines stay what they are under a quote mark or when they are indented.

Main statements: `lines_joinLines`, and `lines_joinLines_concat` for a text with a line end
behind it.
-/

namespace Blockmark.Text

structure Sheet (lines : List (List Char)) : Prop where
  whole : ∀ line ∈ lines, '\n' ∉ line ∧ '\r' ∉ line
  closed : ∀ last ∈ lines.getLast?, ∃ c ∈ last.getLast?, isBlank c = false

theorem getLast?_of_suffix {short long : List Char} (suffix : short <:+ long) {c : Char}
    (last : short.getLast? = some c) : long.getLast? = some c := by
  obtain ⟨front, rfl⟩ := suffix
  rw [List.getLast?_append, last, Option.some_or]

/-! ## Joining and cutting -/

theorem notMem_intercalate {c : Char} {separator : List Char} (apart : c ∉ separator)
    {parts : List (List Char)} (none : ∀ part ∈ parts, c ∉ part) :
    c ∉ List.intercalate separator parts := by
  induction parts with
  | nil => simp
  | cons part parts ih =>
      obtain ⟨first, others⟩ := List.forall_mem_cons.1 none
      cases parts with
      | nil => simpa using first
      | cons next parts =>
          rw [List.intercalate_cons_cons, List.mem_append, List.mem_append, not_or, not_or]
          exact ⟨⟨first, apart⟩, ih others⟩

theorem pieces_of_notMem {separator : Char} {line : List Char} (whole : separator ∉ line) :
    pieces separator line = [line] := by
  induction line with
  | nil => rfl
  | cons c line ih =>
      simp only [List.mem_cons, not_or] at whole
      simp only [pieces_cons, ih whole.2, pushPiece, if_neg (Ne.symm whole.1)]

theorem notMem_of_mem_pieces (separator : Char) (text : List Char) :
    ∀ piece ∈ pieces separator text, separator ∉ piece := by
  induction text with
  | nil => simp
  | cons c text ih =>
      rw [pieces_cons]
      unfold pushPiece
      split
      · exact List.forall_mem_cons.2 ⟨List.not_mem_nil, ih⟩
      · next other =>
          cases cut : pieces separator text with
          | nil => exact absurd cut (pieces_ne_nil separator text)
          | cons piece more =>
              rw [cut] at ih
              obtain ⟨first, rest⟩ := List.forall_mem_cons.1 ih
              refine List.forall_mem_cons.2 ⟨fun mem => ?_, rest⟩
              rcases List.mem_cons.1 mem with isFirst | mem
              · exact other isFirst.symm
              · exact first mem

theorem pieces_append {separator : Char} {line : List Char} (whole : separator ∉ line)
    (rest : List Char) :
    pieces separator (line ++ separator :: rest) = line :: pieces separator rest := by
  induction line with
  | nil => exact if_pos rfl
  | cons c line ih =>
      simp only [List.mem_cons, not_or] at whole
      simp only [List.cons_append, pieces_cons, ih whole.2, pushPiece, if_neg (Ne.symm whole.1)]

theorem joinLines_cons (line : List Char) {more : List (List Char)} (some : more ≠ []) :
    joinLines (line :: more) = line ++ '\n' :: joinLines more := by
  cases more with
  | nil => exact absurd rfl some
  | cons next more => rw [joinLines, List.intercalate_cons_cons]; simp [joinLines]

theorem joinLines_append {first more : List (List Char)} (start : first ≠ []) (some : more ≠ []) :
    joinLines (first ++ more) = joinLines first ++ '\n' :: joinLines more := by
  induction first with
  | nil => exact absurd rfl start
  | cons line first ih =>
      cases first with
      | nil => simpa [joinLines] using joinLines_cons line some
      | cons next first =>
          have inner := ih (List.cons_ne_nil _ _)
          rw [List.cons_append] at inner
          rw [List.cons_append, List.cons_append, joinLines_cons line (List.cons_ne_nil _ _), inner,
            joinLines_cons line (List.cons_ne_nil _ _), List.append_assoc, List.cons_append]

theorem pieces_joinLines {lines : List (List Char)} (some : lines ≠ [])
    (whole : ∀ line ∈ lines, '\n' ∉ line) : pieces '\n' (joinLines lines) = lines := by
  induction lines with
  | nil => exact absurd rfl some
  | cons line lines ih =>
      have first := whole line List.mem_cons_self
      cases lines with
      | nil => simpa [joinLines] using pieces_of_notMem first
      | cons next lines =>
          rw [joinLines_cons line (List.cons_ne_nil _ _), pieces_append first,
            ih (List.cons_ne_nil _ _) fun line mem => whole line (List.mem_cons_of_mem _ mem)]

theorem dropReturn_of_notMem {line : List Char} (whole : '\r' ∉ line) : dropReturn line = line := by
  rw [dropReturn, if_neg fun last => whole (List.mem_of_getLast? last)]

theorem linesOfPieces_eq {lines : List (List Char)} (whole : ∀ line ∈ lines, '\r' ∉ line)
    (closed : ∀ last ∈ lines.getLast?, last ≠ []) : linesOfPieces lines = lines := by
  induction lines with
  | nil => rfl
  | cons line lines ih =>
      cases lines with
      | nil => simpa [linesOfPieces] using closed
      | cons next lines =>
          rw [linesOfPieces, dropReturn_of_notMem (whole line List.mem_cons_self),
            ih (fun line mem => whole line (List.mem_cons_of_mem _ mem)) (by simpa using closed)]

theorem notMem_of_mem_lines (text : List Char) : ∀ line ∈ lines text, '\n' ∉ line := by
  have kept := notMem_of_mem_pieces '\n' text
  rw [lines]
  generalize pieces '\n' text = cut at kept
  induction cut with
  | nil => simp [linesOfPieces]
  | cons piece more ih =>
      obtain ⟨first, rest⟩ := List.forall_mem_cons.1 kept
      cases more with
      | nil =>
          rw [linesOfPieces]
          split
          · simp
          · simpa using first
      | cons next more =>
          rw [linesOfPieces]
          refine List.forall_mem_cons.2 ⟨fun mem => first ?_, ih rest⟩
          rw [dropReturn] at mem
          split at mem
          · exact List.dropLast_subset piece mem
          · exact mem

theorem linesOfPieces_concat {lines : List (List Char)} (whole : ∀ line ∈ lines, '\r' ∉ line) :
    linesOfPieces (lines ++ [[]]) = lines := by
  induction lines with
  | nil => rfl
  | cons line lines ih =>
      obtain ⟨next, more, split⟩ := List.exists_cons_of_ne_nil
        (List.append_ne_nil_of_right_ne_nil lines (List.cons_ne_nil ([] : List Char) []))
      have kept := dropReturn_of_notMem (whole line List.mem_cons_self)
      rw [List.cons_append, split, linesOfPieces, kept, ← split,
        ih fun line mem => whole line (List.mem_cons_of_mem _ mem)]

namespace Sheet

variable {first more : List (List Char)}

theorem lines_joinLines (sheet : Sheet first) : lines (joinLines first) = first := by
  cases first with
  | nil => rfl
  | cons line first =>
      rw [lines, pieces_joinLines (List.cons_ne_nil _ _) fun line mem => (sheet.whole line mem).1]
      refine linesOfPieces_eq (fun line mem => (sheet.whole line mem).2) ?_
      rintro last isLast rfl
      obtain ⟨c, mem, -⟩ := sheet.closed _ isLast
      cases mem

theorem lines_joinLines_concat (sheet : Sheet first) (some : first ≠ []) :
    lines (joinLines first ++ ['\n']) = first := by
  have behind : joinLines first ++ ['\n'] = joinLines (first ++ [[]]) := by
    rw [joinLines_append some (List.cons_ne_nil _ _)]
    rfl
  have whole : ∀ line ∈ first ++ [[]], '\n' ∉ line := by
    intro line mem
    rcases List.mem_append.1 mem with mem | mem
    · exact (sheet.whole line mem).1
    · obtain rfl := List.mem_singleton.1 mem
      exact List.not_mem_nil
  rw [behind, lines, pieces_joinLines (List.append_ne_nil_of_left_ne_nil some _) whole]
  exact linesOfPieces_concat fun line mem => (sheet.whole line mem).2

/-! ## Sheets of sheets -/

theorem nil : Sheet [] :=
  ⟨by simp, by simp⟩

theorem line {text : List Char} (whole : '\n' ∉ text ∧ '\r' ∉ text) {c : Char}
    (last : text.getLast? = some c) (inked : isBlank c = false) : Sheet [text] :=
  ⟨by simpa using whole, by simp [last, inked]⟩

theorem append (start : Sheet first) (rest : Sheet more) : Sheet (first ++ more) := by
  refine ⟨fun line mem => ?_, fun last isLast => ?_⟩
  · exact (List.mem_append.1 mem).elim (start.whole line) (rest.whole line)
  · rw [List.getLast?_append] at isLast
    cases behind : more.getLast? with
    | none =>
        rw [behind] at isLast
        exact start.closed last isLast
    | some other =>
        rw [behind] at isLast
        exact rest.closed last (behind ▸ isLast)

theorem blank_cons (rest : Sheet more) (some : more ≠ []) : Sheet ([] :: more) := by
  refine ⟨List.forall_mem_cons.2 ⟨by simp, rest.whole⟩, fun last isLast => ?_⟩
  obtain ⟨line, more, rfl⟩ := List.exists_cons_of_ne_nil some
  exact rest.closed last (by simpa using isLast)

theorem map (sheet : Sheet first) {write : List Char → List Char}
    (whole : ∀ line, '\n' ∉ line ∧ '\r' ∉ line → '\n' ∉ write line ∧ '\r' ∉ write line)
    (behind : ∀ line, line <:+ write line) : Sheet (first.map write) := by
  refine ⟨?_, fun last isLast => ?_⟩
  · exact List.forall_mem_map.2 fun line mem => whole line (sheet.whole line mem)
  · rw [List.getLast?_map] at isLast
    obtain ⟨line, isEnd, rfl⟩ := Option.map_eq_some_iff.1 isLast
    obtain ⟨c, mem, inked⟩ := sheet.closed line isEnd
    exact ⟨c, getLast?_of_suffix (behind line) mem, inked⟩

theorem exists_concat (sheet : Sheet first) (some : first ≠ []) :
    ∃ front c, joinLines first = front ++ [c] ∧ isBlank c = false := by
  obtain ⟨init, last, rfl⟩ := (List.eq_nil_or_concat' first).resolve_left some
  obtain ⟨c, mem, inked⟩ := sheet.closed last (by simp)
  obtain ⟨front, rfl⟩ := List.getLast?_eq_some_iff.1 mem
  cases init with
  | nil => exact ⟨front, c, by simp [joinLines], inked⟩
  | cons line init =>
      rw [joinLines_append (List.cons_ne_nil _ _) (List.cons_ne_nil _ _)]
      exact ⟨joinLines (line :: init) ++ '\n' :: front, c, by simp [joinLines], inked⟩

theorem joinLines_ne_nil (sheet : Sheet first) (some : first ≠ []) : joinLines first ≠ [] := by
  obtain ⟨front, c, eq, -⟩ := sheet.exists_concat some
  simp [eq]

theorem trimEnd_joinLines (sheet : Sheet first) : trimEnd (joinLines first) = joinLines first := by
  by_cases some : first = []
  · rw [some]
    rfl
  · obtain ⟨front, c, eq, inked⟩ := sheet.exists_concat some
    rw [eq, trimEnd, List.reverse_append, List.reverse_singleton, List.singleton_append,
      List.dropWhile_cons_of_neg (by simp [inked])]
    simp

end Sheet

end Blockmark.Text
