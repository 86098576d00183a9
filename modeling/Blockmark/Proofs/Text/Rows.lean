import Mathlib.Data.List.TakeDrop
import Blockmark.Proofs.Text.Inked
import Blockmark.Proofs.Text.Sheet

/-!
# Rows of a text

What stands between the line feeds of a text. Unlike its lines, rows keep a carriage return at
their end. A text that is put behind quote marks or indented line by line has the lines of the
original in its rows, and white space at the end of the text is white space in its last rows.

Main statements: `rows_quoteLines`, `trimEnd_joinLines_eq`, `lines_trimEnd`, `exists_lines_append`.
-/

namespace Blockmark.Text

/-- What stands between the line feeds of a text. A text without characters has no rows. -/
def rows (text : List Char) : List (List Char) :=
  if text.isEmpty then [] else pieces '\n' text

def unquote : List Char → List Char
  | '>' :: ' ' :: line => line
  | '>' :: line => line
  | line => line

theorem rows_joinLines {lines : List (List Char)} (some : joinLines lines ≠ [])
    (whole : ∀ line ∈ lines, '\n' ∉ line) : rows (joinLines lines) = lines := by
  have filled : lines ≠ [] := by
    rintro rfl
    exact some rfl
  rw [rows, if_neg (mt List.isEmpty_iff.1 some), pieces_joinLines filled whole]

theorem rows_append {line : List Char} (whole : '\n' ∉ line) {rest : List Char} (some : rest ≠ []) :
    rows (line ++ '\n' :: rest) = line :: rows rest := by
  rw [rows, if_neg (by simp), pieces_append whole, rows, if_neg (mt List.isEmpty_iff.1 some)]

theorem rows_of_notMem {line : List Char} (some : line ≠ []) (whole : '\n' ∉ line) :
    rows line = [line] := by
  rw [rows, if_neg (mt List.isEmpty_iff.1 some), pieces_of_notMem whole]

theorem joinLines_pieces (text : List Char) : joinLines (pieces '\n' text) = text :=
  intercalate_pieces '\n' text

theorem joinLines_rows (text : List Char) : joinLines (rows text) = text := by
  unfold rows
  split
  · next empty => rw [List.isEmpty_iff.1 empty]; rfl
  · exact joinLines_pieces text

theorem rows_eq_nil_iff {text : List Char} : rows text = [] ↔ text = [] := by
  refine ⟨fun nothing => ?_, fun empty => by rw [empty]; rfl⟩
  rw [← joinLines_rows text, nothing]
  rfl

theorem notMem_of_mem_rows {text row : List Char} (mem : row ∈ rows text) : '\n' ∉ row := by
  unfold rows at mem
  split at mem
  · cases mem
  · exact notMem_of_mem_pieces '\n' text row mem

/-! ## Quote marks -/

theorem unquote_quoteLine (line : List Char) : unquote (quoteLine line) = line := by
  cases line <;> rfl

theorem head?_quoteLine (line : List Char) : (quoteLine line).head? = some '>' := by
  cases line <;> rfl

theorem notMem_quoteLine {line : List Char} (whole : '\n' ∉ line) : '\n' ∉ quoteLine line := by
  cases line with
  | nil => decide
  | cons c line => simpa [quoteLine] using whole

theorem joinLines_ne_nil_of_head {line : List Char} (some : line ≠ []) (more : List (List Char)) :
    joinLines (line :: more) ≠ [] := by
  cases more with
  | nil => simpa [joinLines] using some
  | cons next more => simp [joinLines_cons]

theorem rows_quoteLines (text : List Char) :
    rows (quoteLines text) = (lines text).map quoteLine := by
  unfold quoteLines
  have whole : ∀ row ∈ (lines text).map quoteLine, '\n' ∉ row :=
    List.forall_mem_map.2 fun line mem => notMem_quoteLine (notMem_of_mem_lines text line mem)
  cases cut : lines text with
  | nil => rfl
  | cons line more =>
      rw [cut] at whole
      refine rows_joinLines (joinLines_ne_nil_of_head ?_ _) whole
      cases line <;> exact List.cons_ne_nil _ _

/-! ## White space at the end -/

/-- A last line without the white space at its end, or no line if it shows nothing. -/
def lastLine (line : List Char) : List (List Char) :=
  if (trimEnd line).isEmpty then [] else [trimEnd line]

/-- Lines without those at the end that show nothing, and without white space at the end. -/
def trimLines : List (List Char) → List (List Char)
  | [] => []
  | line :: more => if (trimLines more).isEmpty then lastLine line else line :: trimLines more

theorem trimLines_cons_of_nil {line : List Char} {more : List (List Char)}
    (nothing : trimLines more = []) : trimLines (line :: more) = lastLine line := by
  rw [trimLines, nothing]
  rfl

theorem trimLines_cons_of_ne_nil {line : List Char} {more : List (List Char)}
    (something : trimLines more ≠ []) : trimLines (line :: more) = line :: trimLines more := by
  rw [trimLines, if_neg (mt List.isEmpty_iff.1 something)]

theorem joinLines_lastLine (line : List Char) : joinLines (lastLine line) = trimEnd line := by
  unfold lastLine
  split
  · next blank => rw [List.isEmpty_iff.1 blank]; rfl
  · simp [joinLines]

theorem lastLine_of_blank {line : List Char} (blank : trimEnd line = []) : lastLine line = [] := by
  rw [lastLine, blank]
  rfl

theorem joinLines_trimLines_eq_nil {lines : List (List Char)} :
    joinLines (trimLines lines) = [] ↔ trimLines lines = [] := by
  refine ⟨fun nothing => ?_, fun nothing => by rw [nothing]; rfl⟩
  cases lines with
  | nil => rfl
  | cons line more =>
      by_cases empty : trimLines more = []
      · rw [trimLines_cons_of_nil empty] at nothing ⊢
        rw [joinLines_lastLine] at nothing
        exact lastLine_of_blank nothing
      · rw [trimLines_cons_of_ne_nil empty, joinLines_cons _ empty] at nothing
        simp at nothing

theorem trimEnd_joinLines_eq (lines : List (List Char)) :
    trimEnd (joinLines lines) = joinLines (trimLines lines) := by
  induction lines with
  | nil => rfl
  | cons line more ih =>
      by_cases single : more = []
      · subst single
        rw [trimLines_cons_of_nil rfl, joinLines_lastLine]
        simp [joinLines]
      · rw [joinLines_cons line single, ← List.singleton_append]
        by_cases empty : trimLines more = []
        · rw [empty] at ih
          have blank : trimEnd (['\n'] ++ joinLines more) = [] := by
            rw [trimEnd_append_of_blank ih]
            rfl
          rw [trimEnd_append_of_blank blank, trimLines_cons_of_nil empty, joinLines_lastLine]
        · have inked : trimEnd (joinLines more) ≠ [] := by
            rwa [ih, ne_eq, joinLines_trimLines_eq_nil]
          have behind := trimEnd_append_of_inked inked ['\n']
          rw [trimEnd_append_of_inked (by rw [behind]; exact List.cons_ne_nil _ _), behind, ih,
            trimLines_cons_of_ne_nil empty, joinLines_cons line empty, List.singleton_append]

theorem trimLines_append {first more : List (List Char)} (something : trimLines more ≠ []) :
    trimLines (first ++ more) = first ++ trimLines more := by
  induction first with
  | nil => rfl
  | cons line first ih =>
      have behind : trimLines (first ++ more) ≠ [] := by
        rw [ih]
        exact List.append_ne_nil_of_right_ne_nil first something
      rw [List.cons_append, trimLines_cons_of_ne_nil behind, ih, List.cons_append]

theorem trimLines_append_of_nil {first more : List (List Char)} (nothing : trimLines more = []) :
    trimLines (first ++ more) = trimLines first := by
  induction first with
  | nil => exact nothing
  | cons line first ih => rw [List.cons_append, trimLines, trimLines, ih]

theorem trimLines_trimLines (lines : List (List Char)) :
    trimLines (trimLines lines) = trimLines lines := by
  induction lines with
  | nil => rfl
  | cons line more ih =>
      by_cases empty : trimLines more = []
      · rw [trimLines_cons_of_nil empty]
        unfold lastLine
        split
        · rfl
        · next inked =>
          rw [trimLines_cons_of_nil rfl, lastLine, trimEnd_trimEnd, if_neg inked]
      · rw [trimLines_cons_of_ne_nil empty, trimLines_cons_of_ne_nil (by rwa [ih]), ih]

theorem exists_prefix_of_mem_trimLines {lines : List (List Char)} {row : List Char}
    (mem : row ∈ trimLines lines) : ∃ line ∈ lines, row <+: line := by
  induction lines with
  | nil => cases mem
  | cons line more ih =>
      by_cases empty : trimLines more = []
      · rw [trimLines_cons_of_nil empty, lastLine] at mem
        split at mem
        · cases mem
        · exact ⟨line, List.mem_cons_self, List.mem_singleton.1 mem ▸ trimEnd_isPrefix line⟩
      · rw [trimLines_cons_of_ne_nil empty] at mem
        rcases List.mem_cons.1 mem with rfl | mem
        · exact ⟨row, List.mem_cons_self, List.prefix_refl row⟩
        · obtain ⟨other, inside, start⟩ := ih mem
          exact ⟨other, List.mem_cons_of_mem _ inside, start⟩

theorem rows_trimEnd_joinLines {lines : List (List Char)} (whole : ∀ line ∈ lines, '\n' ∉ line) :
    rows (trimEnd (joinLines lines)) = trimLines lines := by
  rw [trimEnd_joinLines_eq]
  by_cases empty : trimLines lines = []
  · rw [empty]
    rfl
  · refine rows_joinLines (mt joinLines_trimLines_eq_nil.1 empty) fun row mem => ?_
    obtain ⟨line, inside, start⟩ := exists_prefix_of_mem_trimLines mem
    exact fun isFeed => whole line inside (start.subset isFeed)

theorem trimLines_rows_trimEnd (text : List Char) :
    trimLines (rows (trimEnd text)) = rows (trimEnd text) := by
  have trimmed := rows_trimEnd_joinLines (notMem_of_mem_pieces '\n' text)
  rw [joinLines_pieces] at trimmed
  rw [trimmed, trimLines_trimLines]

theorem trimEnd_dropReturn (line : List Char) : trimEnd (dropReturn line) = trimEnd line := by
  unfold dropReturn
  split
  · next last =>
    obtain ⟨front, rfl⟩ := List.getLast?_eq_some_iff.1 last
    rw [List.dropLast_concat, trimEnd_append_of_blank (by decide)]
  · rfl

theorem lastLine_dropReturn (line : List Char) : lastLine (dropReturn line) = lastLine line := by
  rw [lastLine, trimEnd_dropReturn, lastLine]

theorem linesOfPieces_lastLine (line : List Char) :
    linesOfPieces (lastLine line) = lastLine line := by
  unfold lastLine
  split
  · rfl
  · next inked => exact if_neg inked

theorem joinLines_of_linesOfPieces {cut : List (List Char)} (nothing : linesOfPieces cut = []) :
    joinLines cut = [] := by
  cases cut with
  | nil => rfl
  | cons piece more =>
      cases more with
      | nil => simpa [linesOfPieces, joinLines] using nothing
      | cons next more => cases nothing

theorem linesOfPieces_trimLines (cut : List (List Char)) :
    linesOfPieces (trimLines cut) = trimLines (linesOfPieces cut) := by
  induction cut with
  | nil => rfl
  | cons piece more ih =>
      cases more with
      | nil =>
          rw [trimLines_cons_of_nil rfl, linesOfPieces_lastLine, linesOfPieces]
          split
          · next empty =>
            rw [List.isEmpty_iff.1 empty]
            rfl
          · exact (trimLines_cons_of_nil rfl).symm
      | cons next more =>
          rw [linesOfPieces]
          by_cases empty : trimLines (next :: more) = []
          · rw [empty] at ih
            rw [trimLines_cons_of_nil empty, trimLines_cons_of_nil ih.symm, lastLine_dropReturn,
              linesOfPieces_lastLine]
          · have filled : trimLines (linesOfPieces (next :: more)) ≠ [] := by
              rw [← ih]
              exact mt joinLines_of_linesOfPieces (mt joinLines_trimLines_eq_nil.1 empty)
            obtain ⟨first, rest, split⟩ := List.exists_cons_of_ne_nil empty
            rw [trimLines_cons_of_ne_nil empty, trimLines_cons_of_ne_nil filled, ← ih, split,
              linesOfPieces]

theorem lines_eq_nil_iff {text : List Char} : lines text = [] ↔ text = [] := by
  refine ⟨fun nothing => ?_, fun empty => by rw [empty]; rfl⟩
  rw [← joinLines_pieces text]
  exact joinLines_of_linesOfPieces nothing

theorem lines_trimEnd (text : List Char) : lines (trimEnd text) = trimLines (lines text) := by
  have whole := notMem_of_mem_pieces '\n' text
  rw [lines, lines, ← linesOfPieces_trimLines, ← rows_trimEnd_joinLines whole, joinLines_pieces,
    rows]
  split
  · next empty =>
    rw [List.isEmpty_iff.1 empty]
    rfl
  · rfl

/-! ## Indentation -/

theorem trimEnd_eq_nil_of_forall {text : List Char} (blank : ∀ c ∈ text, isBlank c = true) :
    trimEnd text = [] := by
  rw [trimEnd, List.reverse_eq_nil_iff, List.dropWhile_eq_nil_iff]
  exact fun c mem => blank c (List.mem_reverse.1 mem)

theorem trimEnd_indentLine (width : Nat) (line : List Char) :
    trimEnd (indentLine width line) = indentLine width (trimEnd line) := by
  by_cases blank : trimEnd line = []
  · rw [blank]
    unfold indentLine
    split
    · rfl
    · rw [trimEnd_append_of_blank blank]
      exact trimEnd_eq_nil_of_forall fun c mem => by rw [List.eq_of_mem_replicate mem]; rfl
  · have filled : line ≠ [] := by
      rintro rfl
      exact blank rfl
    rw [indentLine, if_neg (mt List.isEmpty_iff.1 filled), trimEnd_append_of_inked blank,
      indentLine, if_neg (mt List.isEmpty_iff.1 blank)]

theorem trimLines_map_indentLine (width : Nat) (lines : List (List Char)) :
    trimLines (lines.map (indentLine width)) = (trimLines lines).map (indentLine width) := by
  have nothing (line : List Char) : indentLine width line = [] ↔ line = [] := by
    cases line with
    | nil => exact ⟨fun _ => rfl, fun _ => rfl⟩
    | cons c line => simp [indentLine]
  induction lines with
  | nil => rfl
  | cons line more ih =>
      rw [List.map_cons]
      by_cases empty : trimLines more = []
      · rw [empty] at ih
        rw [trimLines_cons_of_nil empty, trimLines_cons_of_nil ih, lastLine, trimEnd_indentLine,
          lastLine]
        simp only [List.isEmpty_iff, nothing]
        split <;> rfl
      · have filled : trimLines (more.map (indentLine width)) ≠ [] := by
          rw [ih]
          exact mt List.map_eq_nil_iff.1 empty
        rw [trimLines_cons_of_ne_nil empty, trimLines_cons_of_ne_nil filled, ih, List.map_cons]

theorem drop_indentLine (width : Nat) (line : List Char) :
    (indentLine width line).drop width = line := by
  cases line with
  | nil => simp [indentLine]
  | cons c line => simp [indentLine]

theorem indentLine_indented (width : Nat) (line : List Char) :
    indentLine width line = [] ∨ List.replicate width ' ' <+: indentLine width line := by
  cases line with
  | nil => exact .inl rfl
  | cons c line => exact .inr (List.prefix_append _ _)

theorem notMem_indentLine (width : Nat) {line : List Char} (whole : '\n' ∉ line) :
    '\n' ∉ indentLine width line := by
  unfold indentLine
  split
  · exact List.not_mem_nil
  · simp [whole]

theorem indentContinuation_of_notMem {line : List Char} (whole : '\n' ∉ line) (width : Nat) :
    indentContinuation width line = line := by
  have all : line.takeWhile (· != '\n') = line ∧ line.dropWhile (· != '\n') = [] := by
    rw [List.takeWhile_eq_self_iff, List.dropWhile_eq_nil_iff]
    simp only [bne_iff_ne, ne_eq]
    exact ⟨fun c mem eq => whole (eq ▸ mem), fun c mem eq => whole (eq ▸ mem)⟩
  rw [indentContinuation, List.span_eq_takeWhile_dropWhile, all.1, all.2]

theorem indentContinuation_append {first : List Char} (whole : '\n' ∉ first) (width : Nat)
    (behind : List Char) :
    indentContinuation width (first ++ '\n' :: behind) =
      first ++ '\n' :: indentLines width behind := by
  have kept : ∀ c ∈ first, (c != '\n') = true := by
    intro c mem
    rw [bne_iff_ne]
    exact fun eq => whole (eq ▸ mem)
  rw [indentContinuation, List.span_eq_takeWhile_dropWhile, List.takeWhile_append_of_pos kept,
    List.dropWhile_append_of_pos kept]
  simp

/-! ## Blank rows -/

def isBlankRow (row : List Char) : Bool :=
  (trimEnd row).isEmpty

theorem pieces_append_feed (text more : List Char) :
    pieces '\n' (text ++ '\n' :: more) = pieces '\n' text ++ pieces '\n' more := by
  induction text with
  | nil => simp [pushPiece]
  | cons c text ih =>
      rw [List.cons_append, pieces_cons, pieces_cons, ih]
      unfold pushPiece
      split
      · rfl
      · obtain ⟨piece, rest, cut⟩ := List.exists_cons_of_ne_nil (pieces_ne_nil '\n' text)
        rw [cut]
        rfl

theorem trimLines_eq_nil_of_forall {lines : List (List Char)}
    (blank : ∀ row ∈ lines, isBlankRow row = true) : trimLines lines = [] := by
  induction lines with
  | nil => rfl
  | cons row lines ih =>
      obtain ⟨here, later⟩ := List.forall_mem_cons.1 blank
      rw [trimLines_cons_of_nil (ih later), lastLine_of_blank (List.isEmpty_iff.1 here)]

theorem exists_inked_row {text : List Char} (inked : trimEnd text ≠ []) :
    ∃ blanks row more, pieces '\n' text = blanks ++ row :: more ∧
      (∀ blank ∈ blanks, isBlankRow blank = true) ∧ isBlankRow row = false := by
  have split := List.takeWhile_append_dropWhile (p := isBlankRow) (l := pieces '\n' text)
  cases kept : (pieces '\n' text).dropWhile isBlankRow with
  | nil =>
      have blank := List.dropWhile_eq_nil_iff.1 kept
      rw [← joinLines_pieces text, trimEnd_joinLines_eq, trimLines_eq_nil_of_forall blank] at inked
      exact absurd rfl inked
  | cons row more =>
      refine ⟨_, row, more, (kept ▸ split).symm, fun blank mem => List.mem_takeWhile_imp mem, ?_⟩
      have first := List.head?_dropWhile_not isBlankRow (pieces '\n' text)
      rw [kept] at first
      exact first

theorem linesOfPieces_append (first : List (List Char)) {more : List (List Char)}
    (some : more ≠ []) :
    linesOfPieces (first ++ more) = first.map dropReturn ++ linesOfPieces more := by
  induction first with
  | nil => rfl
  | cons piece first ih =>
      obtain ⟨next, rest, behind⟩ :=
        List.exists_cons_of_ne_nil (List.append_ne_nil_of_right_ne_nil first some)
      rw [List.cons_append, behind, linesOfPieces, ← behind, ih, List.map_cons, List.cons_append]

theorem linesOfPieces_inked {row : List Char} (inked : trimEnd row ≠ [])
    (more : List (List Char)) :
    ∃ line below, linesOfPieces (row :: more) = line :: below ∧ trimEnd line = trimEnd row := by
  cases more with
  | nil =>
      have filled : row ≠ [] := by
        rintro rfl
        exact inked rfl
      exact ⟨row, [], if_neg (mt List.isEmpty_iff.1 filled), rfl⟩
  | cons next more => exact ⟨_, _, rfl, trimEnd_dropReturn row⟩

theorem trimLines_inked {line : List Char} (inked : trimEnd line ≠ [])
    (more : List (List Char)) :
    ∃ row below, trimLines (line :: more) = row :: below ∧ trimEnd row = trimEnd line := by
  by_cases nothing : trimLines more = []
  · rw [trimLines_cons_of_nil nothing, lastLine, if_neg (mt List.isEmpty_iff.1 inked)]
    exact ⟨_, _, rfl, trimEnd_trimEnd line⟩
  · exact ⟨_, _, trimLines_cons_of_ne_nil nothing, rfl⟩

theorem exists_lines_append {text behind : List Char} {blanks more : List (List Char)}
    {row : List Char} (cut : pieces '\n' text = blanks ++ row :: more) (inked : trimEnd row ≠ [])
    (apart : behind = [] ∨ ∃ other, behind = '\n' :: other) :
    ∃ line below, lines (trimEnd (text ++ behind)) = blanks.map dropReturn ++ line :: below ∧
      trimEnd line = trimEnd row := by
  obtain ⟨rest, whole⟩ : ∃ rest, pieces '\n' (text ++ behind) = blanks ++ row :: rest := by
    rcases apart with rfl | ⟨other, rfl⟩
    · exact ⟨more, by rw [List.append_nil, cut]⟩
    · exact ⟨more ++ pieces '\n' other, by rw [pieces_append_feed, cut]; simp⟩
  obtain ⟨line, below, first, same⟩ := linesOfPieces_inked inked rest
  obtain ⟨last, others, trimmed, kept⟩ := trimLines_inked (same ▸ inked) below
  refine ⟨last, others, ?_, kept.trans same⟩
  rw [lines_trimEnd, lines, whole, linesOfPieces_append blanks (List.cons_ne_nil _ _), first,
    trimLines_append (by rw [trimmed]; exact List.cons_ne_nil _ _), trimmed]

theorem inked_last_of_trimLines {lines : List (List Char)} (trimmed : trimLines lines = lines) :
    ∀ last ∈ lines.getLast?, isBlankRow last = false := by
  induction lines with
  | nil => simp
  | cons line more ih =>
      by_cases nothing : trimLines more = []
      · rw [trimLines_cons_of_nil nothing, lastLine] at trimmed
        split at trimmed
        · cases trimmed
        · next inked =>
          obtain ⟨same, rfl⟩ := List.cons.inj trimmed
          intro last isLast
          obtain rfl : line = last := by simpa using isLast
          exact Bool.eq_false_iff.2 inked
      · rw [trimLines_cons_of_ne_nil nothing] at trimmed
        have some : more ≠ [] := by
          rintro rfl
          exact nothing rfl
        intro last isLast
        refine ih (List.cons.inj trimmed).2 last ?_
        rwa [List.getLast?_cons_of_ne_nil some] at isLast

end Blockmark.Text
