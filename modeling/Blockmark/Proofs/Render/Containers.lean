import Blockmark.Render.Document
import Blockmark.Proofs.Text.Rows

/-!
# What stands inside a container

Quotes, quote containers and callouts put a quote mark before each line of what is rendered inside,
list items indent it, and both can be undone. So nothing falls out of its container, however deep
containers are nested.

Main statement: `containers_renderBlock`.
-/

namespace Blockmark.Render

open Text

/-! ## Quotes -/

structure ShownAsQuote (inner : List Char) (shown : List (List Char)) : Prop where
  marked : ∀ row ∈ shown, row.head? = some '>'
  unquoted : shown.map unquote = lines inner

theorem shownAsQuote_quoteLines (inner : List Char) :
    ShownAsQuote inner (rows (quoteLines inner)) := by
  rw [rows_quoteLines]
  refine ⟨List.forall_mem_map.2 fun line _ => head?_quoteLine line, ?_⟩
  rw [List.map_map]
  exact List.map_id'' unquote_quoteLine _

def calloutHeader (callout : Option Callout) : List Char :=
  "> [!".toList ++ ((callout.map (·.background.admonition)).getD "NOTE").toList ++ [']']

theorem whole_calloutHeader (callout : Option Callout) :
    '\n' ∉ calloutHeader callout ∧ '\r' ∉ calloutHeader callout := by
  have keyword (colour : CalloutColor) :
      '\n' ∉ colour.admonition.toList ∧ '\r' ∉ colour.admonition.toList := by
    cases colour <;> decide
  cases callout with
  | none => decide
  | some callout => simpa [calloutHeader] using keyword callout.background

theorem calloutText_eq (callout : Option Callout) (content : List Char) :
    calloutText callout content =
      if content.isEmpty then calloutHeader callout
      else calloutHeader callout ++ ['\n'] ++ quoteLines content :=
  rfl

theorem rows_calloutText (callout : Option Callout) (content : List Char) :
    rows (calloutText callout content) = calloutHeader callout :: rows (quoteLines content) := by
  have header := (whole_calloutHeader callout).1
  rw [calloutText_eq]
  split
  · next empty =>
    rw [List.isEmpty_iff.1 empty]
    exact rows_of_notMem (by simp [calloutHeader]) header
  · next filled =>
    have some : quoteLines content ≠ [] := by
      intro nothing
      have none := rows_quoteLines content
      rw [nothing] at none
      have empty := lines_eq_nil_iff.1 (List.map_eq_nil_iff.1 none.symm)
      exact filled (List.isEmpty_iff.2 empty)
    rw [List.append_assoc, List.singleton_append, rows_append header some]

/-! ## List items -/

/-- The rows of a list item: the first one with the marker, the others of its own text, and those
below of what is nested in it. -/
structure ShownAsItem (marker : List Char) (indent : Nat) (text nested first : List Char)
    (own below : List (List Char)) : Prop where
  marked : if (trimEnd text).isEmpty then first = trimEnd marker else marker <+: first
  number : own.length = (lines (trimEnd text)).length - 1
  indented : ∀ row ∈ own ++ below, row = [] ∨ List.replicate indent ' ' <+: row
  unindented : below.map (·.drop indent) = lines (trimEnd nested)

variable {marker : List Char}

theorem exists_itemLines (marker : List Char) (indent : Nat) (text : List Char) :
    ∃ first other behind, '\n' ∉ first ∧ lastLine other = lastLine first ∧
      lines (trimEnd text) = trimLines (other :: lines behind) ∧
      trimEnd (marker ++ indentContinuation indent text) =
        trimEnd (joinLines ((marker ++ first) :: (lines behind).map (indentLine indent))) := by
  rw [lines_trimEnd]
  by_cases feed : '\n' ∈ text
  · obtain ⟨first, behind, rfl, whole⟩ := List.eq_append_cons_of_mem feed
    refine ⟨first, dropReturn first, behind, whole, lastLine_dropReturn first, ?_, ?_⟩
    · obtain ⟨next, more, split⟩ := List.exists_cons_of_ne_nil (pieces_ne_nil '\n' behind)
      rw [lines, pieces_append whole, split, linesOfPieces, lines, split]
    · rw [indentContinuation_append whole, indentLines, ← List.append_assoc]
      by_cases none : lines behind = []
      · -- The text ends with the line feed.
        rw [none, List.map_nil, trimEnd_append_of_blank (by decide)]
        simp [joinLines]
      · rw [joinLines_cons _ (mt List.map_eq_nil_iff.1 none)]
  · refine ⟨text, text, [], feed, rfl, ?_, ?_⟩
    · rw [lines, pieces_of_notMem feed, linesOfPieces]
      split
      · next empty =>
        rw [List.isEmpty_iff.1 empty]
        rfl
      · rfl
    · rw [indentContinuation_of_notMem feed]
      simp [lines, linesOfPieces, joinLines]

theorem listItem_nil (marker : List Char) (indent : Nat) (text : List Char) :
    listItem marker indent text [] = trimEnd (marker ++ indentContinuation indent text) :=
  rfl

theorem trimEnd_append_ne_nil (inked : trimEnd marker ≠ []) (text : List Char) :
    trimEnd (marker ++ text) ≠ [] := by
  by_cases blank : trimEnd text = []
  · rwa [trimEnd_append_of_blank blank]
  · rw [trimEnd_append_of_inked blank]
    exact List.append_ne_nil_of_right_ne_nil _ blank

theorem rows_listItem (inked : trimEnd marker ≠ []) (indent : Nat) (text nested : List Char) :
    rows (listItem marker indent text nested) =
      rows (listItem marker indent text []) ++
        (lines (trimEnd nested)).map (indentLine indent) := by
  rw [listItem_nil]
  cases empty : nested.isEmpty with
  | true =>
      rw [List.isEmpty_iff.1 empty, listItem_nil]
      exact (List.append_nil _).symm
  | false =>
      have headFilled := trimEnd_append_ne_nil inked (indentContinuation indent text)
      have ownTrimmed := trimLines_rows_trimEnd (marker ++ indentContinuation indent text)
      rw [listItem, empty, if_neg Bool.false_ne_true]
      generalize trimEnd (marker ++ indentContinuation indent text) = head at headFilled ownTrimmed
      have below : (lines nested).map (indentLine indent) ≠ [] := by
        rw [ne_eq, List.map_eq_nil_iff, lines_eq_nil_iff]
        rintro rfl
        cases empty
      have whole : ∀ line ∈ rows head ++ (lines nested).map (indentLine indent), '\n' ∉ line := by
        intro line mem
        rcases List.mem_append.1 mem with mem | mem
        · exact notMem_of_mem_rows mem
        · obtain ⟨inner, listed, rfl⟩ := List.mem_map.1 mem
          exact notMem_indentLine indent (notMem_of_mem_lines nested inner listed)
      have joined : head ++ ['\n'] ++ indentLines indent nested =
          joinLines (rows head ++ (lines nested).map (indentLine indent)) := by
        rw [joinLines_append (mt rows_eq_nil_iff.1 headFilled) below, joinLines_rows,
          List.append_assoc]
        rfl
      rw [joined, rows_trimEnd_joinLines whole, lines_trimEnd, ← trimLines_map_indentLine]
      by_cases nothing : trimLines ((lines nested).map (indentLine indent)) = []
      · rw [trimLines_append_of_nil nothing, ownTrimmed, nothing, List.append_nil]
      · rw [trimLines_append nothing]

theorem shownAsItem_alone (inked : trimEnd marker ≠ []) (whole : '\n' ∉ marker) (indent : Nat)
    (text : List Char) :
    ∃ first own, rows (listItem marker indent text []) = first :: own ∧
      ShownAsItem marker indent text [] first own [] := by
  obtain ⟨start, other, behind, single, same, textLines, shown⟩ :=
    exists_itemLines marker indent text
  have whole : ∀ line ∈ (marker ++ start) :: (lines behind).map (indentLine indent),
      '\n' ∉ line := by
    refine List.forall_mem_cons.2 ⟨by simp [whole, single], List.forall_mem_map.2 ?_⟩
    exact fun line mem => notMem_indentLine indent (notMem_of_mem_lines behind line mem)
  rw [listItem_nil, shown, rows_trimEnd_joinLines whole]
  by_cases short : trimLines (lines behind) = []
  · have noMore : trimLines ((lines behind).map (indentLine indent)) = [] := by
      rw [trimLines_map_indentLine, short, List.map_nil]
    have headFilled := trimEnd_append_ne_nil inked start
    rw [trimLines_cons_of_nil short, same] at textLines
    rw [trimLines_cons_of_nil noMore, lastLine, if_neg (mt List.isEmpty_iff.1 headFilled)]
    refine ⟨_, [], rfl, ?marked, ?number, by simp, rfl⟩
    case marked =>
      by_cases blank : trimEnd start = []
      · rw [lastLine_of_blank blank] at textLines
        rw [lines_eq_nil_iff.1 textLines, trimEnd_append_of_blank blank]
        rfl
      · have inkedText : trimEnd text ≠ [] := by
          intro nothing
          rw [nothing, lastLine, if_neg (mt List.isEmpty_iff.1 blank)] at textLines
          cases textLines
        rw [if_neg (mt List.isEmpty_iff.1 inkedText), trimEnd_append_of_inked blank]
        exact List.prefix_append marker _
    case number =>
      rw [textLines, lastLine]
      split <;> rfl
  · have more : trimLines ((lines behind).map (indentLine indent)) ≠ [] := by
      rw [trimLines_map_indentLine]
      exact mt List.map_eq_nil_iff.1 short
    rw [trimLines_cons_of_ne_nil short] at textLines
    rw [trimLines_cons_of_ne_nil more, trimLines_map_indentLine]
    refine ⟨_, _, rfl, ?marked, ?number, ?indented, rfl⟩
    case marked =>
      have inkedText : trimEnd text ≠ [] := by
        intro nothing
        rw [nothing] at textLines
        cases textLines
      rw [if_neg (mt List.isEmpty_iff.1 inkedText)]
      exact List.prefix_append marker start
    case number =>
      rw [textLines, List.length_map]
      rfl
    case indented =>
      rw [List.append_nil]
      exact List.forall_mem_map.2 fun line _ => indentLine_indented indent line

theorem shownAsItem_listItem (inked : trimEnd marker ≠ []) (whole : '\n' ∉ marker) (indent : Nat)
    (text nested : List Char) :
    ∃ first own below, rows (listItem marker indent text nested) = first :: own ++ below ∧
      ShownAsItem marker indent text nested first own below := by
  obtain ⟨first, own, shown, alone⟩ := shownAsItem_alone inked whole indent text
  refine ⟨first, own, (lines (trimEnd nested)).map (indentLine indent), ?_, ?_⟩
  · rw [rows_listItem inked, shown]
  · refine ⟨alone.marked, alone.number, List.forall_mem_append.2 ⟨?_, ?_⟩, ?_⟩
    · exact fun row mem => alone.indented row (List.mem_append_left _ mem)
    · exact List.forall_mem_map.2 fun line _ => indentLine_indented indent line
    · rw [List.map_map]
      exact List.map_id'' (drop_indentLine indent) _

theorem trimEnd_numberMarker (ordinal : Nat) : trimEnd (numberMarker ordinal) ≠ [] := by
  rw [numberMarker, trimEnd_append_of_inked (by decide)]
  exact List.append_ne_nil_of_right_ne_nil _ (by decide)

theorem whole_numberMarker (ordinal : Nat) :
    '\n' ∉ numberMarker ordinal ∧ '\r' ∉ numberMarker ordinal := by
  have digit (c : Char) (other : c.isDigit = false) : c ∉ Nat.toDigits 10 ordinal := by
    intro mem
    rw [Nat.isDigit_of_mem_toDigits (by decide) (by decide) mem] at other
    cases other
  simp [numberMarker, digit '\n' (by decide), digit '\r' (by decide)]

theorem trimEnd_checkMarker (body : Option TextBody) : trimEnd (checkMarker body) ≠ [] := by
  unfold checkMarker
  split <;> decide

theorem whole_checkMarker (body : Option TextBody) :
    '\n' ∉ checkMarker body ∧ '\r' ∉ checkMarker body := by
  unfold checkMarker
  split <;> decide

/-- Whatever renders the level below, what it renders is found again in its container. -/
theorem containers_renderBlock (forest : Forest) (setting : Setting) (below : Renderer)
    (ordinal : Nat) (block : Block) (state : State) :
    let shown := rows (renderBlock forest setting below ordinal block state).1
    let inner (frame : Frame) := (below.siblings frame block.children state).1
    let item (marker : List Char) (indent : Nat) (body : Option TextBody) :=
      ∃ first own nested, shown = first :: own ++ nested ∧
        ShownAsItem marker indent (renderBody? setting body) (inner .plain) first own nested
    match block.kind with
    | .text .quote body =>
      ShownAsQuote (joinParagraphs [renderBody? setting body, inner .plain]) shown
    | .bare .quoteContainer => ShownAsQuote (inner .quoted) shown
    | .callout callout =>
      ∃ quoted, shown = calloutHeader callout :: quoted ∧ ShownAsQuote (inner .plain) quoted
    | .text .bullet body => item ['-', ' '] 2 body
    | .text .ordered body => item (numberMarker ordinal) (numberMarker ordinal).length body
    | .text .todo body => item (checkMarker body) 2 body
    | _ => True := by
  obtain ⟨id, kind, children⟩ := block
  cases kind with
  | text role body =>
      cases role with
      | quote => exact shownAsQuote_quoteLines _
      | bullet => exact shownAsItem_listItem (by decide) (by decide) 2 _ _
      | ordered =>
          exact shownAsItem_listItem (trimEnd_numberMarker ordinal) (whole_numberMarker ordinal).1 _
            _ _
      | todo =>
          exact shownAsItem_listItem (trimEnd_checkMarker body) (whole_checkMarker body).1 2 _ _
      | _ => trivial
  | bare role =>
      cases role with
      | quoteContainer => exact shownAsQuote_quoteLines _
      | _ => trivial
  | callout callout => exact ⟨_, rows_calloutText callout _, shownAsQuote_quoteLines _⟩
  | _ => trivial

/-- A carriage return in front of a line end is taken for a part of it when the text is quoted, so
that neither lines nor rows are the same inside. The marker keeps its space if the text behind it
starts on the next line. -/
theorem quote_returns_item_feed :
    let quote : Block := ⟨"quote", .text .quote (some (.plain "a\r\r\nb")), []⟩
    let item : Block := ⟨"item", .text .bullet (some (.plain "\nb")), []⟩
    let forest : Forest := ⟨[quote, item]⟩
    let below := renderer forest {} 99
    let shown := (renderBlock forest {} below 0 quote {}).1
    let inner := joinParagraphs
      [renderBody? {} quote.kind.body?, (below.siblings .plain quote.children {}).1]
    shown = "> a\r\n> b".toList ∧
      (lines shown).map unquote = ["a".toList, "b".toList] ∧
      lines inner = ["a\r".toList, "b".toList] ∧
      (rows shown).map unquote = ["a\r".toList, "b".toList] ∧
      rows inner = ["a\r\r".toList, "b".toList] ∧
      rows (renderBlock forest {} below 0 item {}).1 = ["- ".toList, "  b".toList] := by
  decide +kernel

end Blockmark.Render
