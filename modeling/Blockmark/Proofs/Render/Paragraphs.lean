import Blockmark.Import.Document
import Blockmark.Proofs.Render.Numbers

/-!
# Paragraphs in list items

What is nested in a list item stands right below the item's own text, on the next line. For a list
in a list that is as it should be. But a paragraph there goes on with the paragraph above it in
Markdown, unless its text happens to start with a blank line.

Main statements: `exists_below_listItem` and `blank_below_item_iff`.
-/

namespace Blockmark.Render

open Text

/-! ## Items -/

theorem exists_listItem {kind : Kind} (isItem : kind.isListItem = true) (forest : Forest)
    (setting : Setting) (number : Nat) :
    ∃ marker indent text, trimEnd marker ≠ [] ∧ ∀ below id children state,
      (renderBlock forest setting below number ⟨id, kind, children⟩ state).1 =
        listItem marker indent text (below.siblings .plain children state).1 := by
  cases kind with
  | text role body =>
      cases role with
      | bullet => exact ⟨['-', ' '], 2, _, by decide, fun _ _ _ _ => rfl⟩
      | ordered => exact ⟨_, _, _, trimEnd_numberMarker number, fun _ _ _ _ => rfl⟩
      | todo => exact ⟨_, 2, _, trimEnd_checkMarker body, fun _ _ _ _ => rfl⟩
      | _ => cases isItem
  | _ => cases isItem

theorem siblings_nil (forest : Forest) (setting : Setting) (levels : Nat) (frame : Frame)
    (state : State) : ((renderer forest setting levels).siblings frame [] state).1 = [] := by
  cases levels <;> rfl

theorem last_listItem {marker : List Char} (inked : trimEnd marker ≠ []) (indent : Nat)
    (text : List Char) :
    ∃ last, (rows (listItem marker indent text [])).getLast? = some last ∧
      isBlankRow last = false := by
  have trimmed := trimLines_rows_trimEnd (marker ++ indentContinuation indent text)
  rw [← listItem_nil] at trimmed
  have filled : rows (listItem marker indent text []) ≠ [] := by
    rw [ne_eq, rows_eq_nil_iff, listItem_nil]
    exact trimEnd_append_ne_nil inked _
  have isLast := List.getLast?_eq_some_getLast filled
  exact ⟨_, isLast, inked_last_of_trimLines trimmed _ isLast⟩

theorem isBlankRow_indentLine (indent : Nat) (line : List Char) :
    isBlankRow (indentLine indent line) = isBlankRow line := by
  rw [isBlankRow, trimEnd_indentLine, isBlankRow]
  cases trimEnd line <;> simp [indentLine]

/-! ## Below an item -/

/-- Below some rows a text goes on: with as many blank rows as it starts with, and then with the
first of its rows that shows something. -/
structure GoesOn (own shown : List (List Char)) (text : List Char) (gap : List (List Char))
    (row : List Char) : Prop where
  below : ∃ more, shown = own ++ (gap ++ row :: more)
  blank : ∀ blank ∈ gap, isBlankRow blank = true
  inked : isBlankRow row = false
  same : ∃ blanks first rest indent, rows text = blanks ++ first :: rest ∧
    blanks.length = gap.length ∧ (∀ blank ∈ blanks, isBlankRow blank = true) ∧
    isBlankRow first = false ∧ trimEnd row = indentLine indent (trimEnd first)

theorem GoesOn.gap_ne_nil_iff {own shown gap : List (List Char)} {text row : List Char}
    (goes : GoesOn own shown text gap row) :
    gap ≠ [] ↔ ∃ start ∈ (rows text).head?, isBlankRow start = true := by
  obtain ⟨blanks, first, rest, -, cut, size, blank, inked, -⟩ := goes.same
  rw [cut]
  cases blanks with
  | nil =>
      have none : gap = [] := List.length_eq_zero_iff.1 size.symm
      simp [none, inked]
  | cons start blanks =>
      have some : gap ≠ [] := by
        rintro rfl
        cases size
      simp [some, blank start List.mem_cons_self]

theorem exists_below_listItem {marker : List Char} (marked : trimEnd marker ≠ []) (indent : Nat)
    (text : List Char) {child behind : List Char} (inked : trimEnd child ≠ [])
    (apart : behind = [] ∨ ∃ other, behind = '\n' :: other) :
    ∃ gap row, GoesOn (rows (listItem marker indent text []))
      (rows (listItem marker indent text (child ++ behind))) child gap row := by
  obtain ⟨blanks, first, rest, cut, blank, filled⟩ := exists_inked_row inked
  obtain ⟨line, below, split, same⟩ :=
    exists_lines_append cut (List.isEmpty_eq_false_iff.1 filled) apart
  have some : child ≠ [] := by
    rintro rfl
    exact inked rfl
  refine ⟨(blanks.map dropReturn).map (indentLine indent), indentLine indent line, ⟨?below, ?blank,
    ?inked, blanks, first, rest, indent, ?cut, by simp, blank, filled, ?same⟩⟩
  case below =>
    refine ⟨below.map (indentLine indent), ?_⟩
    rw [rows_listItem marked, split, List.map_append, List.map_cons]
  case blank =>
    rw [List.map_map]
    refine List.forall_mem_map.2 fun row mem => ?_
    have kept := blank row mem
    rwa [Function.comp_apply, isBlankRow_indentLine, isBlankRow, trimEnd_dropReturn]
  case inked =>
    rw [isBlankRow_indentLine, isBlankRow, same]
    exact filled
  case cut => rw [rows, if_neg (mt List.isEmpty_iff.1 some), cut]
  case same => rw [trimEnd_indentLine, same]

/-! ## The first child -/

theorem exists_joinShown {front : List Piece} (hidden : ∀ piece ∈ front, piece.text = [])
    {first : Piece} (some : first.text ≠ []) (back : List Piece) :
    ∃ behind, joinShown (front ++ first :: back) = first.text ++ behind ∧
      (behind = [] ∨ ∃ other, behind = '\n' :: other) := by
  rw [joinShown, List.filter_append, filter_hidden hidden, List.nil_append, List.filter_cons,
    if_pos (by simpa using some), joinPieces]
  refine ⟨_, rfl, ?_⟩
  cases back.filter (!·.text.isEmpty) with
  | nil => exact .inl rfl
  | cons next more =>
      rw [joinBehind]
      split
      · exact .inr ⟨_, rfl⟩
      · exact .inr ⟨_, rfl⟩

/-- Between the text of a list item and the first child that is shown there is a blank line exactly
if the text of that child starts with one. -/
theorem blank_below_item_iff (forest : Forest) (setting : Setting) (levels number : Nat)
    (block : Block) (state : State) {front back : List Shown} {child : Shown}
    (isItem : block.kind.isListItem = true)
    (planned : ((planner forest levels).siblings block.children state).1 =
      front ++ child :: back)
    (hidden : ∀ part ∈ front, (part.piece forest setting .plain).text = [])
    (inked : trimEnd (child.piece forest setting .plain).text ≠ []) :
    let below := renderer forest setting levels
    let shown := rows (renderBlock forest setting below number block state).1
    let own := rows (renderBlock forest setting below number { block with children := [] } state).1
    let text := (child.piece forest setting .plain).text
    (∃ last, own.getLast? = some last ∧ isBlankRow last = false) ∧
      ∃ gap row, GoesOn own shown text gap row ∧
        (gap ≠ [] ↔ ∃ start ∈ (rows text).head?, isBlankRow start = true) := by
  obtain ⟨id, kind, children⟩ := block
  obtain ⟨marker, indent, text, marked, item⟩ := exists_listItem isItem forest setting number
  have filled : (child.piece forest setting .plain).text ≠ [] := by
    intro none
    rw [none] at inked
    exact inked rfl
  obtain ⟨behind, joined, apart⟩ := exists_joinShown (List.forall_mem_map.2 hidden) filled
    (back.map (·.piece forest setting .plain))
  dsimp only
  rw [item, item, siblings_nil, (renderer_follows forest setting levels).siblings, planned,
    pieces_eq_map, List.map_append, List.map_cons, joined]
  obtain ⟨gap, row, goes⟩ := exists_below_listItem marked indent text inked apart
  exact ⟨last_listItem marked indent text, gap, row, goes, goes.gap_ne_nil_iff⟩

def feedItem : Block :=
  ⟨"item", .text .bullet (some (.plain "a")), ["text"]⟩

def feedBelow : Forest :=
  ⟨[feedItem, ⟨"text", .text .paragraph (some (.plain "\nb")), []⟩]⟩

theorem blank_below_item_iff_feed :
    (∃ gap row, GoesOn
        (rows (renderBlock feedBelow {} (renderer feedBelow {} 99) 0
          { feedItem with children := [] } {}).1)
        (rows (renderBlock feedBelow {} (renderer feedBelow {} 99) 0 feedItem {}).1)
        "\nb".toList gap row ∧ gap ≠ []) ∧
      document feedBelow {} ["item"] = ⟨"- a\n\n  b\n", []⟩ := by
  have planned : ((planner feedBelow 99).siblings feedItem.children {}).1 =
      [] ++ .own ⟨"text", .text .paragraph (some (.plain "\nb")), []⟩ 0 [] :: [] := by
    rfl
  obtain ⟨-, gap, row, goes, blank⟩ := blank_below_item_iff feedBelow {} 99 0 feedItem {} rfl
    planned (by simp) (by decide +kernel)
  exact ⟨⟨gap, row, goes, blank.2 ⟨[], rfl, rfl⟩⟩, by decide +kernel⟩

def twoParagraphs : Markdown.Node :=
  .mk (.list false 1) [.mk .item [.mk .paragraph [.mk (.text "a") []],
    .mk .paragraph [.mk (.text "b") []]]]

/-- In the Markdown both are lines of one paragraph. -/
theorem twoParagraphs_joined :
    let imported := Import.document {} [twoParagraphs]
    document imported.forest {} imported.roots = ⟨"- a\n  b\n", []⟩ := by
  decide +kernel

end Blockmark.Render
