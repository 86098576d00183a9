import Mathlib.Data.List.Forall2
import Blockmark.Proofs.Render.Plan
import Blockmark.Proofs.Table.Segments
import Blockmark.Proofs.Text.Inked
import Blockmark.Proofs.Text.Sheet

/-!
# The shape of rendered tables

A pipe ends a column unless a backslash stands in front of it. In a rendered table all lines are
equally long, every line has the same number of columns, and the columns of all lines but the
second are the rendered cells between white space.

Main statement: `pipeTable_renderBlock`.
-/

namespace Blockmark.Render

open Text

/-! ## Cutting lines at pipes -/

/-- The pieces of a line between its pipes. A pipe is part of a piece if it is `escaped`: if the
character in front of it is a backslash. -/
def pipePieces (escaped : Bool) : List Char → List (List Char)
  | [] => [[]]
  | c :: text =>
    let cut := pipePieces (c == '\\') text
    if c = '|' ∧ escaped = false then [] :: cut else cut.modifyHead (c :: ·)

def spaced (text : List Char) : List Char :=
  ' ' :: text ++ [' ']

def barred (texts : List (List Char)) : List Char :=
  '|' :: texts.flatMap fun text => spaced text ++ ['|']

section

variable {escaped : Bool} {text : List Char} {texts : List (List Char)}

theorem pipePieces_cons_of_ne {c : Char} (other : c ≠ '|') (text : List Char) :
    pipePieces escaped (c :: text) = (pipePieces (c == '\\') text).modifyHead (c :: ·) := by
  simp [pipePieces, other]

theorem whole_of_notMem (none : '|' ∉ text) : pipePieces escaped text = [text] := by
  induction text generalizing escaped with
  | nil => rfl
  | cons c text ih =>
      rw [List.mem_cons, not_or] at none
      rw [pipePieces_cons_of_ne (Ne.symm none.1), ih none.2]
      rfl

theorem whole_of_cons {c : Char} (whole : pipePieces escaped (c :: text) = [c :: text]) :
    ¬ (c = '|' ∧ escaped = false) ∧ pipePieces (c == '\\') text = [text] := by
  rw [pipePieces] at whole
  split at whole
  · cases whole
  · next inside =>
      refine ⟨inside, ?_⟩
      cases cut : pipePieces (c == '\\') text with
      | nil => simp [cut] at whole
      | cons piece more => simpa [cut] using whole

theorem whole_append (whole : pipePieces escaped text = [text]) {rest : List Char}
    (none : '|' ∉ rest) : pipePieces escaped (text ++ rest) = [text ++ rest] := by
  induction text generalizing escaped with
  | nil => exact whole_of_notMem none
  | cons c text ih =>
      obtain ⟨inside, behind⟩ := whole_of_cons whole
      rw [List.cons_append, pipePieces, if_neg inside, ih behind]
      rfl

theorem pipePieces_append_pipe (whole : pipePieces escaped text = [text]) (rest : List Char) :
    pipePieces escaped (text ++ ' ' :: '|' :: rest) =
      (text ++ [' ']) :: pipePieces false rest := by
  induction text generalizing escaped with
  | nil => simp [pipePieces]
  | cons c text ih =>
      obtain ⟨inside, behind⟩ := whole_of_cons whole
      rw [List.cons_append, pipePieces, if_neg inside, ih behind]
      rfl

theorem pipePieces_barred (whole : ∀ text ∈ texts, pipePieces false text = [text]) :
    pipePieces false (barred texts) = [] :: texts.map spaced ++ [[]] := by
  have behind : pipePieces false (texts.flatMap fun text => spaced text ++ ['|']) =
      texts.map spaced ++ [[]] := by
    induction texts with
    | nil => rfl
    | cons text texts ih =>
        obtain ⟨first, rest⟩ := List.forall_mem_cons.1 whole
        have start : pipePieces false (' ' :: text) = [' ' :: text] := by
          rw [pipePieces_cons_of_ne (by decide)]
          change (pipePieces false text).modifyHead _ = _
          rw [first]
          rfl
        have line : spaced text ++ ['|'] ++ (texts.flatMap fun text => spaced text ++ ['|']) =
            (' ' :: text) ++ ' ' :: '|' :: texts.flatMap fun text => spaced text ++ ['|'] := by
          simp [spaced]
        rw [List.flatMap_cons, line, pipePieces_append_pipe start, ih rest]
        rfl
  change [] :: pipePieces false _ = _
  rw [behind]
  rfl

def lineLength (widths : List Nat) : Nat :=
  widths.foldr (fun width behind => width + 3 + behind) 1

theorem length_barred (texts : List (List Char)) :
    (barred texts).length = lineLength (texts.map List.length) := by
  rw [barred, List.length_cons, lineLength]
  induction texts with
  | nil => rfl
  | cons text texts ih =>
      rw [List.flatMap_cons, List.length_append, List.map_cons, List.foldr_cons, ← ih]
      simp only [spaced, List.length_append, List.length_cons, List.length_nil]
      omega

theorem notMem_barred {c : Char} (apart : c ≠ '|' ∧ c ≠ ' ') (none : ∀ text ∈ texts, c ∉ text) :
    c ∉ barred texts := by
  intro mem
  rcases List.mem_cons.1 mem with isPipe | mem
  · exact apart.1 isPipe
  · obtain ⟨text, inside, mem⟩ := List.mem_flatMap.1 mem
    have fresh := none text inside
    simp [spaced, apart, fresh] at mem

end

/-! ## Cells -/

/-- What a cell is on its line: no white space at its ends, no line end, and no pipe that parts
it. -/
structure CellText (text : List Char) : Prop where
  inked : Inked text
  oneLine : '\n' ∉ text
  whole : ∀ escaped, pipePieces escaped text = [text]

def escapePipe (c : Char) : List Char :=
  if c = '|' then ['\\', '|'] else [c]

theorem whole_escapePipes (escaped : Bool) (text : List Char) :
    pipePieces escaped (text.flatMap escapePipe) = [text.flatMap escapePipe] := by
  induction text generalizing escaped with
  | nil => rfl
  | cons c text ih =>
      rw [List.flatMap_cons, escapePipe]
      split
      · -- The backslash keeps the pipe behind it inside.
        rw [List.cons_append, List.cons_append, List.nil_append,
          pipePieces_cons_of_ne (by decide), pipePieces, if_neg (by simp), ih]
        rfl
      · next other =>
          rw [List.singleton_append, pipePieces_cons_of_ne other, ih]
          rfl

theorem cellText_cellLine (content : List Char) : CellText (cellLine content) := by
  have parts : ∀ part ∈ ((lines content).map trim).filter (!·.isEmpty),
      Inked part ∧ '\n' ∉ part := by
    intro part mem
    obtain ⟨line, inside, rfl⟩ := List.mem_map.1 (List.mem_filter.1 mem).1
    exact ⟨inked_trim line,
      fun mem => notMem_of_mem_lines content line inside (trim_subset line mem)⟩
  have tag : Inked ['<', 'b', 'r', '>'] := ⟨by simp; decide, by simp; decide⟩
  constructor
  · apply (Inked.intercalate tag fun part mem => (parts part mem).1).flatMap
    · intro c
      split <;> simp
    · intro c visible
      split
      · exact ⟨by simp; decide, by simp; decide⟩
      · exact ⟨by simpa using visible, by simpa using visible⟩
  · have noEnd : '\n' ∉ ['<', 'b', 'r', '>'] := by decide
    have joined := notMem_intercalate noEnd fun part mem => (parts part mem).2
    intro mem
    obtain ⟨c, inside, mem⟩ := List.mem_flatMap.1 mem
    split at mem
    · simp at mem
    · obtain rfl := List.mem_singleton.1 mem
      exact joined inside
  · intro escaped
    exact whole_escapePipes escaped _

theorem cellText_of_mem_renderCells {below : Renderer} (cells : List (Option BlockId))
    (state : State) : ∀ text ∈ (renderCells below cells state).1, CellText text := by
  induction cells generalizing state with
  | nil => simp [renderCells]
  | cons cell cells ih =>
      cases cell with
      | none =>
          refine List.forall_mem_cons.2 ⟨?_, ih state⟩
          exact cellLine_nil ▸ cellText_cellLine []
      | some id => exact List.forall_mem_cons.2 ⟨cellText_cellLine _, ih _⟩

theorem length_renderCells (below : Renderer) (cells : List (Option BlockId)) (state : State) :
    (renderCells below cells state).1.length = cells.length := by
  induction cells generalizing state with
  | nil => rfl
  | cons cell cells ih =>
      cases cell with
      | none => simp [renderCells, ih]
      | some id => simp [renderCells, ih]

theorem length_renderRows (below : Renderer) (rows : List (List (Option BlockId)))
    (state : State) : (renderRows below rows state).1.length = rows.length := by
  induction rows generalizing state with
  | nil => rfl
  | cons row rows ih => simp [renderRows, ih]

theorem exists_row_of_mem_renderRows {below : Renderer} {rows : List (List (Option BlockId))}
    {state : State} : ∀ texts ∈ (renderRows below rows state).1,
      (∃ row ∈ rows, texts.length = row.length) ∧ ∀ text ∈ texts, CellText text := by
  induction rows generalizing state with
  | nil => simp [renderRows]
  | cons row rows ih =>
      refine List.forall_mem_cons.2 ⟨⟨⟨row, List.mem_cons_self, ?_⟩, ?_⟩, fun texts mem => ?_⟩
      · exact length_renderCells below row state
      · exact cellText_of_mem_renderCells row state
      · obtain ⟨⟨other, inside, length⟩, areTexts⟩ := ih texts mem
        exact ⟨⟨other, List.mem_cons_of_mem _ inside, length⟩, areTexts⟩

/-! ## Widths of columns -/

def Fits (widths : List Nat) (row : List (List Char)) : Prop :=
  List.Forall₂ (fun text width => text.length ≤ width) row widths

theorem Fits.widen {widths lengths : List Nat} {row : List (List Char)} (fits : Fits widths row)
    (same : lengths.length = widths.length) : Fits (List.zipWith max widths lengths) row := by
  unfold Fits at *
  induction fits generalizing lengths with
  | nil => exact .nil
  | cons here _ ih =>
      obtain ⟨length, lengths, rfl⟩ := List.exists_cons_of_length_eq_add_one same
      exact .cons (here.trans (Nat.le_max_left ..)) (ih (Nat.succ.inj same))

theorem fits_zipWith {widths : List Nat} {row : List (List Char)}
    (same : row.length = widths.length) :
    Fits (List.zipWith max widths (row.map List.length)) row := by
  induction row generalizing widths with
  | nil =>
      obtain rfl := List.length_eq_zero_iff.1 same.symm
      exact .nil
  | cons text row ih =>
      obtain ⟨width, widths, rfl⟩ := List.exists_cons_of_length_eq_add_one same.symm
      exact .cons (Nat.le_max_right ..) (ih (Nat.succ.inj same))

theorem fits_foldl {widths : List Nat} {rows : List (List (List Char))}
    (even : ∀ row ∈ rows, row.length = widths.length) :
    let widest := rows.foldl (fun widths row => List.zipWith max widths (row.map List.length)) widths
    (∀ row, Fits widths row → Fits widest row) ∧ ∀ row ∈ rows, Fits widest row := by
  induction rows generalizing widths with
  | nil => exact ⟨fun _ fits => fits, by simp⟩
  | cons row rows ih =>
      obtain ⟨first, others⟩ := List.forall_mem_cons.1 even
      have same : (row.map List.length).length = widths.length := by rw [List.length_map, first]
      have kept : (List.zipWith max widths (row.map List.length)).length = widths.length := by
        rw [List.length_zipWith, same, Nat.min_self]
      obtain ⟨before, behind⟩ := ih fun row mem => (others row mem).trans kept.symm
      refine ⟨fun row fits => before row (fits.widen same), List.forall_mem_cons.2 ⟨?_, behind⟩⟩
      exact before row (fits_zipWith first)

/-- The smallest column, of which every column has the width. -/
def ruler (columns : Nat) : List (List Char) :=
  List.replicate columns ['-', '-', '-']

theorem fits_columnWidths {columns : Nat} {rows : List (List (List Char))}
    (even : ∀ row ∈ rows, row.length = columns) :
    Fits (columnWidths columns rows) (ruler columns) ∧
      ∀ row ∈ rows, Fits (columnWidths columns rows) row := by
  have start : ∀ row ∈ rows, row.length = (List.replicate columns 3).length := by
    simpa using even
  obtain ⟨before, inside⟩ := fits_foldl start
  refine ⟨before _ ?_, inside⟩
  rw [Fits, ruler]
  exact List.forall₂_iff_get.2 ⟨by simp, by simp⟩

theorem wide_of_ruled {columns : Nat} {widths : List Nat} (ruled : Fits widths (ruler columns)) :
    ∀ width ∈ widths, 3 ≤ width := by
  induction columns generalizing widths with
  | zero =>
      cases ruled
      simp
  | succ columns ih =>
      rw [ruler, List.replicate_succ] at ruled
      cases ruled with
      | cons here rest => exact List.forall_mem_cons.2 ⟨here, ih rest⟩

/-! ## Lines of a table -/

def Columned (texts : List (List Char)) (line : List Char) : Prop :=
  ∃ between, pipePieces false line = [] :: between ++ [[]] ∧ between.map trim = texts

theorem trim_spaced {text : List Char} (inked : Inked text) : trim (spaced text) = text := by
  have blank : ∀ c ∈ [' '] ++ [' '], isBlank c = true := by simp [isBlank]
  exact inked.trim_between blank

section

variable {widths : List Nat} {row : List (List Char)}

def padded (widths : List Nat) (row : List (List Char)) : List (List Char) :=
  (row.zip widths).map fun cell => padRight cell.2 cell.1

theorem tableRow_eq (widths : List Nat) (row : List (List Char)) :
    tableRow widths row = barred (padded widths row) := by
  rw [barred, padded, List.flatMap_map, tableRow]
  congr 2
  funext cell
  simp [spaced]

theorem Fits.lengths_padded (fits : Fits widths row) :
    (padded widths row).map List.length = widths := by
  unfold Fits at fits
  induction fits with
  | nil => rfl
  | cons here _ ih => exact congr_arg₂ List.cons (length_padRight here) ih

theorem Fits.texts_padded (fits : Fits widths row) (texts : ∀ text ∈ row, CellText text) :
    (padded widths row).map (trim ∘ spaced) = row := by
  unfold Fits at fits
  induction fits with
  | nil => rfl
  | @cons text width row widths here _ ih =>
      obtain ⟨first, rest⟩ := List.forall_mem_cons.1 texts
      refine congr_arg₂ List.cons ?_ (ih rest)
      have around : spaced (padRight width text) =
          [' '] ++ text ++ (List.replicate (width - text.length) ' ' ++ [' ']) := by
        simp [spaced, padRight]
      have blank : ∀ c ∈ [' '] ++ (List.replicate (width - text.length) ' ' ++ [' ']),
          isBlank c = true := by
        intro c mem
        have isSpace : c = ' ' := by simp at mem; tauto
        rw [isSpace]
        rfl
      rw [Function.comp_apply, around, first.inked.trim_between blank]

theorem mem_padded {text : List Char} (mem : text ∈ padded widths row) :
    ∃ cell ∈ row, ∃ number, text = cell ++ List.replicate number ' ' := by
  obtain ⟨cell, inside, rfl⟩ := List.mem_map.1 mem
  exact ⟨cell.1, (List.of_mem_zip inside).1, _, rfl⟩

theorem columned_tableRow (fits : Fits widths row) (texts : ∀ text ∈ row, CellText text) :
    Columned row (tableRow widths row) := by
  refine ⟨(padded widths row).map spaced, ?_, ?_⟩
  · rw [tableRow_eq]
    apply pipePieces_barred
    intro text mem
    obtain ⟨cell, inside, number, rfl⟩ := mem_padded mem
    exact whole_append ((texts cell inside).whole false) (by simp [List.mem_replicate])
  · rw [List.map_map]
    exact fits.texts_padded texts

theorem length_tableRow (fits : Fits widths row) :
    (tableRow widths row).length = lineLength widths := by
  rw [tableRow_eq, length_barred, fits.lengths_padded]

theorem oneLine_tableRow (widths : List Nat) (texts : ∀ text ∈ row, CellText text) :
    '\n' ∉ tableRow widths row := by
  rw [tableRow_eq]
  apply notMem_barred (by decide)
  intro text mem
  obtain ⟨cell, inside, number, rfl⟩ := mem_padded mem
  have whole := (texts cell inside).oneLine
  simp [whole, List.mem_replicate]

end

/-! ## The line of dashes -/

structure ShowsAlign (align : Option Align) (group : List Char) : Prop where
  long : 3 ≤ group.length
  drawn : ∀ c ∈ group, c = '-' ∨ c = ':'
  left : group.head? = some ':' ↔ align = some .left ∨ align = some .center
  right : group.getLast? = some ':' ↔ align = some .right ∨ align = some .center

theorem dashes_eq (width : Nat) (align : Option Align) :
    ∃ first last, dashes width align = first :: List.replicate (width - 2) '-' ++ [last] ∧
      (first = if align = some .left ∨ align = some .center then ':' else '-') ∧
      last = if align = some .right ∨ align = some .center then ':' else '-' := by
  rcases align with _ | _ | _ | _ <;> exact ⟨_, _, rfl, rfl, rfl⟩

theorem length_dashes {width : Nat} (wide : 3 ≤ width) (align : Option Align) :
    (dashes width align).length = width := by
  obtain ⟨first, last, eq, -, -⟩ := dashes_eq width align
  rw [eq]
  simp
  omega

theorem showsAlign_dashes {width : Nat} (wide : 3 ≤ width) (align : Option Align) :
    ShowsAlign align (dashes width align) := by
  obtain ⟨first, last, eq, isFirst, isLast⟩ := dashes_eq width align
  constructor
  · rw [length_dashes wide]
    exact wide
  · intro c mem
    rw [eq] at mem
    simp only [List.cons_append, List.mem_cons, List.mem_append, List.mem_replicate] at mem
    grind
  · rw [eq]
    simp [isFirst, or_iff_not_imp_left]
  · rw [eq, List.getLast?_concat]
    simp [isLast, or_iff_not_imp_left]

theorem ShowsAlign.inked {align : Option Align} {group : List Char}
    (shows : ShowsAlign align group) : Inked group := by
  have visible : ∀ c ∈ group, isBlank c = false := by
    intro c mem
    rcases shows.drawn c mem with rfl | rfl <;> rfl
  exact ⟨fun c isFirst => visible c (List.mem_of_mem_head? isFirst),
    fun c isLast => visible c (List.mem_of_getLast? isLast)⟩

section

variable {widths : List Nat} {alignments : List (Option Align)}

def dashGroups (widths : List Nat) (alignments : List (Option Align)) : List (List Char) :=
  (widths.zip alignments).map fun column => dashes column.1 column.2

theorem tableSeparator_eq (widths : List Nat) (alignments : List (Option Align)) :
    tableSeparator widths alignments = barred (dashGroups widths alignments) := by
  rw [barred, dashGroups, List.flatMap_map, tableSeparator]
  congr 2
  funext column
  simp [spaced]

theorem forall₂_dashGroups (wide : ∀ width ∈ widths, 3 ≤ width)
    (same : widths.length = alignments.length) :
    List.Forall₂ ShowsAlign alignments (dashGroups widths alignments) ∧
      (dashGroups widths alignments).map List.length = widths := by
  induction widths generalizing alignments with
  | nil =>
      obtain rfl := List.length_eq_zero_iff.1 same.symm
      exact ⟨.nil, rfl⟩
  | cons width widths ih =>
      obtain ⟨align, alignments, rfl⟩ := List.exists_cons_of_length_eq_add_one same.symm
      obtain ⟨first, rest⟩ := List.forall_mem_cons.1 wide
      obtain ⟨shown, lengths⟩ := ih rest (Nat.succ.inj same)
      exact ⟨.cons (showsAlign_dashes first align) shown,
        congr_arg₂ List.cons (length_dashes first align) lengths⟩

theorem exists_showsAlign (wide : ∀ width ∈ widths, 3 ≤ width) {group : List Char}
    (mem : group ∈ dashGroups widths alignments) : ∃ align, ShowsAlign align group := by
  obtain ⟨column, inside, rfl⟩ := List.mem_map.1 mem
  exact ⟨column.2, showsAlign_dashes (wide column.1 (List.of_mem_zip inside).1) column.2⟩

theorem notMem_dashGroups (wide : ∀ width ∈ widths, 3 ≤ width) {c : Char}
    (other : c ≠ '-' ∧ c ≠ ':') : ∀ group ∈ dashGroups widths alignments, c ∉ group := by
  intro group mem isInside
  obtain ⟨align, shows⟩ := exists_showsAlign wide mem
  exact (shows.drawn c isInside).elim other.1 other.2

theorem columned_tableSeparator (wide : ∀ width ∈ widths, 3 ≤ width) :
    Columned (dashGroups widths alignments) (tableSeparator widths alignments) := by
  refine ⟨(dashGroups widths alignments).map spaced, ?_, ?_⟩
  · rw [tableSeparator_eq]
    apply pipePieces_barred
    intro group mem
    exact whole_of_notMem (notMem_dashGroups wide (by decide) group mem)
  · rw [List.map_map]
    refine (List.map_congr_left fun group mem => ?_).trans (List.map_id _)
    obtain ⟨align, shows⟩ := exists_showsAlign wide mem
    exact trim_spaced shows.inked

theorem length_tableSeparator (wide : ∀ width ∈ widths, 3 ≤ width)
    (same : widths.length = alignments.length) :
    (tableSeparator widths alignments).length = lineLength widths := by
  rw [tableSeparator_eq, length_barred, (forall₂_dashGroups wide same).2]

end

/-! ## Whole tables -/

structure PipeTable (alignments : List (Option Align)) (rows : List (List (List Char)))
    (lines : List (List Char)) : Prop where
  count : lines.length = rows.length + 1
  even : ∃ length, ∀ line ∈ lines, line.length = length
  separator : ∃ line groups, lines[1]? = some line ∧ Columned groups line ∧
    List.Forall₂ ShowsAlign alignments groups
  columned : List.Forall₂ Columned rows (lines.eraseIdx 1)

theorem pipeTable_tableLines {columns : Nat} {alignments : List (Option Align)}
    {rows : List (List (List Char))} (some : rows ≠ [])
    (even : ∀ row ∈ rows, row.length = columns) (marked : alignments.length = columns)
    (texts : ∀ row ∈ rows, ∀ text ∈ row, CellText text) :
    PipeTable alignments rows (tableLines columns alignments rows) ∧
      ∀ line ∈ tableLines columns alignments rows, '\n' ∉ line := by
  obtain ⟨header, body, rfl⟩ := List.exists_cons_of_ne_nil some
  obtain ⟨ruled, fits⟩ := fits_columnWidths even
  have wide := wide_of_ruled ruled
  have same : (columnWidths columns (header :: body)).length = alignments.length := by
    rw [← ruled.length_eq, marked, ruler, List.length_replicate]
  generalize widest : columnWidths columns (header :: body) = widths at fits wide same
  have lines : tableLines columns alignments (header :: body) =
      tableRow widths header :: tableSeparator widths alignments ::
        body.map (tableRow widths) := by
    rw [tableLines, widest]
  have inLines {p : List Char → Prop} (dashed : p (tableSeparator widths alignments))
      (written : ∀ row ∈ header :: body, p (tableRow widths row)) :
      ∀ line ∈ tableLines columns alignments (header :: body), p line := by
    obtain ⟨first, others⟩ := List.forall_mem_cons.1 written
    rw [lines]
    exact List.forall_mem_cons.2
      ⟨first, List.forall_mem_cons.2 ⟨dashed, List.forall_mem_map.2 others⟩⟩
  refine ⟨⟨by simp [lines], ⟨lineLength widths, ?_⟩, ?_, ?_⟩, ?_⟩
  · apply inLines
    · exact length_tableSeparator wide same
    · exact fun row mem => length_tableRow (fits row mem)
  · rw [lines]
    exact ⟨_, _, rfl, columned_tableSeparator wide, (forall₂_dashGroups wide same).1⟩
  · rw [lines]
    change List.Forall₂ Columned (header :: body) ((header :: body).map (tableRow widths))
    rw [List.forall₂_map_right_iff, List.forall₂_same]
    exact fun row mem => columned_tableRow (fits row mem) (texts row mem)
  · apply inLines
    · rw [tableSeparator_eq]
      exact notMem_barred (by decide) (notMem_dashGroups wide (by decide))
    · exact fun row mem => oneLine_tableRow widths (texts row mem)

/-- A table with a complete row is rendered as a table in pipes, whatever is rendered in its cells
and wherever it stands: its lines are equally long, the second one shows the alignments of the
header, and cut at their bare pipes the others give the rendered cells. -/
theorem pipeTable_renderBlock (forest : Forest) (setting : Setting) (levels ordinal : Nat)
    (block : Block) (state : State) {property : TableProperty}
    (isTable : block.kind = .table (some property)) (columns : 0 < property.columnSize)
    (complete : property.columnSize ≤ property.cells.length) :
    let below := renderer forest setting levels
    let rows := (renderRows below property.rows state).1
    let alignments := (property.rows.headD []).map (·.bind (cellAlignment forest))
    let lines := pieces '\n' (renderBlock forest setting below ordinal block state).1
    PipeTable alignments rows lines ∧
      lines.length = property.cells.length / property.columnSize + 1 ∧
      alignments.length = property.columnSize ∧
      ∀ row ∈ rows, row.length = property.columnSize ∧ ∀ text ∈ row, '\n' ∉ text := by
  intro below rows alignments lines
  have number := TableProperty.length_rows columns.ne'
  have texts : ∀ row ∈ rows, row.length = property.columnSize ∧ ∀ text ∈ row, CellText text := by
    intro row mem
    obtain ⟨⟨cells, inside, length⟩, areTexts⟩ := exists_row_of_mem_renderRows row mem
    exact ⟨length.trans (TableProperty.length_of_mem_rows inside), areTexts⟩
  have count : rows.length = property.cells.length / property.columnSize :=
    (length_renderRows below property.rows state).trans number
  have some : rows ≠ [] := by
    intro none
    rw [none] at count
    exact (Nat.div_pos complete columns).ne count
  obtain ⟨header, body, split⟩ : ∃ header body, property.rows = header :: body := by
    apply List.exists_cons_of_length_pos
    rw [number]
    exact Nat.div_pos complete columns
  have marked : alignments.length = property.columnSize := by
    simp only [alignments, split, List.headD_cons, List.length_map]
    exact TableProperty.length_of_mem_rows (split ▸ List.mem_cons_self)
  obtain ⟨table, oneLine⟩ := pipeTable_tableLines some (fun row mem => (texts row mem).1) marked
    fun row mem => (texts row mem).2
  have lines_eq : lines = tableLines property.columnSize alignments rows := by
    have written : (renderBlock forest setting below ordinal block state).1 =
        joinLines (tableLines property.columnSize alignments rows) := by
      simp only [renderBlock, isTable, renderTable, split, alignments, rows, List.headD_cons]
    simp only [lines, written]
    apply pieces_joinLines _ oneLine
    apply List.ne_nil_of_length_pos
    rw [table.count]
    exact Nat.succ_pos _
  rw [lines_eq]
  refine ⟨table, ?_, marked, fun row mem => ⟨(texts row mem).1, fun text inside => ?_⟩⟩
  · rw [table.count, count]
  · exact ((texts row mem).2 text inside).oneLine

def stock : TableProperty where
  cells := ["name", "", "items", "missing", "name"]
  rowSize := 7
  columnSize := 2

def stockroom : Forest := ⟨[
  ⟨"name", .text .paragraph (some ⟨[.run { content := "a|b" }], { align := some .center }⟩), []⟩,
  ⟨"items", .bare .tableCell, ["one"]⟩,
  ⟨"one", .text .bullet (some (.plain "one")), ["two"]⟩,
  ⟨"two", .text .bullet (some (.plain "two")), []⟩]⟩

theorem pipeTable_stockroom :
    0 < stock.columnSize ∧ stock.columnSize ≤ stock.cells.length ∧
      PipeTable [some .center, none] [["a\\|b".toList, []], ["- one<br>- two".toList, []]]
        ["| a\\|b           |     |".toList, "| :------------: | --- |".toList,
          "| - one<br>- two |     |".toList] := by
  have result := (pipeTable_renderBlock stockroom {} 99 0 ⟨"table", .table (some stock), []⟩ {}
    rfl (by decide) (by decide)).1
  have rows : (renderRows (renderer stockroom {} 99) stock.rows {}).1 =
      [["a\\|b".toList, []], ["- one<br>- two".toList, []]] := by decide +kernel
  have alignments : (stock.rows.headD []).map (·.bind (cellAlignment stockroom)) =
      [some .center, none] := by decide +kernel
  have lines : pieces '\n' (renderBlock stockroom {} (renderer stockroom {} 99) 0
      ⟨"table", .table (some stock), []⟩ {}).1 =
      ["| a\\|b           |     |".toList, "| :------------: | --- |".toList,
        "| - one<br>- two |     |".toList] := by decide +kernel
  rw [rows, alignments, lines] at result
  exact ⟨by decide, by decide, result⟩

end Blockmark.Render
