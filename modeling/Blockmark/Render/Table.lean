import Blockmark.Block.Text
import Blockmark.Text.Lines

/-!
# Layout of tables

A table in pipes: the header, a line of dashes that shows the alignments, and the body, with every
column as wide as its widest cell and at least three characters wide.

Main statement: `length_padRight`.
-/

namespace Blockmark.Render

open Text

def padRight (width : Nat) (text : List Char) : List Char :=
  text ++ List.replicate (width - text.length) ' '

theorem length_padRight {width : Nat} {text : List Char} (h : text.length ≤ width) :
    (padRight width text).length = width := by
  simp [padRight]
  omega

/-- The content of a cell on one line: its lines that are not blank with break tags in between, and
its pipes escaped. -/
def cellLine (content : List Char) : List Char :=
  (List.intercalate ['<', 'b', 'r', '>']
    (((lines content).map trim).filter (!·.isEmpty))).flatMap
    fun c => if c = '|' then ['\\', '|'] else [c]

def tableRow (widths : List Nat) (cells : List (List Char)) : List Char :=
  '|' :: (cells.zip widths).flatMap fun cell =>
    ' ' :: padRight cell.2 cell.1 ++ [' ', '|']

/-- The dashes of a column. A colon marks the side to which it is aligned. -/
def dashes (width : Nat) (align : Option Align) : List Char :=
  let middle := List.replicate (width - 2) '-'
  match align with
  | some .left => ':' :: middle ++ ['-']
  | some .right => '-' :: middle ++ [':']
  | some .center => ':' :: middle ++ [':']
  | none => '-' :: middle ++ ['-']

def tableSeparator (widths : List Nat) (alignments : List (Option Align)) : List Char :=
  '|' :: (widths.zip alignments).flatMap fun column =>
    ' ' :: dashes column.1 column.2 ++ [' ', '|']

def columnWidths (columns : Nat) (rows : List (List (List Char))) : List Nat :=
  rows.foldl (fun widths row => List.zipWith max widths (row.map List.length))
    (List.replicate columns 3)

def tableLines (columns : Nat) (alignments : List (Option Align)) :
    List (List (List Char)) → List (List Char)
  | [] => []
  | header :: body =>
    let widths := columnWidths columns (header :: body)
    tableRow widths header :: tableSeparator widths alignments :: body.map (tableRow widths)

end Blockmark.Render
