import Blockmark.Import.Draft
import Blockmark.Inline.Compose
import Blockmark.Table.Grid

/-!
# Importing tables

The rows of a table are brought to one width and cut into several tables if there are too many.
Every table repeats the header.
-/

namespace Blockmark.Import

open Markdown

structure CellContent where
  elements : List TextElement := []
  raw : String := ""
  deriving Inhabited

def cellContents (options : ConvertOptions) (row : Node) : List CellContent :=
  row.children.map fun cell =>
    { elements := Inline.compose options cell.children, raw := Inline.plainText cell.children }

/-- The header and the body of a table. The first row marked as header is the header; rows that
are marked later belong to the body, and nodes that are no rows are left out. -/
def splitHeader (options : ConvertOptions) (header : Option (List CellContent)) :
    List Node → Option (List CellContent) × List (List CellContent)
  | [] => (header, [])
  | node :: nodes =>
    match node.kind with
    | .tableRow isHeader =>
      let cells := cellContents options node
      if isHeader && header.isNone then splitHeader options (some cells) nodes
      else
        let rest := splitHeader options header nodes
        (rest.1, cells :: rest.2)
    | _ => splitHeader options header nodes

def cellDraft (align : Option Align) (cell : CellContent) : Draft :=
  .wrapper (.bare .tableCell)
    [.leaf (.text .paragraph (some { elements := cell.elements, style := { align } }))]

def rowDrafts : List (Option Align) → List CellContent → List Draft
  | _, [] => []
  | [], cell :: cells => cellDraft none cell :: rowDrafts [] cells
  | align :: alignments, cell :: cells => cellDraft align cell :: rowDrafts alignments cells

def tableDraft (alignments : List (Option Align)) (columns : Nat)
    (grid : List (List CellContent)) : Draft :=
  .mk .beforeChildren
    (.table (some { rowSize := grid.length, columnSize := columns, headerRow := true }))
    (some { rows := grid.map (·.map (·.raw)) })
    (grid.flatMap (rowDrafts alignments))

def widest (rows : List (List CellContent)) : Nat :=
  rows.foldl (fun width row => max width row.length) 0

def importTable (options : ConvertOptions) (alignments : List (Option Align))
    (rows : List Node) : List Draft :=
  let parts := splitHeader options none rows
  let header := parts.1.getD []
  let columns := max header.length (widest parts.2)
  if columns = 0 then []
  else
    (Table.paginate {} columns Table.rowLimit parts.2).map fun segment =>
      tableDraft alignments columns (Table.normalizeRow {} columns header :: segment)

end Blockmark.Import
