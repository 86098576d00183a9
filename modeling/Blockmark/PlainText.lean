import Blockmark.Forest
import Blockmark.Limits
import Blockmark.Table.Grid

/-!
# Plain text of blocks

The text of a block and of the cells of a table without markup. A block with children has the text
of its children in place of its own.
-/

namespace Blockmark.Forest

/-- The texts collected so far, newest first, and the blocks they come from. -/
structure Texts where
  seen : List BlockId := []
  lines : List String := []

/-- Collects the texts under a block with `levels` levels left. A block counts once. -/
def collectTexts (forest : Forest) (levels : Nat) (texts : Texts) (block : Block) : Texts :=
  match levels with
  | 0 => texts
  | levels + 1 =>
    if block.id ∈ texts.seen then texts
    else
      let texts : Texts := { texts with seen := block.id :: texts.seen }
      if block.children.isEmpty then
        let text := (block.kind.body?.map TextBody.plainText).getD ""
        if text.isEmpty then texts else { texts with lines := text :: texts.lines }
      else (forest.childrenOf block).foldl (collectTexts forest levels) texts

def blockText (forest : Forest) (block : Block) : String :=
  String.intercalate "\n" (forest.collectTexts maxDepth {} block).lines.reverse

def cellText (forest : Forest) (id : BlockId) : String :=
  ((forest.get? id).map forest.blockText).getD ""

/-- The plain text of the cells of a table, row by row. Other blocks have no rows. -/
def tableText (forest : Forest) (id : BlockId) : List (List String) :=
  match forest.get? id with
  | some { kind := .table (some property), .. } =>
    property.rows.map fun row => row.map fun cell => (cell.map forest.cellText).getD ""
  | _ => []

end Blockmark.Forest
