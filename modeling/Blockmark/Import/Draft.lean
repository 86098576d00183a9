import Blockmark.Forest

/-!
# Drafts

Imported blocks before they have ids, as trees, and numbering them. Numbers run through the whole
document; a container is numbered before its children, an image or a table cell after them. A
block stands behind its children in the forest.
-/

namespace Blockmark.Import

/-- When a block is numbered. -/
inductive Numbering
  | beforeChildren
  | afterChildren
  deriving DecidableEq, Repr, Inhabited

/-- The plain text of a table, row by row; the first row is the header. -/
structure RawTable where
  rows : List (List String) := []
  deriving DecidableEq, Repr, Inhabited

/-- A block without ids, and the plain text of its cells if it is a table. -/
inductive Draft
  | mk (numbering : Numbering) (kind : Kind) (table : Option RawTable) (children : List Draft)
  deriving Inhabited

namespace Draft

def leaf (kind : Kind) : Draft :=
  .mk .beforeChildren kind none []

def container (kind : Kind) (children : List Draft) : Draft :=
  .mk .beforeChildren kind none children

/-- A block that is numbered after its children. -/
def wrapper (kind : Kind) (children : List Draft) : Draft :=
  .mk .afterChildren kind none children

mutual

def tables : Draft → List RawTable
  | .mk _ _ table children => table.toList ++ tablesOfAll children

def tablesOfAll : List Draft → List RawTable
  | [] => []
  | draft :: drafts => draft.tables ++ tablesOfAll drafts

end

end Draft

def blockId (number : Nat) : BlockId :=
  "blk" ++ toString number

/-- The kind of a block whose children have the given ids: a table lists them as its cells. -/
def withCells (ids : List BlockId) : Kind → Kind
  | .table (some property) => .table (some { property with cells := ids })
  | kind => kind

/-- Numbered blocks: the ids on top, all blocks, and the last number given. -/
structure Placement where
  ids : List BlockId
  blocks : List Block
  last : Nat

mutual

/-- Numbers a draft after `last` numbers have been given. -/
def place (last : Nat) : Draft → Placement
  | .mk numbering kind _ children =>
    match numbering with
    | .beforeChildren =>
      let inner := placeAll (last + 1) children
      let block : Block :=
        { id := blockId (last + 1), kind := withCells inner.ids kind, children := inner.ids }
      ⟨[block.id], inner.blocks ++ [block], inner.last⟩
    | .afterChildren =>
      let inner := placeAll last children
      let block : Block :=
        { id := blockId (inner.last + 1), kind := withCells inner.ids kind, children := inner.ids }
      ⟨[block.id], inner.blocks ++ [block], inner.last + 1⟩

def placeAll (last : Nat) : List Draft → Placement
  | [] => ⟨[], [], last⟩
  | draft :: drafts =>
    let first := place last draft
    let rest := placeAll first.last drafts
    ⟨first.ids ++ rest.ids, first.blocks ++ rest.blocks, rest.last⟩

end

end Blockmark.Import
