import Blockmark.Block.Text

/-!
# Markdown syntax trees

The tree that a Markdown reader makes of a text. Nodes of either level may stand anywhere, also
where a reader would not put them.
-/

namespace Blockmark.Markdown

inductive NodeKind
  | frontMatter (text : String)
  | blockQuote
  | list (ordered : Bool) (start : Nat)
  | item
  /-- A list item with a checkbox and the character in it, if there is one. -/
  | taskItem (symbol : Option Char)
  | codeBlock (info literal : String)
  | htmlBlock (literal : String)
  | paragraph
  | heading (level : UInt8)
  | thematicBreak
  | table (alignments : List (Option Align))
  | tableRow (header : Bool)
  | tableCell
  | text (content : String)
  | softBreak
  | lineBreak
  | code (literal : String)
  | htmlInline (literal : String)
  | emph
  | strong
  | strikethrough
  | link (url : String)
  | image (url : String)
  | math (display : Bool) (literal : String)
  /-- A node of an extension that blocks and inline styles have no form for. -/
  | other (name : String)
  deriving DecidableEq, Repr, Inhabited

inductive Node
  | mk (kind : NodeKind) (children : List Node)
  deriving Repr, Inhabited

namespace Node

def kind : Node → NodeKind
  | .mk kind _ => kind

def children : Node → List Node
  | .mk _ children => children

def isBreak (node : Node) : Bool :=
  match node.kind with
  | .softBreak | .lineBreak => true
  | _ => false

def isParagraph (node : Node) : Bool :=
  node.kind = .paragraph

end Node

/-- Node lists cut at their breaks, which are left out. There is always at least one line. -/
def splitLines : List Node → List (List Node)
  | [] => [[]]
  | node :: nodes =>
    if node.isBreak then [] :: splitLines nodes
    else match splitLines nodes with
      | [] => [[node]]
      | line :: more => (node :: line) :: more

end Blockmark.Markdown
