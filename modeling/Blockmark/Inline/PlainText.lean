import Blockmark.Limits
import Blockmark.Markdown.Node

/-!
# Plain text of inline nodes

The text of inline nodes without any markup, for alternative texts, titles and raw table cells.
Line breaks become spaces, and what is nested too deep is left out.
-/

namespace Blockmark.Inline

open Markdown

mutual

def nodeText (levels : Nat) : Node → List Char
  | .mk kind children =>
    match levels with
    | 0 => []
    | levels + 1 =>
      match kind with
      | .text content => content.toList
      | .code literal => literal.toList
      | .math _ literal => literal.toList
      | .softBreak => [' ']
      | .lineBreak => [' ']
      | _ => siblingsText levels children

def siblingsText (levels : Nat) : List Node → List Char
  | [] => []
  | node :: nodes => nodeText levels node ++ siblingsText levels nodes

end

def plainText (nodes : List Node) : String :=
  String.ofList (siblingsText maxDepth nodes)

end Blockmark.Inline
