import Blockmark.Import.Admonition
import Blockmark.Import.Table

/-!
# Importing blocks

The drafts of block-level nodes. Nodes that have no form as a block are left out, and so is
everything from the depth limit on.
-/

namespace Blockmark.Import

open Markdown

def textLeaf (role : TextRole) (body : TextBody) : Draft :=
  .leaf (.text role (some body))

def isBlankInline (node : Node) : Bool :=
  match node.kind with
  | .softBreak | .lineBreak => true
  | .text content => (Text.trim content.toList).isEmpty
  | _ => false

/-- An image on its own. Its alternative text, if there is any, is a child. -/
def imageDraft (options : ConvertOptions) (url alt : String) : Draft :=
  let image : Image := match Link.classifyImage url options.uriScheme with
    | .media token => { token := some token }
    | source => { source := some source }
  .wrapper (.image (some image))
    (if alt.isEmpty then [] else [textLeaf .paragraph (.plain alt)])

/-- A paragraph. One that holds a single image or a single display formula becomes an image or an
equation. -/
def importParagraph (options : ConvertOptions) (nodes : List Node) : Draft :=
  let body : TextBody := { elements := Inline.compose options nodes }
  match nodes.filter (!isBlankInline ·) with
  | [only] =>
    match only.kind with
    | .image url => imageDraft options url (Inline.plainText only.children)
    | .math true literal =>
      textLeaf .equation (.plain (String.ofList (Text.trim literal.toList)))
    | _ => textLeaf .paragraph body
  | _ => textLeaf .paragraph body

def codeLanguage (info : String) : Option String :=
  match (Text.trimStart info.toList).takeWhile (!Text.isBlank ·) with
  | [] => none
  | word => some (String.ofList word)

def codeText (literal : String) : String :=
  let text := literal.toList
  if text.getLast? = some '\n' then String.ofList text.dropLast else literal

def codeDraft (info literal : String) : Draft :=
  let text := codeText literal
  let style : BlockStyle := { language := codeLanguage info }
  textLeaf .code { elements := if text.isEmpty then [] else [.run { content := text }], style }

/-- The lines of a paragraph in a quote, each a quote of its own; empty ones are left out. -/
def quoteLeaves (options : ConvertOptions) (nodes : List Node) : List Draft :=
  (splitLines nodes).filterMap fun line =>
    let body : TextBody := { elements := Inline.compose options line }
    if body.isEmpty then none else some (textLeaf .quote body)

def calloutMarker? (node : Node) : Option Admonition :=
  if node.isParagraph then Admonition.detect node.children else none

def calloutText (options : ConvertOptions) (marker : Admonition) : List Draft :=
  let remainder := Text.trimStart marker.remainder
  let tail := if remainder.isEmpty then marker.tail.dropWhile isBlankInline else marker.tail
  let elements := Inline.pushNodes options {} (Inline.pushText {} (String.ofList remainder) []) tail
  let body : TextBody := { elements := elements.reverse }
  if body.isEmpty then [] else [textLeaf .paragraph body]

def calloutDraft (options : ConvertOptions) (marker : Admonition) (rest : List Draft) : Draft :=
  .container (.callout (some { background := .ofAdmonition marker.keyword }))
    (calloutText options marker ++ rest)

def itemKind (ordered : Bool) (sequence : Option Nat) (checkbox : Option Bool)
    (elements : List TextElement) : Kind :=
  match checkbox with
  | some done => .text .todo (some { elements, style := { done } })
  | none =>
    if ordered then .text .ordered (some { elements, style := { sequence } })
    else .text .bullet (some { elements })

/-- The checkbox of a list item: outside none at all for a node that is no item, inside none for
an item without checkbox. -/
def itemCheckbox? : NodeKind → Option (Option Bool)
  | .item => some none
  | .taskItem symbol => some (some (symbol.any (!Text.isBlank ·)))
  | _ => none

/-- The number that the first item of a list carries: that of an ordered list which does not start
from one. -/
def firstNumber (ordered : Bool) (start : Nat) : Option Nat :=
  if ordered && start != 1 then some start else none

mutual

def importBlock (options : ConvertOptions) (depth : Nat) : Node → List Draft
  | .mk kind children =>
    if maxDepth ≤ depth then []
    else match kind with
      | .heading level =>
        [.leaf (Kind.ofHeading level { elements := Inline.compose options children })]
      | .paragraph => [importParagraph options children]
      | .list ordered start =>
        importItems options ordered (firstNumber ordered start) (depth + 1) children
      | .blockQuote =>
        match children.head?.bind calloutMarker? with
        | some marker =>
          [calloutDraft options marker (importBehindFirst options (depth + 1) children)]
        | none => [.container (.bare .quoteContainer) (importQuoted options (depth + 1) children)]
      | .codeBlock info literal => [codeDraft info literal]
      | .thematicBreak => [.leaf (.bare .divider)]
      | .htmlBlock literal =>
        [textLeaf .paragraph (.plain (String.ofList (Text.trimEnd literal.toList)))]
      | .table alignments => importTable options alignments children
      | _ => []

def importBlocks (options : ConvertOptions) (depth : Nat) : List Node → List Draft
  | [] => []
  | node :: nodes => importBlock options depth node ++ importBlocks options depth nodes

/-- The drafts of the children of a list. Only the first child can carry a number. -/
def importItems (options : ConvertOptions) (ordered : Bool) (sequence : Option Nat)
    (depth : Nat) : List Node → List Draft
  | [] => []
  | node :: nodes =>
    importItem options ordered sequence depth node ++ importItems options ordered none depth nodes

def importItem (options : ConvertOptions) (ordered : Bool) (sequence : Option Nat)
    (depth : Nat) : Node → List Draft
  | .mk kind children =>
    if maxDepth ≤ depth then []
    else match itemCheckbox? kind with
      | none => []
      | some checkbox =>
        let parts := importItemParts options (depth + 1) children
        [.container (itemKind ordered sequence checkbox parts.1) parts.2]

/-- The text and the children of a list item. A paragraph is the text if nothing stands before
it. -/
def importItemParts (options : ConvertOptions) (depth : Nat) :
    List Node → List TextElement × List Draft
  | [] => ([], [])
  | node :: nodes =>
    if node.isParagraph then
      (Inline.compose options node.children, importBlocks options depth nodes)
    else match importBlock options depth node with
      | [] => importItemParts options depth nodes
      | drafts => ([], drafts ++ importBlocks options depth nodes)

/-- The drafts of the children of a quote. Thematic breaks have no place there. -/
def importQuoted (options : ConvertOptions) (depth : Nat) : List Node → List Draft
  | [] => []
  | node :: nodes =>
    (if node.isParagraph then quoteLeaves options node.children
      else if node.kind = .thematicBreak then []
      else importBlock options depth node) ++ importQuoted options depth nodes

/-- The drafts of the children of a callout without the one that holds its marker. -/
def importBehindFirst (options : ConvertOptions) (depth : Nat) : List Node → List Draft
  | [] => []
  | _ :: nodes => importBehind options depth nodes

/-- The drafts of nodes behind the marker of a callout. Thematic breaks have no place there. -/
def importBehind (options : ConvertOptions) (depth : Nat) : List Node → List Draft
  | [] => []
  | node :: nodes =>
    (if node.kind = .thematicBreak then [] else importBlock options depth node) ++
      importBehind options depth nodes

end

theorem importBlock_of_deep (options : ConvertOptions) {depth : Nat} (deep : maxDepth ≤ depth)
    (node : Node) : importBlock options depth node = [] := by
  cases node
  exact if_pos deep

theorem importBlock_of_inside (options : ConvertOptions) {depth : Nat} (inside : ¬ maxDepth ≤ depth)
    (kind : NodeKind) (children : List Node) :
    importBlock options depth (.mk kind children) =
      match kind with
      | .heading level =>
        [.leaf (Kind.ofHeading level { elements := Inline.compose options children })]
      | .paragraph => [importParagraph options children]
      | .list ordered start =>
        importItems options ordered (firstNumber ordered start) (depth + 1) children
      | .blockQuote =>
        match children.head?.bind calloutMarker? with
        | some marker =>
          [calloutDraft options marker (importBehindFirst options (depth + 1) children)]
        | none => [.container (.bare .quoteContainer) (importQuoted options (depth + 1) children)]
      | .codeBlock info literal => [codeDraft info literal]
      | .thematicBreak => [.leaf (.bare .divider)]
      | .htmlBlock literal =>
        [textLeaf .paragraph (.plain (String.ofList (Text.trimEnd literal.toList)))]
      | .table alignments => importTable options alignments children
      | _ => [] :=
  if_neg inside

end Blockmark.Import
