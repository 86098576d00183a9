import Blockmark.PlainText
import Blockmark.Render.Inline
import Blockmark.Render.Table

/-!
# Rendering blocks

The Markdown of blocks. Every block is rendered at its first occurrence only, and nothing is
rendered below the depth limit: what a block is depends on a renderer for the level below it, and
at the last level there is a renderer that renders nothing.

Siblings are set apart by a blank line; only items of one kind of list, and the lines of a quote,
follow each other directly. An ordered item without a number of its own counts on from the ordered
item before it.
-/

namespace Blockmark.Render

open Text

/-- What rendering leaves behind: the blocks rendered, newest first, the tokens of their images in
order, and whether the depth limit cut anything off. -/
structure State where
  visited : List BlockId := []
  imageTokens : List String := []
  truncated : Bool := false
  deriving DecidableEq, Repr, Inhabited

abbrev Rendering (α : Type) := State → α × State

/-- What encloses siblings: in a quote container, quotes are lines of the container. -/
inductive Frame
  | plain
  | quoted
  deriving DecidableEq, Repr, Inhabited

/-- Neighbouring siblings of one group stand on neighbouring lines. -/
inductive LineGroup
  | bulletItem
  | orderedItem
  | quoteLine
  deriving DecidableEq, Repr, Inhabited

def lineGroup (frame : Frame) : Kind → Option LineGroup
  | .text .bullet _ | .text .todo _ => some .bulletItem
  | .text .ordered _ => some .orderedItem
  | .text .quote _ => if frame = .quoted then some .quoteLine else none
  | _ => none

structure Piece where
  group : Option LineGroup
  text : List Char

def joinBehind (group : Option LineGroup) : List Piece → List Char
  | [] => []
  | piece :: pieces =>
    (if piece.group.isSome ∧ piece.group = group then ['\n'] else ['\n', '\n']) ++ piece.text ++
      joinBehind piece.group pieces

def joinPieces : List Piece → List Char
  | [] => []
  | piece :: pieces => piece.text ++ joinBehind piece.group pieces

/-- The number of an ordered item behind an item with the number `before`; other blocks start
counting anew. -/
def ordinalBehind (before : Nat) : Kind → Nat
  | .text .ordered body => (body.bind (·.style.sequence)).getD (before + 1)
  | _ => 0

structure Renderer where
  siblings : Frame → List BlockId → Rendering (List Char)
  /-- The columns among the blocks under some ids, each with its children one level further
  down. -/
  columns : List BlockId → Rendering (List (List Char))
  cell : BlockId → Rendering (List Char)

def placeholder (setting : Setting) (label kind : String) (token : Option String) : List Char :=
  let token := token.getD ""
  if token.isEmpty then ('[' :: label.toList) ++ [']']
  else linkText label.toList (Link.internalUri setting.options.uriScheme kind token).toList

def renderFile (setting : Setting) : Option File → List Char
  | some file =>
    if file.token.isEmpty then "[File]".toList
    else placeholder setting (if file.name.isEmpty then "File" else file.name) "file" file.token
  | none => "[File]".toList

/-- A code block between fences that are longer than every run of backticks inside. -/
def renderCode (body : Option TextBody) : List Char :=
  let content := ((body.map TextBody.plainText).getD "").toList
  let language := ((body.bind (·.style.language)).getD "").toList
  let fence := List.replicate (max (longestBacktickRun content + 1) 3) '\x60'
  fence ++ language ++ ['\n'] ++ content ++ ['\n'] ++ fence

def renderEquation (body : Option TextBody) : List Char :=
  let content := trim ((body.map TextBody.plainText).getD "").toList
  if content.isEmpty then [] else ['$', '$'] ++ content ++ ['$', '$']

/-- A heading. Levels beyond the sixth are written like the sixth. -/
def renderHeading (setting : Setting) (level : UInt8) (body : Option TextBody) : List Char :=
  let text := singleLine (renderBody? setting body)
  trimEnd (List.replicate (min (max level.toNat 1) 6) '#' ++ [' '] ++ text)

def renderTitle (setting : Setting) (body : Option TextBody) : List Char :=
  let title := singleLine (renderBody? setting body)
  if (trim title).isEmpty then [] else ['#', ' '] ++ title

def imageToken? (image : Option Image) : Option String :=
  (image.bind (·.token)).filter (!·.isEmpty)

def tokenTarget (options : ConvertOptions) (token : String) : List Char :=
  if options.downloadImages then
    (options.imageDir.toList.reverse.dropWhile (· = '/')).reverse ++ ['/'] ++ token.toList ++
      ".png".toList
  else token.toList

def renderImage (setting : Setting) (alt : List Char) (image : Option Image) : List Char :=
  match imageToken? image, image.bind (·.source) with
  | some token, _ => imageText alt (tokenTarget setting.options token)
  | none, some (.remote url) => imageText alt (Link.encodeTargetChars url.toList)
  | none, some (.disk path) => imageText alt path.toList
  | none, some (.media token) =>
    imageText alt (Link.internalUri setting.options.uriScheme "media" token).toList
  | none, none => imageText "image".toList []

def altText (forest : Forest) (block : Block) : List Char :=
  (forest.blockText block).toList.map fun c => if c = '\n' then ' ' else c

def addToken (token : Option String) (state : State) : State :=
  match token with
  | none => state
  | some token =>
    if token ∈ state.imageTokens then state
    else { state with imageTokens := state.imageTokens ++ [token] }

def listItem (marker : List Char) (indent : Nat) (text nested : List Char) : List Char :=
  let head := marker ++ indentContinuation indent text
  trimEnd (if nested.isEmpty then head
    else trimEnd head ++ ['\n'] ++ indentLines indent nested)

def numberMarker (ordinal : Nat) : List Char :=
  Nat.toDigits 10 ordinal ++ ['.', ' ']

def checkMarker (body : Option TextBody) : List Char :=
  if (body.map (·.style.done)).getD false then "- [x] ".toList else "- [ ] ".toList

def calloutText (callout : Option Callout) (content : List Char) : List Char :=
  let keyword := (callout.map (·.background.admonition)).getD "NOTE"
  let header := "> [!".toList ++ keyword.toList ++ [']']
  if content.isEmpty then header else header ++ ['\n'] ++ quoteLines content

/-- The alignment of a cell: that of its own text, or of the first text among its children. -/
def cellAlignment (forest : Forest) (id : BlockId) : Option Align :=
  (forest.get? id).bind fun cell =>
    (cell.kind.body?.or ((forest.childrenOf cell).findSome? (·.kind.body?))).bind (·.style.align)

def renderCells (below : Renderer) : List (Option BlockId) → Rendering (List (List Char))
  | [], state => ([], state)
  | none :: cells, state =>
    let rest := renderCells below cells state
    ([] :: rest.1, rest.2)
  | some id :: cells, state =>
    let cell := below.cell id state
    let rest := renderCells below cells cell.2
    (cellLine cell.1 :: rest.1, rest.2)

def renderRows (below : Renderer) :
    List (List (Option BlockId)) → Rendering (List (List (List Char)))
  | [], state => ([], state)
  | row :: rows, state =>
    let cells := renderCells below row state
    let rest := renderRows below rows cells.2
    (cells.1 :: rest.1, rest.2)

/-- A table, of which only the complete rows are shown. -/
def renderTable (forest : Forest) (below : Renderer) (property : TableProperty) :
    Rendering (List Char) := fun state =>
  match property.rows with
  | [] => ([], state)
  | header :: body =>
    let alignments := header.map (·.bind (cellAlignment forest))
    let rows := renderRows below (header :: body) state
    (joinLines (tableLines property.columnSize alignments rows.1), rows.2)

def renderEmbed (setting : Setting) (below : Renderer) (role : EmbedRole) (token : Option String)
    (block : Block) : Rendering (List Char) := fun state =>
  match role with
  | .bitable => (placeholder setting "Bitable" "bitable" token, state)
  | .sheet => (placeholder setting "Sheet" "sheet" token, state)
  | .board => (placeholder setting "Board" "board" token, state)
  | .mindNote => (placeholder setting "MindNote" "mindnote" token, state)
  | .chatCard => (placeholder setting "Chat" "chat" token, state)
  | .task => (placeholder setting "Task" "task" token, state)
  | .jiraIssue => (placeholder setting "Jira" "jira" token, state)
  | .iframe =>
    let url := (token.getD "").toList
    (if url.isEmpty then "[Iframe]".toList
      else linkText "Iframe".toList (Link.encodeTargetChars url), state)
  | .linkPreview =>
    let url := (token.getD "").toList
    let link := if url.isEmpty then [] else linkText url (Link.encodeTargetChars url)
    let body := below.siblings .plain block.children state
    (joinParagraphs [link, body.1], body.2)
  | .addOns => ([], state)

def renderText (setting : Setting) (below : Renderer) (ordinal : Nat) (role : TextRole)
    (body : Option TextBody) (block : Block) : Rendering (List Char) := fun state =>
  let text := renderBody? setting body
  let nested := below.siblings .plain block.children
  match role with
  | .page =>
    let nested := nested state
    (joinParagraphs [renderTitle setting body, nested.1], nested.2)
  | .paragraph =>
    let nested := nested state
    (joinParagraphs [text, nested.1], nested.2)
  | .bullet =>
    let nested := nested state
    (listItem ['-', ' '] 2 text nested.1, nested.2)
  | .ordered =>
    let nested := nested state
    let marker := numberMarker ordinal
    (listItem marker marker.length text nested.1, nested.2)
  | .todo =>
    let nested := nested state
    (listItem (checkMarker body) 2 text nested.1, nested.2)
  | .quote =>
    let nested := nested state
    (quoteLines (joinParagraphs [text, nested.1]), nested.2)
  | .code => (renderCode body, state)
  | .equation => (renderEquation body, state)

def renderBare (below : Renderer) (role : BareRole) (block : Block) : Rendering (List Char) :=
  fun state =>
    match role with
    | .divider => (['-', '-', '-'], state)
    | .quoteContainer =>
      let inner := below.siblings .quoted block.children state
      (quoteLines inner.1, inner.2)
    | .wikiCatalog | .wikiCatalogV2 | .aiTemplate => ([], state)
    | .tableCell | .view | .okr | .okrObjective | .okrKeyResult | .okrProgress | .agenda
    | .agendaItem | .agendaItemTitle | .agendaItemContent | .syncSource =>
      below.siblings .plain block.children state

def renderBlock (forest : Forest) (setting : Setting) (below : Renderer) (ordinal : Nat)
    (block : Block) : Rendering (List Char) := fun state =>
  match block.kind with
  | .text role body => renderText setting below ordinal role body block state
  | .heading level body => (renderHeading setting level body, state)
  | .embed role token => renderEmbed setting below role token block state
  | .bare role => renderBare below role block state
  | .callout callout =>
    let inner := below.siblings .plain block.children state
    (calloutText callout inner.1, inner.2)
  | .diagram type =>
    ("[Diagram: ".toList ++ ((type.map DiagramType.label).getD "Unknown").toList ++ [']'], state)
  | .file file => (renderFile setting file, state)
  | .grid _ =>
    let columns := below.columns block.children state
    (joinParagraphs columns.1, columns.2)
  | .gridColumn _ => below.siblings .plain block.children state
  | .image image =>
    (renderImage setting (altText forest block) image, addToken (imageToken? image) state)
  | .isv none => ("[ISV]".toList, state)
  | .isv (some component) =>
    ("[ISV ".toList ++ component.componentTypeId.toList ++ [':', ' '] ++
      component.componentId.toList ++ [']'], state)
  | .table none => ([], state)
  | .table (some property) => renderTable forest below property state
  | .syncReference _ => below.siblings .plain block.children state
  | .unknown _ => ([], state)

/-- One of several siblings. A quote without children is a line of the quote container it is in. -/
def renderSibling (forest : Forest) (setting : Setting) (below : Renderer) (frame : Frame)
    (ordinal : Nat) (block : Block) : Rendering (List Char) := fun state =>
  match frame, block.kind, block.children with
  | .quoted, .text .quote body, [] => (renderBody? setting body, state)
  | _, _, _ => renderBlock forest setting below ordinal block state

/-- The blocks under some ids as pieces, the first one behind an item with the number `before`.
Missing blocks and blocks that were rendered before are passed over. -/
def renderPieces (forest : Forest) (setting : Setting) (below : Renderer) (frame : Frame)
    (before : Nat) : List BlockId → Rendering (List Piece)
  | [], state => ([], state)
  | id :: ids, state =>
    match forest.get? id with
    | none => renderPieces forest setting below frame before ids state
    | some block =>
      if block.id ∈ state.visited then renderPieces forest setting below frame before ids state
      else
        let state := { state with visited := block.id :: state.visited }
        let ordinal := ordinalBehind before block.kind
        let rendered := renderSibling forest setting below frame ordinal block state
        let rest := renderPieces forest setting below frame ordinal ids rendered.2
        (if rendered.1.isEmpty then rest.1
          else ⟨lineGroup frame block.kind, rendered.1⟩ :: rest.1, rest.2)

def isGridColumn : Kind → Bool
  | .gridColumn _ => true
  | _ => false

def renderColumns (forest : Forest) (below : Renderer) :
    List BlockId → Rendering (List (List Char))
  | [], state => ([], state)
  | id :: ids, state =>
    match forest.get? id with
    | none => renderColumns forest below ids state
    | some block =>
      if !isGridColumn block.kind || block.id ∈ state.visited then
        renderColumns forest below ids state
      else
        let column := below.siblings .plain block.children
          { state with visited := block.id :: state.visited }
        let rest := renderColumns forest below ids column.2
        (column.1 :: rest.1, rest.2)

/-- The content of the cell under an id: its children, or itself if it has none. -/
def renderCell (forest : Forest) (setting : Setting) (below : Renderer) (id : BlockId) :
    Rendering (List Char) := fun state =>
  match forest.get? id with
  | none => ([], state)
  | some cell =>
    if cell.children.isEmpty then renderBlock forest setting below 0 cell state
    else below.siblings .plain cell.children state

/-- Notes that blocks are left out because of the depth limit, if there are any. -/
def cutOff (any : Bool) (state : State) : State :=
  if any then { state with truncated := true } else state

def exhausted (forest : Forest) : Renderer where
  siblings _ ids state := ([], cutOff (ids.any forest.contains) state)
  columns ids state :=
    ([], cutOff (ids.any fun id => (forest.get? id).any (isGridColumn ·.kind)) state)
  cell id state := ([], cutOff (forest.contains id) state)

def next (forest : Forest) (setting : Setting) (below : Renderer) : Renderer where
  siblings frame ids state :=
    let pieces := renderPieces forest setting below frame 0 ids state
    (joinPieces pieces.1, pieces.2)
  columns := renderColumns forest below
  cell := renderCell forest setting below

def renderer (forest : Forest) (setting : Setting) : Nat → Renderer
  | 0 => exhausted forest
  | levels + 1 => next forest setting (renderer forest setting levels)

end Blockmark.Render
