import Blockmark.Block.Text

/-!
# Kinds of blocks

What a block is, with what it carries. Kinds that carry the same things are roles of one
constructor. Every kind has a name, used in JSON, and a numeric code.

Main statement: `Kind.code_ofCode`, by which a kind chosen by its code has that code.
-/

namespace Blockmark

abbrev BlockId := String

/-- The roles of a block that carries text and nothing else. -/
inductive TextRole
  | page
  | paragraph
  | bullet
  | ordered
  | code
  | quote
  | equation
  | todo
  deriving DecidableEq, Repr, Inhabited

namespace TextRole

def all : List TextRole :=
  [.page, .paragraph, .bullet, .ordered, .code, .quote, .equation, .todo]

def name : TextRole → String
  | .page => "page"
  | .paragraph => "text"
  | .bullet => "bullet"
  | .ordered => "ordered"
  | .code => "code"
  | .quote => "quote"
  | .equation => "equation"
  | .todo => "todo"

def typeCode : TextRole → UInt16
  | .page => 1
  | .paragraph => 2
  | .bullet => 12
  | .ordered => 13
  | .code => 14
  | .quote => 15
  | .equation => 16
  | .todo => 17

end TextRole

/-- The roles of a block that refers to an object elsewhere by a token or an address. -/
inductive EmbedRole
  | bitable
  | chatCard
  | iframe
  | mindNote
  | sheet
  | task
  | addOns
  | jiraIssue
  | board
  | linkPreview
  deriving DecidableEq, Repr, Inhabited

namespace EmbedRole

def all : List EmbedRole :=
  [.bitable, .chatCard, .iframe, .mindNote, .sheet, .task, .addOns, .jiraIssue, .board,
    .linkPreview]

def name : EmbedRole → String
  | .bitable => "bitable"
  | .chatCard => "chat_card"
  | .iframe => "iframe"
  | .mindNote => "mind_note"
  | .sheet => "sheet"
  | .task => "task"
  | .addOns => "add_ons"
  | .jiraIssue => "jira_issue"
  | .board => "board"
  | .linkPreview => "link_preview"

def typeCode : EmbedRole → UInt16
  | .bitable => 18
  | .chatCard => 20
  | .iframe => 26
  | .mindNote => 29
  | .sheet => 30
  | .task => 35
  | .addOns => 40
  | .jiraIssue => 41
  | .board => 43
  | .linkPreview => 48

end EmbedRole

/-- The roles of a block that carries nothing but its children. -/
inductive BareRole
  | divider
  | tableCell
  | view
  | quoteContainer
  | okr
  | okrObjective
  | okrKeyResult
  | okrProgress
  | wikiCatalog
  | agenda
  | agendaItem
  | agendaItemTitle
  | agendaItemContent
  | syncSource
  | wikiCatalogV2
  | aiTemplate
  deriving DecidableEq, Repr, Inhabited

namespace BareRole

def all : List BareRole :=
  [.divider, .tableCell, .view, .quoteContainer, .okr, .okrObjective, .okrKeyResult,
    .okrProgress, .wikiCatalog, .agenda, .agendaItem, .agendaItemTitle, .agendaItemContent,
    .syncSource, .wikiCatalogV2, .aiTemplate]

def name : BareRole → String
  | .divider => "divider"
  | .tableCell => "table_cell"
  | .view => "view"
  | .quoteContainer => "quote_container"
  | .okr => "okr"
  | .okrObjective => "okr_objective"
  | .okrKeyResult => "okr_key_result"
  | .okrProgress => "okr_progress"
  | .wikiCatalog => "wiki_catalog"
  | .agenda => "agenda"
  | .agendaItem => "agenda_item"
  | .agendaItemTitle => "agenda_item_title"
  | .agendaItemContent => "agenda_item_content"
  | .syncSource => "sync_source"
  | .wikiCatalogV2 => "wiki_catalog_v2"
  | .aiTemplate => "ai_template"

def typeCode : BareRole → UInt16
  | .divider => 22
  | .tableCell => 32
  | .view => 33
  | .quoteContainer => 34
  | .okr => 36
  | .okrObjective => 37
  | .okrKeyResult => 38
  | .okrProgress => 39
  | .wikiCatalog => 42
  | .agenda => 44
  | .agendaItem => 45
  | .agendaItemTitle => 46
  | .agendaItemContent => 47
  | .syncSource => 49
  | .wikiCatalogV2 => 51
  | .aiTemplate => 52

end BareRole

inductive CalloutColor
  | lightRed
  | lightOrange
  | lightYellow
  | lightGreen
  | lightBlue
  | lightPurple
  | lightGray
  deriving DecidableEq, Repr, Inhabited

namespace CalloutColor

def all : List CalloutColor :=
  [.lightRed, .lightOrange, .lightYellow, .lightGreen, .lightBlue, .lightPurple, .lightGray]

def name : CalloutColor → String
  | .lightRed => "light_red"
  | .lightOrange => "light_orange"
  | .lightYellow => "light_yellow"
  | .lightGreen => "light_green"
  | .lightBlue => "light_blue"
  | .lightPurple => "light_purple"
  | .lightGray => "light_gray"

def code : CalloutColor → Nat
  | .lightRed => 1
  | .lightOrange => 2
  | .lightYellow => 3
  | .lightGreen => 4
  | .lightBlue => 5
  | .lightPurple => 6
  | .lightGray => 7

/-- The colour for an admonition keyword in any case of letters; unknown keywords are grey. -/
def ofAdmonition (keyword : String) : CalloutColor :=
  match String.ofList (keyword.toList.map Char.toUpper) with
  | "NOTE" => .lightBlue
  | "TIP" => .lightGreen
  | "IMPORTANT" => .lightPurple
  | "WARNING" => .lightYellow
  | "CAUTION" => .lightRed
  | _ => .lightGray

def admonition : CalloutColor → String
  | .lightBlue | .lightGray => "NOTE"
  | .lightGreen => "TIP"
  | .lightPurple => "IMPORTANT"
  | .lightYellow | .lightOrange => "WARNING"
  | .lightRed => "CAUTION"

end CalloutColor

structure Callout where
  background : CalloutColor
  emoji : Option String := none
  deriving DecidableEq, Repr, Inhabited

inductive DiagramType
  | flowchart
  | uml
  deriving DecidableEq, Repr, Inhabited

def DiagramType.label : DiagramType → String
  | .flowchart => "Flowchart"
  | .uml => "UML"

inductive ImageSource
  | remote (url : String)
  | disk (path : String)
  | media (token : String)
  deriving DecidableEq, Repr, Inhabited

/-- What an image carries. Its alternative text is the text of its children. -/
structure Image where
  token : Option String := none
  source : Option ImageSource := none
  width : Option UInt32 := none
  height : Option UInt32 := none
  deriving DecidableEq, Repr, Inhabited

structure File where
  token : String
  name : String := ""
  deriving DecidableEq, Repr, Inhabited

structure IsvComponent where
  componentTypeId : String
  componentId : String
  deriving DecidableEq, Repr, Inhabited

structure SyncTarget where
  sourceBlockId : String
  sourceDocumentId : String
  deriving DecidableEq, Repr, Inhabited

/-- The cells of a table, row by row. The counts are as declared and need not fit the cells. -/
structure TableProperty where
  cells : List BlockId := []
  rowSize : Nat
  columnSize : Nat
  headerRow : Bool := false
  deriving DecidableEq, Repr, Inhabited

inductive Kind
  | text (role : TextRole) (body : Option TextBody)
  | heading (level : UInt8) (body : Option TextBody)
  | embed (role : EmbedRole) (token : Option String)
  | bare (role : BareRole)
  | callout (callout : Option Callout)
  | diagram (diagram : Option DiagramType)
  | file (file : Option File)
  | grid (columnSize : Option UInt32)
  | gridColumn (widthRatio : Option UInt32)
  | image (image : Option Image)
  | isv (component : Option IsvComponent)
  | table (property : Option TableProperty)
  | syncReference (target : Option SyncTarget)
  | unknown (code : UInt16)
  deriving DecidableEq, Repr, Inhabited

namespace Kind

def headingLevel (level : UInt8) : UInt8 :=
  if level < 1 then 1 else if 9 < level then 9 else level

def ofHeading (level : UInt8) (body : TextBody) : Kind :=
  .heading (headingLevel level) (some body)

def code : Kind → UInt16
  | .text role _ => role.typeCode
  | .heading level _ => 2 + (headingLevel level).toUInt16
  | .embed role _ => role.typeCode
  | .bare role => role.typeCode
  | .callout _ => 19
  | .diagram _ => 21
  | .file _ => 23
  | .grid _ => 24
  | .gridColumn _ => 25
  | .image _ => 27
  | .isv _ => 28
  | .table _ => 31
  | .syncReference _ => 50
  | .unknown code => code

def known : List Kind :=
  TextRole.all.map (.text · none) ++
  [1, 2, 3, 4, 5, 6, 7, 8, 9].map (.heading · none) ++
  EmbedRole.all.map (.embed · none) ++
  BareRole.all.map .bare ++
  [.callout none, .diagram none, .file none, .grid none, .gridColumn none, .image none, .isv none,
    .table none, .syncReference none]

def ofCode (code : UInt16) : Kind :=
  (known.find? (·.code = code)).getD (.unknown code)

theorem code_ofCode (code : UInt16) : (ofCode code).code = code := by
  unfold ofCode
  cases h : known.find? (·.code = code) with
  | none => rfl
  | some kind => simpa using List.find?_some h

def body? : Kind → Option TextBody
  | .text _ body => body
  | .heading _ body => body
  | _ => none

def isListItem : Kind → Bool
  | .text .bullet _ | .text .ordered _ | .text .todo _ => true
  | _ => false

def cells : Kind → List BlockId
  | .table (some property) => property.cells
  | _ => []

end Kind

structure Block where
  id : BlockId
  kind : Kind
  children : List BlockId := []
  deriving DecidableEq, Repr, Inhabited

end Blockmark
