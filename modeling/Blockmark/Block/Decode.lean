import Blockmark.Block.Encode
import Blockmark.Json.Decode

/-!
# Blocks from JSON

The shapes of blocks and of everything in them. Optional members may be missing; `null` stands for
a missing value only where a value is optional in itself.
-/

namespace Blockmark

open Json Json.Decoder

def countBound : Nat := UInt64.size

def uint8Decoder : Decoder UInt8 := fun place value =>
  UInt8.ofNat <$> natBelow UInt8.size place value

def uint16Decoder : Decoder UInt16 := fun place value =>
  UInt16.ofNat <$> natBelow UInt16.size place value

def uint32Decoder : Decoder UInt32 := fun place value =>
  UInt32.ofNat <$> natBelow UInt32.size place value

def StyleFlags.decoder : Decoder StyleFlags :=
  record {} [
    .allows "bold" bool fun value flags => { flags with bold := value },
    .allows "italic" bool fun value flags => { flags with italic := value },
    .allows "strikethrough" bool fun value flags => { flags with strikethrough := value },
    .allows "underline" bool fun value flags => { flags with underline := value },
    .allows "inline_code" bool fun value flags => { flags with inlineCode := value }]

def DocTarget.decoder : Decoder DocTarget := fun place value =>
  match value with
  | .object [(some "url", target)] .closed => .url <$> string place.inside target
  | .object [(some "token", target)] .closed => .token <$> string place.inside target
  | _ => .error .mismatch

inductive ElementType
  | run
  | mentionUser
  | mentionDoc
  | equation
  | lineBreak
  | autoLink
  | imageRef
  | pendingImage
  deriving DecidableEq, Repr

namespace ElementType

def all : List ElementType :=
  [.run, .mentionUser, .mentionDoc, .equation, .lineBreak, .autoLink, .imageRef, .pendingImage]

def name : ElementType → String
  | .run => "run"
  | .mentionUser => "mention_user"
  | .mentionDoc => "mention_doc"
  | .equation => "equation"
  | .lineBreak => "line_break"
  | .autoLink => "auto_link"
  | .imageRef => "image_ref"
  | .pendingImage => "pending_image"

/-- The type of an element: its name, or, in a value that was read whole before, its place in the
list of names. -/
def decoder : Decoder ElementType := fun place value =>
  match value with
  | .string (some text) => choose all name text
  | .number (.whole false n) =>
    match place.held, all[n]? with
    | true, some type => .ok type
    | _, _ => .error (unexpected value)
  | value => .error (unexpected value)

def elementDecoder : ElementType → Decoder TextElement
  | .run => fun place value => .run <$> keyedRecord { content := "" } [
      .needs "content" string fun value span => { span with content := value },
      .allows "style" StyleFlags.decoder fun value span => { span with style := value },
      .allows "link" (nullable string) fun value span => { span with link := value }] place value
  | .mentionUser => fun place value => .mentionUser <$> keyedRecord "" [
      .needs "user_id" string fun value _ => value] place value
  | .mentionDoc => fun place value =>
    (fun parts : String × DocTarget => .mentionDoc parts.1 parts.2) <$> keyedRecord ("", .url "") [
      .needs "title" string fun value parts => (value, parts.2),
      .needs "target" DocTarget.decoder fun value parts => (parts.1, value)] place value
  | .equation => fun place value => .equation <$> keyedRecord "" [
      .needs "content" string fun value _ => value] place value
  | .lineBreak => fun _ _ => .ok .lineBreak
  | .autoLink => fun place value =>
    (fun parts : String × StyleFlags => .autoLink parts.1 parts.2) <$> keyedRecord ("", {}) [
      .needs "url" string fun value parts => (value, parts.2),
      .allows "style" StyleFlags.decoder fun value parts => (parts.1, value)] place value
  | .imageRef => fun place value =>
    (fun parts : String × String × StyleFlags => .imageRef parts.1 parts.2.1 parts.2.2) <$>
      keyedRecord ("", "", {}) [
        .needs "alt" string fun value parts => (value, parts.2),
        .needs "url" string fun value parts => (parts.1, value, parts.2.2),
        .allows "style" StyleFlags.decoder fun value parts => (parts.1, parts.2.1, value)]
      place value
  | .pendingImage => fun place value =>
    (fun parts : String × String => .pendingImage parts.1 parts.2) <$> keyedRecord ("", "") [
      .needs "alt" string fun value parts => (value, parts.2),
      .needs "path" string fun value parts => (parts.1, value)] place value

end ElementType

namespace TextElement

def readMembers (place : Place) (type : Option ElementType) :
    List (Literal × Reading) → Except Fault (Option ElementType)
  | [] => .ok type
  | (key, value) :: members =>
    if key = some "type" then
      if type.isSome then .error .mismatch
      else do
        let type ← ElementType.decoder place value
        readMembers place (some type) members
    else do
      checkLiteral key
      hold place.depth value
      readMembers place type members

/-- An element is read whole before its members are looked at, except for its type. -/
def decoder : Decoder TextElement := fun place value =>
  match value with
  | .object members ending => do
    let type ← readMembers place.inside none members
    checkEnding ending
    match type with
    | none => .error .mismatch
    | some type =>
      type.elementDecoder { place with held := true }
        (.object (members.filter (·.1 ≠ some "type")) .closed)
  | value => .error (unexpected value)

end TextElement

def Align.all : List Align := [.left, .center, .right]

def BlockStyle.decoder : Decoder BlockStyle :=
  record {} [
    .allows "language" (nullable string) fun value style => { style with language := value },
    .allows "done" bool fun value style => { style with done := value },
    .allows "align" (nullable (enumeration Align.all Align.name))
      fun value style => { style with align := value },
    .allows "sequence" (nullable (natBelow countBound))
      fun value style => { style with sequence := value }]

def TextBody.decoder : Decoder TextBody :=
  record {} [
    .allows "elements" (list TextElement.decoder) fun value body => { body with elements := value },
    .allows "style" BlockStyle.decoder fun value body => { body with style := value }]

def CalloutColor.decoder : Decoder CalloutColor :=
  enumeration all name

def Callout.decoder : Decoder Callout :=
  record { background := .lightGray } [
    .needs "background" CalloutColor.decoder
      fun value callout => { callout with background := value },
    .allows "emoji" (nullable string) fun value callout => { callout with emoji := value }]

def DiagramType.decoder : Decoder DiagramType :=
  enumeration [.flowchart, .uml] name

def File.decoder : Decoder File :=
  record { token := "" } [
    .needs "token" string fun value file => { file with token := value },
    .allows "name" string fun value file => { file with name := value }]

def ImageSource.classes : List (String × (String → ImageSource)) :=
  [("remote", .remote), ("local", .disk), ("media", .media)]

def ImageSource.decoder : Decoder ImageSource :=
  Tagged.decoder {
    tagKey := "type"
    contentKey := "value"
    tag := enumeration classes Prod.fst
    content := fun sourceClass place value => sourceClass.2 <$> string place value
    absent := fun _ => .error .mismatch }

def Image.decoder : Decoder Image :=
  record {} [
    .allows "token" (nullable string) fun value image => { image with token := value },
    .allows "source" (nullable ImageSource.decoder) fun value image =>
      { image with source := value },
    .allows "width" (nullable uint32Decoder) fun value image => { image with width := value },
    .allows "height" (nullable uint32Decoder) fun value image => { image with height := value }]

def IsvComponent.decoder : Decoder IsvComponent :=
  record ⟨"", ""⟩ [
    .needs "component_type_id" string
      fun value component => { component with componentTypeId := value },
    .needs "component_id" string fun value component => { component with componentId := value }]

def TableProperty.decoder : Decoder TableProperty :=
  record { rowSize := 0, columnSize := 0 } [
    .allows "cells" (list string) fun value table => { table with cells := value },
    .needs "row_size" (natBelow countBound) fun value table => { table with rowSize := value },
    .needs "column_size" (natBelow countBound)
      fun value table => { table with columnSize := value },
    .allows "header_row" bool fun value table => { table with headerRow := value }]

def SyncTarget.decoder : Decoder SyncTarget :=
  record ⟨"", ""⟩ [
    .needs "source_block_id" string fun value target => { target with sourceBlockId := value },
    .needs "source_document_id" string
      fun value target => { target with sourceDocumentId := value }]

namespace Kind

def named : List Kind :=
  TextRole.all.map (.text · none) ++ [.heading 0 none] ++ EmbedRole.all.map (.embed · none) ++
  BareRole.all.map .bare ++
  [.callout none, .diagram none, .file none, .grid none, .gridColumn none, .image none, .isv none,
    .table none, .syncReference none, .unknown 0]

def payloadDecoder (kind : Kind) : Decoder Kind := fun place value =>
  match kind with
  | .text role _ => .text role <$> nullable TextBody.decoder place value
  | .heading _ _ =>
    (fun parts : UInt8 × Option TextBody => .heading parts.1 parts.2) <$> keyedRecord (0, none) [
      .needs "level" uint8Decoder fun value parts => (value, parts.2),
      .allows "text" (nullable TextBody.decoder) fun value parts => (parts.1, value)] place value
  | .embed role _ => .embed role <$> nullable string place value
  | .bare role => (fun _ => .bare role) <$> null place value
  | .callout _ => .callout <$> nullable Callout.decoder place value
  | .diagram _ => .diagram <$> nullable DiagramType.decoder place value
  | .file _ => .file <$> nullable File.decoder place value
  | .grid _ => .grid <$> keyedRecord none [
      .allows "column_size" (nullable uint32Decoder) fun value _ => value] place value
  | .gridColumn _ => .gridColumn <$> keyedRecord none [
      .allows "width_ratio" (nullable uint32Decoder) fun value _ => value] place value
  | .image _ => .image <$> nullable Image.decoder place value
  | .isv _ => .isv <$> nullable IsvComponent.decoder place value
  | .table _ => .table <$> nullable TableProperty.decoder place value
  | .syncReference _ => .syncReference <$> nullable SyncTarget.decoder place value
  | .unknown _ => .unknown <$> uint16Decoder place value

def needsPayload : Kind → Bool
  | .heading _ _ | .grid _ | .gridColumn _ | .unknown _ => true
  | _ => false

def decoder : Decoder Kind :=
  Tagged.decoder {
    tagKey := "kind"
    contentKey := "payload"
    tag := enumeration named name
    content := payloadDecoder
    absent := fun kind => if kind.needsPayload then .error .mismatch else .ok kind }

end Kind

namespace Block

def decoder : Decoder Block :=
  record { id := "", kind := .unknown 0 } [
    .needs "id" string fun value block => { block with id := value },
    .needs "kind" Kind.decoder fun value block => { block with kind := value },
    .allows "children" (list string) fun value block => { block with children := value }]

def listDecoder : Decoder (List Block) :=
  list decoder

end Block

end Blockmark
