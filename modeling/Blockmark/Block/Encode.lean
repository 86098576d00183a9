import Blockmark.Block.Kind
import Blockmark.Json.Value

/-!
# Blocks as JSON

The JSON form of a block. Members come in the order of the fields; optional members are left out
when there is nothing to write, except for the payload of a kind, which is then `null`.
-/

namespace Blockmark

open Json (nat)

def Json.optional (key : String) (value : Option Json) : List (String × Json) :=
  (value.map (key, ·)).toList

def Json.orNull (value : Option Json) : Json :=
  value.getD .null

def StyleFlags.toJson (flags : StyleFlags) : Json :=
  .object [("bold", .bool flags.bold), ("italic", .bool flags.italic),
    ("strikethrough", .bool flags.strikethrough), ("underline", .bool flags.underline),
    ("inline_code", .bool flags.inlineCode)]

def DocTarget.toJson : DocTarget → Json
  | .url address => .object [("url", .string address)]
  | .token id => .object [("token", .string id)]

def TextElement.typeName : TextElement → String
  | .run _ => "run"
  | .mentionUser _ => "mention_user"
  | .mentionDoc _ _ => "mention_doc"
  | .equation _ => "equation"
  | .lineBreak => "line_break"
  | .autoLink _ _ => "auto_link"
  | .imageRef _ _ _ => "image_ref"
  | .pendingImage _ _ => "pending_image"

def TextElement.members : TextElement → List (String × Json)
  | .run span =>
    [("content", .string span.content), ("style", span.style.toJson)] ++
      Json.optional "link" (span.link.map .string)
  | .mentionUser userId => [("user_id", .string userId)]
  | .mentionDoc title target => [("title", .string title), ("target", target.toJson)]
  | .equation content => [("content", .string content)]
  | .lineBreak => []
  | .autoLink url style => [("url", .string url), ("style", style.toJson)]
  | .imageRef alt url style =>
    [("alt", .string alt), ("url", .string url), ("style", style.toJson)]
  | .pendingImage alt path => [("alt", .string alt), ("path", .string path)]

def TextElement.toJson (element : TextElement) : Json :=
  .object (("type", .string element.typeName) :: element.members)

def Align.name : Align → String
  | .left => "left"
  | .center => "center"
  | .right => "right"

def BlockStyle.toJson (style : BlockStyle) : Json :=
  .object (Json.optional "language" (style.language.map .string) ++
    [("done", .bool style.done)] ++
    Json.optional "align" (style.align.map fun align => .string align.name) ++
    Json.optional "sequence" (style.sequence.map nat))

def TextBody.toJson (body : TextBody) : Json :=
  .object [("elements", .array (body.elements.map TextElement.toJson)),
    ("style", body.style.toJson)]

def Callout.toJson (callout : Callout) : Json :=
  .object (("background", .string callout.background.name) ::
    Json.optional "emoji" (callout.emoji.map .string))

def DiagramType.name : DiagramType → String
  | .flowchart => "flowchart"
  | .uml => "uml"

def File.toJson (file : File) : Json :=
  .object [("token", .string file.token), ("name", .string file.name)]

def ImageSource.typeName : ImageSource → String
  | .remote _ => "remote"
  | .disk _ => "local"
  | .media _ => "media"

def ImageSource.address : ImageSource → String
  | .remote url => url
  | .disk path => path
  | .media token => token

def ImageSource.toJson (source : ImageSource) : Json :=
  .object [("type", .string source.typeName), ("value", .string source.address)]

def Image.toJson (image : Image) : Json :=
  .object (Json.optional "token" (image.token.map .string) ++
    Json.optional "source" (image.source.map ImageSource.toJson) ++
    Json.optional "width" (image.width.map fun size => nat size.toNat) ++
    Json.optional "height" (image.height.map fun size => nat size.toNat))

def IsvComponent.toJson (component : IsvComponent) : Json :=
  .object [("component_type_id", .string component.componentTypeId),
    ("component_id", .string component.componentId)]

def TableProperty.toJson (property : TableProperty) : Json :=
  .object [("cells", .array (property.cells.map .string)), ("row_size", nat property.rowSize),
    ("column_size", nat property.columnSize), ("header_row", .bool property.headerRow)]

def SyncTarget.toJson (target : SyncTarget) : Json :=
  .object [("source_block_id", .string target.sourceBlockId),
    ("source_document_id", .string target.sourceDocumentId)]

namespace Kind

def name : Kind → String
  | .text role _ => role.name
  | .heading _ _ => "heading"
  | .embed role _ => role.name
  | .bare role => role.name
  | .callout _ => "callout"
  | .diagram _ => "diagram"
  | .file _ => "file"
  | .grid _ => "grid"
  | .gridColumn _ => "grid_column"
  | .image _ => "image"
  | .isv _ => "isv"
  | .table _ => "table"
  | .syncReference _ => "sync_reference"
  | .unknown _ => "unknown"

def payload? : Kind → Option Json
  | .text _ body => some (Json.orNull (body.map TextBody.toJson))
  | .heading level body => some (.object [("level", nat level.toNat),
      ("text", Json.orNull (body.map TextBody.toJson))])
  | .embed _ token => some (Json.orNull (token.map .string))
  | .bare _ => none
  | .callout content => some (Json.orNull (content.map Callout.toJson))
  | .diagram type? => some (Json.orNull (type?.map fun type => .string type.name))
  | .file content => some (Json.orNull (content.map File.toJson))
  | .grid columnSize =>
    some (.object [("column_size", Json.orNull (columnSize.map fun size => nat size.toNat))])
  | .gridColumn widthRatio =>
    some (.object [("width_ratio", Json.orNull (widthRatio.map fun size => nat size.toNat))])
  | .image content => some (Json.orNull (content.map Image.toJson))
  | .isv component => some (Json.orNull (component.map IsvComponent.toJson))
  | .table property => some (Json.orNull (property.map TableProperty.toJson))
  | .syncReference target => some (Json.orNull (target.map SyncTarget.toJson))
  | .unknown code => some (nat code.toNat)

def toJson (kind : Kind) : Json :=
  .object (("kind", .string kind.name) :: Json.optional "payload" kind.payload?)

end Kind

def Block.toJson (block : Block) : Json :=
  .object ([("id", .string block.id), ("kind", block.kind.toJson)] ++
    (if block.children.isEmpty then []
     else [("children", .array (block.children.map .string))]))

end Blockmark
