import Blockmark.Json.Decode

/-!
# Conversion options

What can be set for importing and exporting. In JSON every option may be left out.
-/

namespace Blockmark

structure ConvertOptions where
  /-- Write names and addresses of mentioned users when exporting. -/
  expandMentions : Bool := false
  /-- Refer to downloaded images under `imageDir` when exporting. -/
  downloadImages : Bool := false
  /-- Keep images of the file system as pending uploads when importing. -/
  uploadImages : Bool := false
  documentId : String := ""
  uriScheme : String := "lark"
  imageDir : String := "static"
  deriving DecidableEq, Repr, Inhabited

namespace ConvertOptions

open Json Json.Decoder

def decoder : Decoder ConvertOptions :=
  record {} [
    .allows "expand_mentions" bool fun value options => { options with expandMentions := value },
    .allows "download_images" bool fun value options => { options with downloadImages := value },
    .allows "upload_images" bool fun value options => { options with uploadImages := value },
    .allows "document_id" string fun value options => { options with documentId := value },
    .allows "uri_scheme" string fun value options => { options with uriScheme := value },
    .allows "image_dir" string fun value options => { options with imageDir := value }]

def toJson (options : ConvertOptions) : Json :=
  .object [("expand_mentions", .bool options.expandMentions),
    ("download_images", .bool options.downloadImages),
    ("upload_images", .bool options.uploadImages), ("document_id", .string options.documentId),
    ("uri_scheme", .string options.uriScheme), ("image_dir", .string options.imageDir)]

def withDocumentId (options : ConvertOptions) (documentId : String) : ConvertOptions :=
  { options with documentId }

def withExpandMentions (options : ConvertOptions) (expandMentions : Bool) : ConvertOptions :=
  { options with expandMentions }

def withUploadImages (options : ConvertOptions) (uploadImages : Bool) : ConvertOptions :=
  { options with uploadImages }

def withDownloadImages (options : ConvertOptions) (downloadImages : Bool) : ConvertOptions :=
  { options with downloadImages }

end ConvertOptions

end Blockmark
