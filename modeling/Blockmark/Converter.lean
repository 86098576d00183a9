import Blockmark.Import.Document
import Blockmark.Mention.Collect
import Blockmark.Render.Document
import Blockmark.Text.Quoted

/-!
# Converters

A converter serves one session: it keeps its options, a way to look users up, and the users it has
looked up so far. An export that shows users first collects everyone mentioned and asks for the
unknown ones in a single request.
-/

namespace Blockmark

structure Converter where
  options : ConvertOptions := {}
  /-- How users are looked up, if they are: the answer may depend on the number of requests made
  before. -/
  resolver : Option (Nat → Mention.Resolver) := none
  cache : Mention.Cache := {}
  /-- The requests made so far, newest first. -/
  requests : List Mention.UserSet := []

namespace Converter

def importDocument (converter : Converter) (nodes : List Markdown.Node) : Import.Imported :=
  Import.document converter.options nodes

def importOctets (converter : Converter)
    (reader : Import.ReaderRequest → List Markdown.Node) (octets : List UInt8) :
    Except Text.Utf8Fault Import.Imported :=
  Import.octets converter.options reader octets

def resolveMentions (converter : Converter) (forest : Forest) (roots : List BlockId) :
    Converter :=
  if converter.options.expandMentions then
    let wanted := Mention.collect forest roots
    let resolver := converter.resolver.map (· converter.requests.length)
    { converter with
      cache := converter.cache.fill resolver wanted
      requests := (converter.cache.request? resolver wanted).toList ++ converter.requests }
  else converter

def exportDocument (converter : Converter) (forest : Forest) (roots : List BlockId) :
    Render.Exported × Converter :=
  let converter := converter.resolveMentions forest roots
  (Render.document forest { options := converter.options, cache := converter.cache } roots,
    converter)

def describeOptions (options : ConvertOptions) : String :=
  "ConvertOptions \x7b expand_mentions: " ++ toString options.expandMentions ++
    ", download_images: " ++ toString options.downloadImages ++
    ", upload_images: " ++ toString options.uploadImages ++
    ", document_id: " ++ Text.quote options.documentId ++
    ", uri_scheme: " ++ Text.quote options.uriScheme ++
    ", image_dir: " ++ Text.quote options.imageDir ++ " \x7d"

def describe (converter : Converter) : String :=
  "Converter \x7b options: " ++ describeOptions converter.options ++
    ", has_resolver: " ++ toString converter.resolver.isSome ++
    ", cached_users: " ++ toString converter.cache.size ++ " \x7d"

end Converter

end Blockmark
