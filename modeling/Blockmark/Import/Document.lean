import Blockmark.Import.Block

/-!
# Importing documents

The forest of a Markdown document, with the ids of its top-level blocks and the plain text of its
tables. How the text becomes a syntax tree is up to a reader; what the reader is asked for is part
of the import.
-/

namespace Blockmark.Import

open Markdown

structure Imported where
  roots : List BlockId := []
  forest : Forest := {}
  tables : List RawTable := []

def drafts (options : ConvertOptions) (nodes : List Node) : List Draft :=
  importBlocks options 0 nodes

def document (options : ConvertOptions) (nodes : List Node) : Imported :=
  let drafts := drafts options nodes
  let placement := placeAll 0 drafts
  { roots := placement.ids
    forest := .ofList placement.blocks
    tables := Draft.tablesOfAll drafts }

inductive Extension
  | autolink
  | mathDollars
  | strikethrough
  | table
  | tasklist
  deriving DecidableEq, Repr, Inhabited

/-- What a reader is asked for: the text, the extensions it has to know, and the line that
delimits front matter. -/
structure ReaderRequest where
  source : String
  extensions : List Extension
  frontMatterDelimiter : Option String
  deriving Repr, Inhabited

def ReaderRequest.ofText (source : String) : ReaderRequest :=
  { source
    extensions := [.autolink, .mathDollars, .strikethrough, .table, .tasklist]
    frontMatterDelimiter := some "---" }

def sourceText (octets : List UInt8) : Except Text.Utf8Fault String :=
  String.ofList <$> Text.decodeUtf8 octets

def refusal (fault : Text.Utf8Fault) : String :=
  "Parse error: input is not valid UTF-8: " ++ fault.message

def octets (options : ConvertOptions) (reader : ReaderRequest → List Node)
    (octets : List UInt8) : Except Text.Utf8Fault Imported := do
  let source ← sourceText octets
  return document options (reader (.ofText source))

end Blockmark.Import
