import Blockmark.Link.Internal
import Blockmark.Link.Target
import Blockmark.Mention.Cache
import Blockmark.Options
import Blockmark.Block.Kind
import Blockmark.Text.Lines

/-!
# Rendering styled text

The Markdown of the elements of a text. White space at the ends of a run stays outside of its
marks, since marks next to white space are none; fences of code outgrow the backticks inside.

Main statement: `applyStyle_plain`.
-/

namespace Blockmark.Render

open Text

structure Setting where
  options : ConvertOptions := {}
  cache : Mention.Cache := {}

def longestBacktickRun (text : List Char) : Nat :=
  (text.foldl (fun (state : Nat × Nat) c =>
    if c = '\x60' then (state.1 + 1, max state.2 (state.1 + 1)) else (0, state.2)) (0, 0)).2

/-- Code between fences of backticks. A backtick at either end of it is kept apart by spaces. -/
def codeSpan (code : List Char) : List Char :=
  let fence := List.replicate (longestBacktickRun code + 1) '\x60'
  if code.head? = some '\x60' ∨ code.getLast? = some '\x60' then
    fence ++ [' '] ++ code ++ [' '] ++ fence
  else fence ++ code ++ fence

def wrap (opening closing inner : List Char) : List Char :=
  opening ++ inner ++ closing

/-- Text with the marks of its styles, strikethrough innermost and underline outermost. -/
def applyStyle (style : StyleFlags) (inner : List Char) : List Char :=
  let inner := if style.strikethrough then wrap ['~', '~'] ['~', '~'] inner else inner
  let inner := if style.italic then wrap ['*'] ['*'] inner else inner
  let inner := if style.bold then wrap ['*', '*'] ['*', '*'] inner else inner
  if style.underline then wrap ['<', 'u', '>'] ['<', '/', 'u', '>'] inner else inner

theorem applyStyle_plain (inner : List Char) : applyStyle {} inner = inner := rfl

def linkText (text target : List Char) : List Char :=
  ['['] ++ text ++ [']', '('] ++ target ++ [')']

def imageText (alt target : List Char) : List Char :=
  '!' :: linkText alt target

def renderRun (span : TextRun) : List Char :=
  let content := span.content.toList
  let core := trim content
  if core.isEmpty then content
  else
    let styled := applyStyle span.style (if span.style.inlineCode then codeSpan core else core)
    let linked := match span.link with
      | none => styled
      | some url => linkText styled (Link.encodeTargetChars url.toList)
    leadingBlanks content ++ linked ++ trailingBlanks content

/-- The address of a mentioned document. One that leads nowhere is the current document. -/
def documentAddress (options : ConvertOptions) : DocTarget → String
  | .url address =>
    if address.isEmpty then Link.documentUri options.uriScheme options.documentId else address
  | .token token =>
    Link.documentUri options.uriScheme (if token.isEmpty then options.documentId else token)

def renderElement (setting : Setting) : TextElement → List Char
  | .run span => renderRun span
  | .mentionUser userId => (setting.cache.render setting.options.expandMentions userId).toList
  | .mentionDoc title target =>
    let url := Link.encodeTargetChars (documentAddress setting.options target).toList
    linkText (if title.isEmpty then url else title.toList) url
  | .equation content => ['$'] ++ trim content.toList ++ ['$']
  | .lineBreak => ['<', 'b', 'r', '>']
  | .autoLink url style =>
    let bare := ((stripPrefix? "mailto:" url).getD url).toList
    applyStyle style (['<'] ++ bare ++ ['>'])
  | .imageRef alt url style =>
    applyStyle style (imageText alt.toList (Link.encodeTargetChars url.toList))
  | .pendingImage alt path => imageText alt.toList path.toList

def renderBody (setting : Setting) (body : TextBody) : List Char :=
  body.elements.flatMap (renderElement setting)

def renderBody? (setting : Setting) (body : Option TextBody) : List Char :=
  (body.map (renderBody setting)).getD []

end Blockmark.Render
