/-!
# Styled text

The text of a block: elements with inline styles, and a style of the block as a whole.
-/

namespace Blockmark

/-- Inline styles. They are independent of each other and only ever added. -/
structure StyleFlags where
  bold : Bool := false
  italic : Bool := false
  strikethrough : Bool := false
  underline : Bool := false
  inlineCode : Bool := false
  deriving DecidableEq, Repr, Inhabited

namespace StyleFlags

def withBold (flags : StyleFlags) : StyleFlags := { flags with bold := true }

def withItalic (flags : StyleFlags) : StyleFlags := { flags with italic := true }

def withStrikethrough (flags : StyleFlags) : StyleFlags := { flags with strikethrough := true }

def withUnderline (flags : StyleFlags) : StyleFlags := { flags with underline := true }

def withInlineCode (flags : StyleFlags) : StyleFlags := { flags with inlineCode := true }

def isPlain (flags : StyleFlags) : Bool :=
  flags = {}

end StyleFlags

structure TextRun where
  content : String
  style : StyleFlags := {}
  link : Option String := none
  deriving DecidableEq, Repr, Inhabited

inductive DocTarget
  | url (address : String)
  | token (token : String)
  deriving DecidableEq, Repr, Inhabited

inductive TextElement
  | run (span : TextRun)
  | mentionUser (userId : String)
  | mentionDoc (title : String) (target : DocTarget)
  | equation (content : String)
  | lineBreak
  /-- An address that stands for itself. -/
  | autoLink (url : String) (style : StyleFlags)
  | imageRef (alt url : String) (style : StyleFlags)
  /-- An image in the file system that waits for its upload. -/
  | pendingImage (alt path : String)
  deriving DecidableEq, Repr, Inhabited

def TextElement.plainText : TextElement → String
  | .run span => span.content
  | .mentionUser userId => "@" ++ userId
  | .mentionDoc title _ => title
  | .equation content => content
  | .lineBreak => "\n"
  | .autoLink url _ => url
  | .imageRef alt _ _ => alt
  | .pendingImage alt _ => alt

inductive Align
  | left
  | center
  | right
  deriving DecidableEq, Repr, Inhabited

structure BlockStyle where
  language : Option String := none
  done : Bool := false
  align : Option Align := none
  /-- The number an ordered item starts from; without one it counts on. -/
  sequence : Option Nat := none
  deriving DecidableEq, Repr, Inhabited

structure TextBody where
  elements : List TextElement := []
  style : BlockStyle := {}
  deriving DecidableEq, Repr, Inhabited

namespace TextBody

def plain (content : String) : TextBody :=
  { elements := [.run { content }] }

def plainText (body : TextBody) : String :=
  String.join (body.elements.map TextElement.plainText)

def isEmpty (body : TextBody) : Bool :=
  body.elements.all fun
    | .run span => span.content.isEmpty
    | _ => false

end TextBody

end Blockmark
