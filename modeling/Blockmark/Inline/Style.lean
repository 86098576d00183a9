import Blockmark.Block.Text

/-!
# Styles around a node

The inline styles and the link that surround a node. Every enclosing node only adds to them, and
of several links the innermost one counts.
-/

namespace Blockmark.Inline

structure StyleContext where
  flags : StyleFlags := {}
  link : Option String := none
  deriving DecidableEq, Repr, Inhabited

namespace StyleContext

def bold (context : StyleContext) : StyleContext :=
  { context with flags := context.flags.withBold }

def italic (context : StyleContext) : StyleContext :=
  { context with flags := context.flags.withItalic }

def strikethrough (context : StyleContext) : StyleContext :=
  { context with flags := context.flags.withStrikethrough }

def underline (context : StyleContext) : StyleContext :=
  { context with flags := context.flags.withUnderline }

def inlineCode (context : StyleContext) : StyleContext :=
  { context with flags := context.flags.withInlineCode }

def linked (context : StyleContext) (url : String) : StyleContext :=
  { context with link := some url }

end StyleContext

end Blockmark.Inline
