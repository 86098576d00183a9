import Blockmark.Render.Block

/-!
# Exporting documents

The Markdown of everything under some roots, ending with a line end if there is anything, and the
tokens of the images in it.
-/

namespace Blockmark.Render

structure Exported where
  markdown : String := ""
  /-- The tokens of the images, in the order in which they first occur. -/
  imageTokens : List String := []
  deriving DecidableEq, Repr, Inhabited

def renderRoots (forest : Forest) (setting : Setting) (roots : List BlockId) :
    List Char × State :=
  (renderer forest setting maxDepth).siblings .plain roots {}

def document (forest : Forest) (setting : Setting) (roots : List BlockId) : Exported :=
  let body := renderRoots forest setting roots
  { markdown := if body.1.isEmpty then "" else String.ofList (body.1 ++ ['\n'])
    imageTokens := body.2.imageTokens }

end Blockmark.Render
