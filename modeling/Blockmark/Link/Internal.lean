import Blockmark.Text.Blank

/-!
# Internal addresses

Addresses of documents, media and embedded objects: `scheme://kind/token`.
-/

namespace Blockmark.Link

/-- `scheme://kind/token` -/
def internalUri (scheme kind token : String) : String :=
  scheme ++ "://" ++ kind ++ "/" ++ token

def documentUri (scheme token : String) : String :=
  internalUri scheme "doc" token

def parseInternalUri (url scheme kind : String) : Option String := do
  let rest ← Text.dropPrefix? scheme.toList url.toList
  let rest ← Text.dropPrefix? [':', '/', '/'] rest
  let rest ← Text.dropPrefix? kind.toList rest
  let token ← Text.dropPrefix? ['/'] rest
  if token.isEmpty then none else some (String.ofList token)

end Blockmark.Link
