import Blockmark.Link.Internal
import Blockmark.Link.Web
import Blockmark.Block.Kind

/-!
# Image sources

Sorting the address of an image into one of three classes: uploaded media, web addresses, and
paths in the file system.
-/

namespace Blockmark.Link

def classifyImage (src scheme : String) : ImageSource :=
  match parseInternalUri src scheme "media" with
  | some token => .media token
  | none => if isWebAddress src.toList then .remote src else .disk src

end Blockmark.Link
