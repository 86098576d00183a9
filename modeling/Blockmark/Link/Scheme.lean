import Blockmark.Text.Blank

/-!
# Schemes of addresses

What may stand in front of the first colon of an address.
-/

namespace Blockmark.Link

open Text (isDigit isLetter)

def isSchemeChar (c : Char) : Bool :=
  isLetter c || isDigit c || c == '+' || c == '-' || c == '.'

def isScheme : List Char → Bool
  | [] => false
  | first :: more => isLetter first && more.all isSchemeChar

end Blockmark.Link
