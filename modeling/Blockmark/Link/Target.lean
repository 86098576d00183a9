import Blockmark.Text.Utf8
import Blockmark.Json.Lexer

/-!
# Link targets

The form in which an address stands in the parentheses of a link: readable, but with its own
parentheses escaped.
-/

namespace Blockmark.Link

open Json (hexValue?)

/-- The octets of a text in which `%` and two hexadecimal digits stand for one octet. Any other
`%` stands for itself. -/
def percentOctets : List Char → List UInt8
  | '%' :: a :: b :: rest =>
    match hexValue? a, hexValue? b with
    | some high, some low => UInt8.ofNat (high * 16 + low) :: percentOctets rest
    | _, _ => String.utf8EncodeChar '%' ++ percentOctets (a :: b :: rest)
  | c :: rest => String.utf8EncodeChar c ++ percentOctets rest
  | [] => []

def percentDecode? (text : List Char) : Option (List Char) :=
  (Text.decodeUtf8 (percentOctets text)).toOption

def escapeParenthesis (c : Char) : List Char :=
  if c = '(' then ['%', '2', '8'] else if c = ')' then ['%', '2', '9'] else [c]

/-- The decoded address with its parentheses escaped. An address that cannot be decoded is taken
as it is. -/
def encodeTargetChars (url : List Char) : List Char :=
  ((percentDecode? url).getD url).flatMap escapeParenthesis

def encodeTarget (url : String) : String :=
  String.ofList (encodeTargetChars url.toList)

end Blockmark.Link
