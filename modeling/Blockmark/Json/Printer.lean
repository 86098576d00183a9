import Blockmark.Json.Value

/-!
# JSON text

Two layouts of a value: on one line, and with one member or item a line, indented by two spaces
a level. Strings escape quotes, backslashes and control characters and nothing else.
-/

namespace Blockmark.Json

def hexDigit (n : Nat) : Char :=
  if n < 10 then Char.ofNat (0x30 + n) else Char.ofNat (0x57 + n)

def escapeChar (c : Char) : List Char :=
  if c = '"' then ['\\', '"']
  else if c = '\\' then ['\\', '\\']
  else if c = '\x08' then ['\\', 'b']
  else if c = '\x0c' then ['\\', 'f']
  else if c = '\n' then ['\\', 'n']
  else if c = '\r' then ['\\', 'r']
  else if c = '\t' then ['\\', 't']
  else if c.toNat < 0x20 then
    ['\\', 'u', '0', '0', hexDigit (c.toNat / 16), hexDigit (c.toNat % 16)]
  else [c]

def stringText (s : String) : List Char :=
  '"' :: s.toList.flatMap escapeChar ++ ['"']

def natText (n : Nat) : List Char :=
  Nat.toDigits 10 n

def Number.text : Number → List Char
  | .whole negative magnitude => (if negative then ['-'] else []) ++ natText magnitude
  | .decimal negative significand exponent =>
    (if negative then ['-'] else []) ++ natText significand ++ ['e'] ++
      (if exponent < 0 then ['-'] else []) ++ natText exponent.natAbs

def newline (depth : Nat) : List Char :=
  '\n' :: List.replicate (2 * depth) ' '

mutual

def prettyText (depth : Nat) : Json → List Char
  | .null => ['n', 'u', 'l', 'l']
  | .bool true => ['t', 'r', 'u', 'e']
  | .bool false => ['f', 'a', 'l', 's', 'e']
  | .number n => n.text
  | .string s => stringText s
  | .array [] => ['[', ']']
  | .array (item :: items) =>
    '[' :: newline (depth + 1) ++ prettyText (depth + 1) item ++ prettyItems (depth + 1) items ++
      newline depth ++ [']']
  | .object [] => ['\x7b', '\x7d']
  | .object ((key, value) :: members) =>
    '\x7b' :: newline (depth + 1) ++ stringText key ++ [':', ' '] ++
      prettyText (depth + 1) value ++ prettyMembers (depth + 1) members ++
      newline depth ++ ['\x7d']

def prettyItems (depth : Nat) : List Json → List Char
  | [] => []
  | item :: items =>
    ',' :: newline depth ++ prettyText depth item ++ prettyItems depth items

def prettyMembers (depth : Nat) : List (String × Json) → List Char
  | [] => []
  | (key, value) :: members =>
    ',' :: newline depth ++ stringText key ++ [':', ' '] ++ prettyText depth value ++
      prettyMembers depth members

end

def pretty (value : Json) : String :=
  String.ofList (prettyText 0 value)

mutual

def compactText (rest : List Char) : Json → List Char
  | .null => 'n' :: 'u' :: 'l' :: 'l' :: rest
  | .bool true => 't' :: 'r' :: 'u' :: 'e' :: rest
  | .bool false => 'f' :: 'a' :: 'l' :: 's' :: 'e' :: rest
  | .number n => n.text ++ rest
  | .string s => stringText s ++ rest
  | .array [] => '[' :: ']' :: rest
  | .array (item :: items) => '[' :: compactText (compactItems (']' :: rest) items) item
  | .object [] => '\x7b' :: '\x7d' :: rest
  | .object ((key, value) :: members) =>
    '\x7b' :: stringText key ++ ':' :: compactText (compactMembers ('\x7d' :: rest) members) value

def compactItems (rest : List Char) : List Json → List Char
  | [] => rest
  | item :: items => ',' :: compactText (compactItems rest items) item

def compactMembers (rest : List Char) : List (String × Json) → List Char
  | [] => rest
  | (key, value) :: members =>
    ',' :: stringText key ++ ':' :: compactText (compactMembers rest members) value

end

def compact (value : Json) : String :=
  String.ofList (compactText [] value)

end Blockmark.Json
