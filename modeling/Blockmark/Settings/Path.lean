import Blockmark.Json.Lexer
import Blockmark.Settings.Value

/-!
# Paths of settings

A path names a place among nested settings: a key, then keys behind points and indices in
brackets, as in `convert.document_id` or `list[0].name`.
-/

namespace Blockmark.Settings

inductive Step
  | key (name : String)
  | index (index : Int)
  deriving DecidableEq, Repr, Inhabited

/-- The characters of a key in a path: letters, digits, underscore, hyphen and space. -/
def isKeyChar (c : Char) : Bool :=
  Text.isLetter c || Text.isDigit c || c == '_' || c == '-' || c == ' '

def isIndexBlank (c : Char) : Bool :=
  c == ' ' || c == '\t' || c == '\n' || c == '\r'

def readKey? (text : List Char) : Option (Step × List Char) :=
  match text.takeWhile isKeyChar with
  | [] => none
  | name => some (.key (String.ofList name), text.dropWhile isKeyChar)

def readIndex? (text : List Char) : Option (Step × List Char) :=
  let text := text.dropWhile isIndexBlank
  let (negative, text) := match text with
    | '-' :: rest => (true, rest)
    | text => (false, text)
  let digits := text.takeWhile Text.isDigit
  let size : Int := Json.natOfDigits digits
  let index := if negative then -size else size
  match (text.dropWhile Text.isDigit).dropWhile isIndexBlank with
  | ']' :: rest =>
    if digits.isEmpty || !inIntegerRange index then none else some (.index index, rest)
  | _ => none

/-- The steps behind the first one. Every step takes at least one character, so `fuel` characters
are enough for a text of that length. -/
def readSteps? (fuel : Nat) (text : List Char) : Option (List Step) :=
  match fuel, text with
  | _, [] => some []
  | 0, _ :: _ => none
  | fuel + 1, c :: rest => do
    let (step, rest) ← if c = '.' then readKey? rest else if c = '[' then readIndex? rest else none
    let steps ← readSteps? fuel rest
    return step :: steps

def parsePath? (text : String) : Option (List Step) := do
  let (step, rest) ← readKey? text.toList
  let steps ← readSteps? rest.length rest
  return step :: steps

/-- Lays a value over what is at the end of some steps. What stands in the way is replaced. -/
def store (value : Value) : List Step → Value → Value
  | [], _ => value
  | [.key name], target => target.put name value
  | [.index index], target => target.alterIndex index fun _ => value
  | .key name :: steps, target => target.alterKey name (store value steps)
  | .index index :: steps, target => target.alterIndex index (store value steps)

end Blockmark.Settings
