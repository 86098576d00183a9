import Blockmark.Settings.Number

/-!
# Setting files

The text of a setting file in TOML: comments, tables under headers, dotted and quoted keys, inline
tables, lists, strings on one line, numbers and booleans. A key that is defined twice makes a file
malformed.
-/

namespace Blockmark.Settings

inductive Item
  | leaf (value : Value)
  /-- A table; `implied` when only a longer header or key mentions it, `dotted` when a dotted key
  made it. -/
  | table (implied dotted : Bool) (entries : List (String × Item))
  deriving Inhabited

namespace Item

mutual

def toValue : Item → Value
  | .leaf value => value
  | .table _ _ entries => .table (toEntries entries)

def toEntries : List (String × Item) → List (String × Value)
  | [] => []
  | (key, item) :: entries => (key, item.toValue) :: toEntries entries

end

/-- Opens the table of a header. A table can be opened once. -/
def openTable : List String → List (String × Item) → Option (List (String × Item))
  | [], entries => some entries
  | [key], entries =>
    match lookup key entries with
    | none => some (setEntry key (.table false false []) entries)
    | some (.table true false inner) => some (setEntry key (.table false false inner) entries)
    | some _ => none
  | key :: keys, entries =>
    match lookup key entries with
    | none => do
      let inner ← openTable keys []
      return setEntry key (.table true false inner) entries
    | some (.table implied dotted inner) => do
      let inner ← openTable keys inner
      return setEntry key (.table implied dotted inner) entries
    | some (.leaf _) => none

/-- Adds a value under a dotted key. The tables on the way are made by such keys, and the key is
new. -/
def insertDotted (value : Value) : List String → List (String × Item) →
    Option (List (String × Item))
  | [], _ => none
  | [key], entries =>
    match lookup key entries with
    | none => some (setEntry key (.leaf value) entries)
    | some _ => none
  | key :: keys, entries =>
    match lookup key entries with
    | none => do
      let inner ← insertDotted value keys []
      return setEntry key (.table true true inner) entries
    | some (.table true dotted inner) =>
      -- The innermost table has to be made by a dotted key.
      if keys.length = 1 && !dotted then none
      else do
        let inner ← insertDotted value keys inner
        return setEntry key (.table true dotted inner) entries
    | some _ => none

def insertUnder (keys : List String) (value : Value) : List String → List (String × Item) →
    Option (List (String × Item))
  | [], entries => insertDotted value keys entries
  | key :: header, entries =>
    match lookup key entries with
    | some (.table implied dotted inner) => do
      let inner ← insertUnder keys value header inner
      return setEntry key (.table implied dotted inner) entries
    | _ => none

end Item

namespace Toml

def skipBlanks (text : List Char) : List Char :=
  text.dropWhile fun c => c == ' ' || c == '\t'

def isControl (c : Char) : Bool :=
  (c.toNat < 0x20 && c != '\t') || c.toNat == 0x7F

def lineEnd? : List Char → Option (List Char)
  | '\n' :: rest => some rest
  | '\r' :: '\n' :: rest => some rest
  | _ => none

def skipComment? (text : List Char) : Option (List Char) :=
  match text with
  | '#' :: rest =>
    let body := rest.takeWhile fun c => c != '\n' && c != '\r'
    if body.any isControl then none else some (rest.drop body.length)
  | text => some text

def finishLine? (text : List Char) : Option (List Char) := do
  let rest ← skipComment? (skipBlanks text)
  if rest.isEmpty then some [] else lineEnd? rest

def charOfCode? (code : Nat) : Option Char :=
  if code < 0xD800 ∨ (0xE000 ≤ code ∧ code < 0x110000) then some (Char.ofNat code) else none

def hexCode? (digits : List Char) : Option Nat :=
  if digits.all fun c => (Json.hexValue? c).isSome then some (valueInBase 16 digits) else none

/-- The text of a string behind its opening quote, and the rest. The characters before are held in
reverse. -/
def readBasic? (before : List Char) : List Char → Option (String × List Char)
  | [] => none
  | '"' :: rest => some (String.ofList before.reverse, rest)
  | '\\' :: 'u' :: a :: b :: c :: d :: rest => do
    let char ← charOfCode? (← hexCode? [a, b, c, d])
    readBasic? (char :: before) rest
  | '\\' :: 'U' :: a :: b :: c :: d :: e :: f :: g :: h :: rest => do
    let char ← charOfCode? (← hexCode? [a, b, c, d, e, f, g, h])
    readBasic? (char :: before) rest
  | '\\' :: c :: rest =>
    if c = '/' then none
    else match Json.shortEscape? c with
      | none => none
      | some char => readBasic? (char :: before) rest
  | c :: rest => if c = '\\' ∨ isControl c then none else readBasic? (c :: before) rest

def readLiteral? (text : List Char) : Option (String × List Char) :=
  let body := text.takeWhile (· != '\'')
  match text.drop body.length with
  | _ :: rest => if body.any isControl then none else some (String.ofList body, rest)
  | [] => none

def isBareChar (c : Char) : Bool :=
  Text.isLetter c || Text.isDigit c || c == '_' || c == '-'

def readKey? : List Char → Option (String × List Char)
  | '"' :: rest => readBasic? [] rest
  | '\'' :: rest => readLiteral? rest
  | text =>
    match text.takeWhile isBareChar with
    | [] => none
    | key => some (String.ofList key, text.dropWhile isBareChar)

def readKeys? : (fuel : Nat) → List Char → Option (List String × List Char)
  | 0, _ => none
  | fuel + 1, text => do
    let (key, rest) ← readKey? text
    match skipBlanks rest with
    | '.' :: more =>
      let (keys, rest) ← readKeys? fuel (skipBlanks more)
      return (key :: keys, rest)
    | _ => return ([key], skipBlanks rest)

/-- The text behind blanks, line ends and comments, as they may stand in a list. -/
def skipLines? : (fuel : Nat) → List Char → Option (List Char)
  | 0, _ => none
  | fuel + 1, text => do
    let rest ← skipComment? (skipBlanks text)
    match lineEnd? rest with
    | some rest => skipLines? fuel rest
    | none => some rest

def isWordChar (c : Char) : Bool :=
  isBareChar c || c == '+' || c == '.' || c == ':'

def readWord? (text : List Char) : Option (Value × List Char) :=
  let word := text.takeWhile isWordChar
  let value : Option Value := match word with
    | ['t', 'r', 'u', 'e'] => some (.bool true)
    | ['f', 'a', 'l', 's', 'e'] => some (.bool false)
    | word => readStrict? word
  value.map (·, text.dropWhile isWordChar)

mutual

def readValue? : (fuel : Nat) → List Char → Option (Value × List Char)
  | 0, _ => none
  | fuel + 1, text =>
    match text with
    | '"' :: rest => (readBasic? [] rest).map fun found => (.string found.1, found.2)
    | '\'' :: rest => (readLiteral? rest).map fun found => (.string found.1, found.2)
    | '[' :: rest => (readItems? fuel rest).map fun found => (.array found.1, found.2)
    | '\x7b' :: rest =>
      match skipBlanks rest with
      | '\x7d' :: rest => some (.table [], rest)
      | rest =>
        (readMembers? fuel [] rest).map fun found => (.table (Item.toEntries found.1), found.2)
    | text => readWord? text

def readItems? : (fuel : Nat) → List Char → Option (List Value × List Char)
  | 0, _ => none
  | fuel + 1, text => do
    match ← skipLines? (text.length + 1) text with
    | ']' :: rest => return ([], rest)
    | text =>
      let (value, rest) ← readValue? fuel text
      match ← skipLines? (rest.length + 1) rest with
      | ',' :: rest =>
        let (values, rest) ← readItems? fuel rest
        return (value :: values, rest)
      | ']' :: rest => return ([value], rest)
      | _ => none

def readMembers? : (fuel : Nat) → List (String × Item) → List Char →
    Option (List (String × Item) × List Char)
  | 0, _, _ => none
  | fuel + 1, entries, text => do
    let (keys, rest) ← readKeys? (text.length + 1) (skipBlanks text)
    match rest with
    | '=' :: rest =>
      let (value, rest) ← readValue? fuel (skipBlanks rest)
      let entries ← Item.insertDotted value keys entries
      match skipBlanks rest with
      | ',' :: rest => readMembers? fuel entries rest
      | '\x7d' :: rest => return (entries, rest)
      | _ => none
    | _ => none

end

def readLines? : (fuel : Nat) → (header : List String) → List (String × Item) → List Char →
    Option (List (String × Item))
  | 0, _, _, _ => none
  | fuel + 1, header, entries, text => do
    let text ← skipComment? (skipBlanks text)
    match text with
    | [] => return entries
    | '[' :: rest =>
      let (keys, rest) ← readKeys? (rest.length + 1) (skipBlanks rest)
      match rest with
      | ']' :: rest =>
        let entries ← Item.openTable keys entries
        readLines? fuel keys entries (← finishLine? rest)
      | _ => none
    | text =>
      match lineEnd? text with
      | some rest => readLines? fuel header entries rest
      | none =>
        let (keys, rest) ← readKeys? (text.length + 1) text
        match rest with
        | '=' :: rest =>
          let (value, rest) ← readValue? (rest.length + 1) (skipBlanks rest)
          let entries ← Item.insertUnder keys value header entries
          readLines? fuel header entries (← finishLine? rest)
        | _ => none

/-- The settings of a file; none if it is malformed. A byte order mark may precede them. -/
def parse? (text : String) : Option (List (String × Value)) :=
  let text := match text.toList with
    | '\uFEFF' :: text => text
    | text => text
  (readLines? (text.length + 1) [] [] text).map Item.toEntries

end Toml

end Blockmark.Settings
