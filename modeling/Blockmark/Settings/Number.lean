import Blockmark.Json.Lexer
import Blockmark.Settings.Value

/-!
# Numbers in settings

Two spellings of numbers: the free one of environment variables, and the strict one of setting
files, with digit groups and other bases.
-/

namespace Blockmark.Settings

open Text (isDigit)

def readInteger? (text : List Char) : Option Int :=
  let (negative, digits) := Json.readSign text
  if digits.isEmpty || !digits.all isDigit then none
  else
    let size : Int := Json.natOfDigits digits
    let n := if negative then -size else size
    if inIntegerRange n then some n else none

def readExponent? : List Char → Option Int
  | [] => some 0
  | mark :: rest =>
    let (negative, digits) := Json.readSign rest
    if (mark = 'e' ∨ mark = 'E') ∧ !digits.isEmpty ∧ digits.all isDigit then
      let size : Int := Json.natOfDigits digits
      some (if negative then -size else size)
    else none

def readDecimal? (negative : Bool) (text : List Char) : Option Double :=
  let whole := text.takeWhile isDigit
  let rest := text.dropWhile isDigit
  let (places, rest) := match rest with
    | '.' :: rest => (rest.takeWhile isDigit, rest.dropWhile isDigit)
    | rest => ([], rest)
  if whole.isEmpty && places.isEmpty then none
  else (readExponent? rest).map fun exponent =>
    .ofDecimal negative (Json.natOfDigits (whole ++ places)) (exponent - places.length)

def readFloat? (text : List Char) : Option Double :=
  let (negative, rest) := Json.readSign text
  let word := String.ofList (Text.lower rest)
  if word = "nan" then some .nan
  else if word = "inf" ∨ word = "infinity" then some (.infinite negative)
  else readDecimal? negative rest

/-- The digits of a number with underscores between them, where `isDigit` says which ones are
digits. -/
def ungroup? (isDigit : Char → Bool) : List Char → Option (List Char)
  | [] => none
  | [c] => if isDigit c then some [c] else none
  | c :: '_' :: rest => if isDigit c then (ungroup? isDigit rest).map (c :: ·) else none
  | c :: rest => if isDigit c then (ungroup? isDigit rest).map (c :: ·) else none

def valueInBase (base : Nat) (digits : List Char) : Nat :=
  digits.foldl (fun n c => n * base + (Json.hexValue? c).getD 0) 0

def isDigitOf (base : Nat) (c : Char) : Bool :=
  (Json.hexValue? c).any (· < base)

def readInBase? (base : Nat) (text : List Char) : Option Value := do
  let n : Int := valueInBase base (← ungroup? (isDigitOf base) text)
  if inIntegerRange n then some (.integer n) else none

/-- The digits in front of the point. A leading zero stands alone. -/
def ungroupWhole? (text : List Char) : Option (List Char) := do
  let digits ← ungroup? isDigit text
  if 1 < digits.length ∧ digits.head? = some '0' then none else some digits

/-- A decimal in the spelling of setting files, where numbers too large for a double are refused
unless they are negative. -/
def readStrictFloat? (negative : Bool) (text : List Char) : Option Value := do
  let isMark (c : Char) : Bool := c == 'e' || c == 'E'
  let whole ← ungroupWhole? (text.takeWhile fun c => c != '.' && !isMark c)
  let rest := text.dropWhile fun c => c != '.' && !isMark c
  let (places, rest) ← match rest with
    | '.' :: rest => do
      let places ← ungroup? isDigit (rest.takeWhile (!isMark ·))
      pure (places, rest.dropWhile (!isMark ·))
    | rest => pure ([], rest)
  let exponent : Int ← match rest with
    | [] => pure 0
    | _ :: rest => do
      let (down, digits) := Json.readSign rest
      let size : Int := Json.natOfDigits (← ungroup? isDigit digits)
      pure (if down then -size else size)
  let double := Double.ofDecimal negative (Json.natOfDigits (whole ++ places))
    (exponent - places.length)
  if double = .infinite false then none else some (.float double)

def readStrict? (text : List Char) : Option Value :=
  match text with
  | '0' :: 'x' :: digits => readInBase? 16 digits
  | '0' :: 'o' :: digits => readInBase? 8 digits
  | '0' :: 'b' :: digits => readInBase? 2 digits
  | text =>
    let (negative, rest) := Json.readSign text
    match rest with
    | ['i', 'n', 'f'] => some (.float (.infinite negative))
    | ['n', 'a', 'n'] => some (.float .nan)
    | rest =>
      match ungroupWhole? rest with
      | some digits =>
        let size : Int := Json.natOfDigits digits
        let n := if negative then -size else size
        if inIntegerRange n then some (.integer n) else none
      | none =>
        if rest.any fun c => c == '.' || c == 'e' || c == 'E' then readStrictFloat? negative rest
        else none

end Blockmark.Settings
