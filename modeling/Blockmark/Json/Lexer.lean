import Blockmark.Json.Reading
import Blockmark.Text.Blank

/-!
# Pieces of JSON text

Cutting JSON text into tokens, and reading a whole text.

Main statement: `nextToken?_shorter`, by which reading ends.
-/

namespace Blockmark.Json

def isJsonBlank (c : Char) : Bool :=
  c == ' ' || c == '\n' || c == '\t' || c == '\r'

def hexValue? (c : Char) : Option Nat :=
  if '0' ≤ c && c ≤ '9' then some (c.toNat - 0x30)
  else if 'a' ≤ c && c ≤ 'f' then some (c.toNat - 0x57)
  else if 'A' ≤ c && c ≤ 'F' then some (c.toNat - 0x37)
  else none

def hexValue4? (a b c d : Char) : Option Nat := do
  let a ← hexValue? a
  let b ← hexValue? b
  let c ← hexValue? c
  let d ← hexValue? d
  return ((a * 16 + b) * 16 + c) * 16 + d

def shortEscape? (c : Char) : Option Char :=
  if c = '"' ∨ c = '\\' ∨ c = '/' then some c
  else if c = 'b' then some '\x08'
  else if c = 'f' then some '\x0c'
  else if c = 'n' then some '\n'
  else if c = 'r' then some '\r'
  else if c = 't' then some '\t'
  else none

/-- Why the text behind `\u` does not give four hexadecimal digits: fewer than four octets are
left, or something else stands there. -/
def hexFault (text : List Char) : Cause :=
  if (text.take 4).foldl (fun size c => size + c.utf8Size) 0 < 4 then .unfinished else .malformed

inductive StringEnd
  | closed (text : Literal) (rest : List Char)
  | broken (unpaired : Bool) (cause : Cause)

/-- The text of a string behind its opening quote. The characters before are held in reverse;
`unpaired` says whether a surrogate escape among them lacks its partner. -/
def readString (before : List Char) (unpaired : Bool) : List Char → StringEnd
  | [] => .broken unpaired .unfinished
  | '"' :: rest =>
    .closed (if unpaired then none else some (String.ofList before.reverse)) rest
  | '\\' :: 'u' :: a :: b :: c :: d :: rest =>
    match hexValue4? a b c d with
    | none => .broken unpaired (hexFault (a :: b :: c :: d :: rest))
    | some unit =>
      if 0xD800 ≤ unit && unit ≤ 0xDBFF then
        match rest with
        | '\\' :: 'u' :: e :: f :: g :: h :: rest' =>
          match hexValue4? e f g h with
          | none => .broken unpaired (hexFault (e :: f :: g :: h :: rest'))
          | some second =>
            if 0xDC00 ≤ second && second ≤ 0xDFFF then
              readString
                (Char.ofNat ((unit - 0xD800) * 0x400 + (second - 0xDC00) + 0x10000) :: before)
                unpaired rest'
            else readString before true rest'
        | [] => .broken unpaired .unfinished
        | ['\\'] => .broken unpaired .unfinished
        | '\\' :: 'u' :: short => .broken unpaired (hexFault short)
        | rest => readString before true rest
      else if 0xDC00 ≤ unit && unit ≤ 0xDFFF then readString before true rest
      else readString (Char.ofNat unit :: before) unpaired rest
  | '\\' :: 'u' :: rest => .broken unpaired (hexFault rest)
  | ['\\'] => .broken unpaired .unfinished
  | '\\' :: c :: rest =>
    match shortEscape? c with
    | none => .broken unpaired .malformed
    | some escaped => readString (escaped :: before) unpaired rest
  | c :: rest =>
    if c.toNat < 0x20 then .broken unpaired .malformed
    else readString (c :: before) unpaired rest

def spanDigits (text : List Char) : List Char × List Char :=
  (text.takeWhile Text.isDigit, text.dropWhile Text.isDigit)

def natOfDigits (digits : List Char) : Nat :=
  digits.foldl (fun n c => n * 10 + (c.toNat - 0x30)) 0

def numberFault (rest : List Char) : Token :=
  .broken .number (if rest.isEmpty then .unfinished else .malformed)

def readSign : List Char → Bool × List Char
  | '-' :: rest => (true, rest)
  | '+' :: rest => (false, rest)
  | rest => (false, rest)

def readExponent (text : List Char) : Except Token (Option Int × List Char) :=
  match text with
  | mark :: rest =>
    if mark = 'e' ∨ mark = 'E' then
      let (negative, rest) := readSign rest
      let (digits, rest) := spanDigits rest
      if digits.isEmpty then .error (numberFault rest)
      else .ok (some (if negative then -natOfDigits digits else natOfDigits digits), rest)
    else .ok (none, text)
  | [] => .ok (none, text)

def readFraction (text : List Char) : Except Token (Option (List Char) × List Char) :=
  match text with
  | '.' :: rest =>
    let (digits, rest) := spanDigits rest
    if digits.isEmpty then .error (numberFault rest) else .ok (some digits, rest)
  | _ => .ok (none, text)

/-- A number without its sign. No digit may follow a leading zero. -/
def readUnsigned (negative : Bool) (text : List Char) : Token × List Char :=
  let (digits, rest) := spanDigits text
  if digits.isEmpty then (numberFault rest, rest)
  else if 1 < digits.length ∧ digits.head? = some '0' then (.broken .number .malformed, rest)
  else match readFraction rest with
    | .error fault => (fault, rest)
    | .ok (fraction, rest) =>
      match readExponent rest with
      | .error fault => (fault, rest)
      | .ok (exponent, rest) =>
        match fraction, exponent with
        | none, none => (.number (.whole negative (natOfDigits digits)), rest)
        | _, _ =>
          let places := fraction.getD []
          (.number (.decimal negative (natOfDigits (digits ++ places))
            (exponent.getD 0 - places.length)), rest)

def readWord (token : Token) (lead : Lead) : List Char → List Char → Token × List Char
  | [], rest => (token, rest)
  | _ :: _, [] => (.broken lead .unfinished, [])
  | c :: word, d :: rest =>
    if c = d then readWord token lead word rest else (.broken lead .malformed, rest)

def readToken (c : Char) (rest : List Char) : Token × List Char :=
  match c with
  | '[' => (.openArray, rest)
  | ']' => (.closeArray, rest)
  | '\x7b' => (.openObject, rest)
  | '\x7d' => (.closeObject, rest)
  | ',' => (.comma, rest)
  | ':' => (.colon, rest)
  | 'n' => readWord .null .null ['u', 'l', 'l'] rest
  | 't' => readWord (.bool true) .other ['r', 'u', 'e'] rest
  | 'f' => readWord (.bool false) .other ['a', 'l', 's', 'e'] rest
  | '"' =>
    match readString [] false rest with
    | .closed text rest => (.string text, rest)
    | .broken true cause => (.broken .unpairedText cause, [])
    | .broken false cause => (.broken .text cause, [])
  | '-' => readUnsigned true rest
  | c =>
    if Text.isDigit c then readUnsigned false (c :: rest)
    else (.broken .other .malformed, rest)

def nextToken? (text : List Char) : Option (Token × List Char) :=
  match text.dropWhile isJsonBlank with
  | [] => none
  | c :: rest => some (readToken c rest)

theorem length_dropWhile_le (p : Char → Bool) (text : List Char) :
    (text.dropWhile p).length ≤ text.length :=
  (List.dropWhile_suffix p).length_le

theorem spanDigits_length_le (text : List Char) : (spanDigits text).2.length ≤ text.length :=
  length_dropWhile_le _ _

theorem readString_length_lt {before : List Char} {unpaired : Bool} {text : List Char}
    {found : Literal} {rest : List Char}
    (h : readString before unpaired text = .closed found rest) : rest.length < text.length := by
  fun_induction readString before unpaired text <;> simp_all <;> omega

theorem readSign_length_le (text : List Char) : (readSign text).2.length ≤ text.length := by
  unfold readSign
  split <;> simp

theorem readExponent_length_le {text rest : List Char} {found : Option Int}
    (h : readExponent text = .ok (found, rest)) : rest.length ≤ text.length := by
  unfold readExponent at h
  split at h
  · next mark tail =>
    split at h
    · dsimp only at h
      split at h
      · cases h
      · cases h
        have hsign := readSign_length_le tail
        have hdigits := spanDigits_length_le (readSign tail).2
        simp only [List.length_cons]
        omega
    · cases h; exact Nat.le_refl _
  · cases h; exact Nat.le_refl _

theorem readFraction_length_le {text rest : List Char} {found : Option (List Char)}
    (h : readFraction text = .ok (found, rest)) : rest.length ≤ text.length := by
  unfold readFraction at h
  split at h
  · next tail =>
    dsimp only at h
    split at h
    · cases h
    · cases h
      exact Nat.le_trans (spanDigits_length_le _) (by simp)
  · cases h; exact Nat.le_refl _

theorem readUnsigned_length_le (negative : Bool) (text : List Char) :
    (readUnsigned negative text).2.length ≤ (spanDigits text).2.length := by
  unfold readUnsigned
  dsimp only
  split
  · exact Nat.le_refl _
  · split
    · exact Nat.le_refl _
    · cases hf : readFraction (spanDigits text).2 with
      | error fault => exact Nat.le_refl _
      | ok fraction =>
        have hfraction := readFraction_length_le hf
        dsimp only
        cases he : readExponent fraction.2 with
        | error fault => exact hfraction
        | ok exponent =>
          have hexponent := readExponent_length_le he
          dsimp only
          split <;> exact Nat.le_trans hexponent hfraction

theorem readWord_length_le (token : Token) (lead : Lead) (word text : List Char) :
    (readWord token lead word text).2.length ≤ text.length := by
  fun_induction readWord token lead word text <;> simp_all
  all_goals omega

theorem readToken_length_le (c : Char) (rest : List Char) :
    (readToken c rest).2.length ≤ rest.length := by
  unfold readToken
  split <;> try exact Nat.le_refl _
  · exact readWord_length_le _ _ _ _
  · exact readWord_length_le _ _ _ _
  · exact readWord_length_le _ _ _ _
  · split
    · next h => exact Nat.le_of_lt (readString_length_lt h)
    · exact Nat.zero_le _
    · exact Nat.zero_le _
  · exact Nat.le_trans (readUnsigned_length_le _ _) (spanDigits_length_le _)
  · split
    · next hc =>
      refine Nat.le_trans (readUnsigned_length_le _ _) ?_
      simpa [spanDigits, hc] using length_dropWhile_le _ _
    · exact Nat.le_refl _

theorem nextToken?_shorter {text rest : List Char} {token : Token}
    (h : nextToken? text = some (token, rest)) : rest.length < text.length := by
  unfold nextToken? at h
  split at h
  · cases h
  · next c tail hd =>
    have hle := length_dropWhile_le isJsonBlank text
    have hrest : (readToken c tail).2 = rest := by
      simpa using congrArg (fun o => (o.map Prod.snd)) h
    have := readToken_length_le c tail
    rw [hd] at hle
    rw [hrest] at this
    simp only [List.length_cons] at hle
    omega

def Progress.run (progress : Progress) (text : List Char) : Progress :=
  match _h : nextToken? text with
  | none => progress
  | some (token, rest) => (progress.step token).run rest
termination_by text.length
decreasing_by exact nextToken?_shorter _h

def Document.read (text : String) : Document :=
  (Progress.start.run text.toList).finish

end Blockmark.Json
