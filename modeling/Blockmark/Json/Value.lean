import Blockmark.Decimal.Power

/-!
# JSON values

Values and numbers as their text gives them: an integer keeps its digits, a number with a fraction
or an exponent keeps its significand and its power of ten.
-/

namespace Blockmark

inductive Json.Number
  | whole (negative : Bool) (magnitude : Nat)
  | decimal (negative : Bool) (significand : Nat) (exponent : Int)
  deriving DecidableEq, Repr, Inhabited

namespace Json.Number

def digitCount (n : Nat) : Nat :=
  (Nat.toDigits 10 n).length

/-- Whether a double-precision number comes near `significand * 10 ^ exponent`: numbers from
`2 ^ 1024 - 2 ^ 970` on round to infinity. -/
def decimalFits (significand : Nat) (exponent : Int) : Bool :=
  let size := digitCount significand + exponent
  if significand = 0 then true
  else if size > 310 then false
  else if size < 300 then true
  else if 0 ≤ exponent then significand * tenTo exponent.toNat < twoTo 1024 - twoTo 970
  else significand < (twoTo 1024 - twoTo 970) * tenTo (-exponent).toNat

def isFinite : Number → Bool
  | .whole _ magnitude => decimalFits magnitude 0
  | .decimal _ significand exponent => decimalFits significand exponent

def natBelow? (bound : Nat) : Number → Option Nat
  | .whole false magnitude => if magnitude < bound then some magnitude else none
  | _ => none

end Json.Number

/-- A JSON value. The members of an object keep their order. -/
inductive Json
  | null
  | bool (value : Bool)
  | number (value : Json.Number)
  | string (value : String)
  | array (items : List Json)
  | object (members : List (String × Json))
  deriving Inhabited

def Json.nat (n : Nat) : Json :=
  .number (.whole false n)

end Blockmark
