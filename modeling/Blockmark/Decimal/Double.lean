import Blockmark.Decimal.Power

/-!
# Double-precision numbers

Numbers of the form `mantissa * 2 ^ exponent` with a mantissa of 53 bits, as exact values, and the
one that is nearest to a decimal.

Main statement: `roundQuotient_of_dvd`, by which a quotient without remainder is not rounded.
-/

namespace Blockmark

inductive Double
  | nan
  | infinite (negative : Bool)
  /-- `mantissa * 2 ^ exponent` with its sign. -/
  | finite (negative : Bool) (mantissa : Nat) (exponent : Int)
  deriving DecidableEq, Repr, Inhabited

namespace Double

/-- Below this power of two there are no steps between numbers. -/
def lowestExponent : Int := -1074

def highestExponent : Int := 971

/-- The nearest natural number to a quotient; a half goes to the even neighbour. -/
def roundQuotient (num den : Nat) : Nat :=
  let whole := num / den
  let rest := num % den
  if 2 * rest < den then whole
  else if den < 2 * rest then whole + 1
  else whole + whole % 2

theorem roundQuotient_of_dvd {num den : Nat} (hden : 0 < den) (h : den ∣ num) :
    roundQuotient num den = num / den := by
  simp [roundQuotient, Nat.mod_eq_zero_of_dvd h, hden]

def scaleQuotient (num den : Nat) (exponent : Int) : Nat × Nat :=
  (num * twoTo (-exponent).toNat, den * twoTo exponent.toNat)

def ofQuotient (negative : Bool) (num den : Nat) : Double :=
  let low := max ((Nat.log2 num : Int) - Nat.log2 den - 53) lowestExponent
  let atLow := scaleQuotient num den low
  let exponent := if atLow.1 / atLow.2 < twoTo 53 then low else low + 1
  let scaled := scaleQuotient num den exponent
  let mantissa := roundQuotient scaled.1 scaled.2
  let carried : Nat × Int :=
    if mantissa = twoTo 53 then (twoTo 52, exponent + 1) else (mantissa, exponent)
  if highestExponent < carried.2 then .infinite negative
  else .finite negative carried.1 carried.2

/-- The number nearest to `significand * 10 ^ exponent`. Far outside of the range of numbers the
power of ten is not computed. -/
def ofDecimal (negative : Bool) (significand : Nat) (exponent : Int) : Double :=
  let size := (Nat.toDigits 10 significand).length + exponent
  if significand = 0 ∨ size < -330 then .finite negative 0 lowestExponent
  else if 310 < size then .infinite negative
  else ofQuotient negative (significand * tenTo exponent.toNat) (tenTo (-exponent).toNat)

def isZero : Double → Bool
  | .finite _ mantissa _ => mantissa == 0
  | _ => false

end Double

end Blockmark
