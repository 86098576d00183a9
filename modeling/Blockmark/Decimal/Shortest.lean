import Blockmark.Decimal.Double

/-!
# Shortest decimal text

The text of a double-precision number: the fewest digits by which it can be told from all others,
nearest to it among those of that length, written without an exponent.

Main statement: `positional_of_nonneg`, the form of a decimal with a power of ten that is not
negative.
-/

namespace Blockmark.Double

/-- Compares `digits * 10 ^ power` with `units * 2 ^ exponent`. -/
def compareScaled (digits : Nat) (power : Int) (units : Nat) (exponent : Int) : Ordering :=
  compare (digits * tenTo power.toNat * twoTo (-exponent).toNat)
    (units * twoTo exponent.toNat * tenTo (-power).toNat)

/-- Whether the nearest number to a decimal is `mantissa * 2 ^ exponent`. The reals around a number
reach halfway to its neighbours, and include these ends if the mantissa is even. -/
def roundsTo (mantissa : Nat) (exponent : Int) (digits : Nat) (power : Int) : Bool :=
  let down := if mantissa = twoTo 52 ∧ lowestExponent < exponent then 1 else 2
  let low := compareScaled digits power (4 * mantissa - down) (exponent - 2)
  let high := compareScaled digits power (4 * mantissa + 2) (exponent - 2)
  let ends := mantissa % 2 == 0
  (low == .gt || (ends && low == .eq)) && (high == .lt || (ends && high == .eq))

def digitsBeforePoint (num den : Nat) : Int :=
  let size : Int := (Nat.toDigits 10 num).length - (Nat.toDigits 10 den).length
  if den * tenTo size.toNat ≤ num * tenTo (-size).toNat then size + 1 else size

/-- The decimal of `count` digits that is nearest to a number among its two neighbours that round
to it, if one of them does. Of two at the same distance it is the larger one. -/
def decimalOfCount? (mantissa : Nat) (exponent : Int) (count : Nat) : Option (Nat × Int) :=
  let num := mantissa * twoTo exponent.toNat
  let den := twoTo (-exponent).toNat
  let power := digitsBeforePoint num den - count
  let top := num * tenTo (-power).toNat
  let bottom := den * tenTo power.toNat
  let below := top / bottom
  let hitBelow := roundsTo mantissa exponent below power
  let hitAbove := roundsTo mantissa exponent (below + 1) power
  if hitBelow && (2 * (top % bottom) < bottom || !hitAbove) then some (below, power)
  else if !hitAbove then none
  else if below + 1 = tenTo count then some (1, power + count)
  else some (below + 1, power)

def shortestDecimal (mantissa : Nat) (exponent : Int) (count : Nat) : (more : Nat) → Nat × Int
  | 0 => (decimalOfCount? mantissa exponent count).getD (0, 0)
  | more + 1 =>
    match decimalOfCount? mantissa exponent count with
    | some found => found
    | none => shortestDecimal mantissa exponent (count + 1) more

def positional (digits : Nat) (power : Int) : List Char :=
  let text := Nat.toDigits 10 digits
  if 0 ≤ power then text ++ List.replicate power.toNat '0'
  else
    let places := power.natAbs
    let padded := List.replicate (places + 1 - text.length) '0' ++ text
    padded.take (padded.length - places) ++ ['.'] ++ padded.drop (padded.length - places)

theorem positional_of_nonneg {digits : Nat} {power : Int} (h : 0 ≤ power) :
    positional digits power = Nat.toDigits 10 digits ++ List.replicate power.toNat '0' := by
  simp [positional, h]

def text : Double → String
  | .nan => "NaN"
  | .infinite negative => if negative then "-inf" else "inf"
  | .finite negative mantissa exponent =>
    let sign := if negative then ['-'] else []
    if mantissa = 0 then String.ofList (sign ++ ['0'])
    else
      let found := shortestDecimal mantissa exponent 1 16
      String.ofList (sign ++ positional found.1 found.2)

end Blockmark.Double
