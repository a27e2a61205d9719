import CaretName.Decimal.Basic

/-!
# Numbers of 64 bits

A decimal number is held as the nearest one of 53 binary digits, and of two that are equally
near as the even one. It is shown with the fewest decimal digits that are held as the same
number, and of several such as the nearest, always without an exponent. All steps compare
natural numbers, so nothing is rounded but once.
-/
namespace CaretName

/-- A number with a binary exponent: `mantissa * 2 ^ power`, measured in units of `2 ^ -1074`. -/
inductive Binary64 where
  | finite (negative : Bool) (mantissa power : Nat)
  | infinite (negative : Bool)
  | nan
  deriving DecidableEq, Repr, Inhabited

namespace Binary64

/-- The units in one. -/
def one : Nat := Nat.pow 2 1074

/-- The mantissas of numbers that are not too small. -/
def leastMantissa : Nat := Nat.pow 2 52

/-- The greatest power of a finite number. -/
def maxPower : Nat := 2045

/-- The quotient rounded to the nearest natural number, and half way to the even one. -/
def nearest (numerator denominator : Nat) : Nat :=
  let quotient := numerator / denominator
  let twice := 2 * (numerator % denominator)
  if denominator < twice || denominator == twice && quotient % 2 == 1 then quotient + 1
  else quotient

/-- The number nearest to a fraction of units. -/
def ofUnits (negative : Bool) (numerator denominator : Nat) : Binary64 :=
  let power := (numerator / denominator).log2 - 52
  let mantissa := nearest numerator (denominator * Nat.pow 2 power)
  let (mantissa, power) :=
    if mantissa == 2 * leastMantissa then (leastMantissa, power + 1) else (mantissa, power)
  if maxPower < power then infinite negative else finite negative mantissa power

/-- How many decimal digits a natural number has. -/
def digitCount (value : Nat) : Nat := (Nat.toDigits 10 value).length

/-- The number nearest to a decimal one. Far too large and far too small ones are told by their
first digit. -/
def ofDecimal (decimal : Decimal) : Binary64 :=
  let magnitude := (digitCount decimal.digits : Int) + decimal.power
  if decimal.digits == 0 || magnitude < -400 then finite decimal.negative 0 0
  else if 400 < magnitude then infinite decimal.negative
  else
    ofUnits decimal.negative (decimal.digits * Nat.pow 10 decimal.power.toNat * one)
      (Nat.pow 10 (-decimal.power).toNat)

/-- Whether the number is neither infinite nor undefined. -/
def isFinite : Binary64 → Bool
  | finite _ _ _ => true
  | _ => false

/-- Whether the number is zero, of either sign. -/
def isZero : Binary64 → Bool
  | finite _ mantissa _ => mantissa == 0
  | _ => false

/-- The power of ten of the first digit of a number that is not zero. -/
def firstDigit (mantissa power : Nat) : Int :=
  (digitCount (mantissa * Nat.pow 2 power * Nat.pow 10 400 / one) : Int) - 401

/-- The multiple of a power of ten that is held as the given number, if there is one: the
nearest, and of two equally near the greater. -/
def onGrid? (mantissa power : Nat) (grid : Int) : Option Nat :=
  let scale := Nat.pow 10 (-grid).toNat
  let value := mantissa * Nat.pow 2 power * scale
  let step := one * Nat.pow 10 grid.toNat
  let gap := Nat.pow 2 power * scale
  let gapBelow := if mantissa == leastMantissa && power != 0 then gap / 2 else gap
  let least := value / step
  let below := 2 * (value - least * step)
  let above := 2 * ((least + 1) * step - value)
  let reaches := fun distance bound => distance < bound || distance == bound && mantissa % 2 == 0
  match reaches below gapBelow, reaches above gap with
  | true, true => some (if above ≤ below then least + 1 else least)
  | true, false => some least
  | false, true => some (least + 1)
  | false, false => none

/-- The fewest digits of a number that is not zero, and the power of ten of the last one.
Seventeen digits always suffice. A zero at the end stands where the digits were all nines. -/
def shortest (mantissa power : Nat) : Nat × Int :=
  let first := firstDigit mantissa power
  ((List.range 17).findSome? fun (count : Nat) =>
    let grid := first - count
    (onGrid? mantissa power grid).map fun digits =>
      if digits % 10 == 0 then (digits / 10, grid + 1) else (digits, grid)).getD (0, 0)

/-- A decimal number without an exponent. -/
def positional (digits : Nat) (power : Int) : String :=
  let text := Nat.toDigits 10 digits
  if 0 ≤ power then String.ofList (text ++ List.replicate power.toNat '0')
  else
    let places := (-power).toNat
    let padded := List.replicate (places + 1 - text.length) '0' ++ text
    let (whole, part) := padded.splitAt (padded.length - places)
    String.ofList (whole ++ '.' :: part)

/-- The text of a number. -/
def text : Binary64 → String
  | finite negative mantissa power =>
    (if negative then "-" else "") ++
      if mantissa == 0 then "0"
      else
        let (digits, power) := shortest mantissa power
        positional digits power
  | infinite negative => if negative then "-inf" else "inf"
  | nan => "NaN"

end Binary64

end CaretName
