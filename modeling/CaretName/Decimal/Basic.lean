/-!
# Decimal numbers

A decimal number as it is written: a sign, digits, and the power of ten that they are
multiplied by. Zero has a sign as well.
-/
namespace CaretName

/-- The number `digits * 10 ^ power`, negated if `negative`. -/
structure Decimal where
  negative : Bool
  digits : Nat
  power : Int
  deriving DecidableEq, Repr, Inhabited

/-- The value of a decimal digit. -/
def digitValue (char : Char) : Nat := char.toNat - '0'.toNat

/-- The number that a run of decimal digits stands for, after one read before. -/
def natOfDigits (before : Nat) (chars : List Char) : Nat :=
  chars.foldl (fun value char => 10 * value + digitValue char) before

end CaretName
