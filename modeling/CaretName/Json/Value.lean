import CaretName.Decimal.Basic

/-!
# JSON values

A number keeps whether it is written as an integer, because a count cannot be given as a
fraction or with an exponent. The members of an object keep their order.
-/
namespace CaretName

/-- A JSON value. -/
inductive Json where
  | null
  | bool (value : Bool)
  | integer (value : Int)
  /-- A number with a fraction or an exponent, or a negative zero. -/
  | real (value : Decimal)
  | string (value : String)
  | array (values : List Json)
  | object (members : List (String × Json))
  deriving Repr, Inhabited

namespace Json

/-- The member of an object with a name. Of several the last one counts. -/
def member? (name : String) : Json → Option Json
  | object members => (members.reverse.find? (·.1 == name)).map (·.2)
  | _ => none

/-- The text of a string. -/
def string? : Json → Option String
  | .string value => some value
  | _ => none

/-- A truth value. -/
def bool? : Json → Option Bool
  | .bool value => some value
  | _ => none

/-- The greatest count that is told apart from a fraction. -/
def maxCount : Nat := 0xFFFFFFFFFFFFFFFF

/-- An integer that is not negative and fits into 64 bits. -/
def count? : Json → Option Nat
  | integer (.ofNat value) => if value ≤ maxCount then some value else none
  | _ => none

/-- The values of an array. -/
def array? : Json → Option (List Json)
  | array values => some values
  | _ => none

/-- A value, or null where there is none. -/
def ofOption : Option Json → Json
  | some value => value
  | none => null

end Json

end CaretName
