import CaretName.Decimal.Binary64
import CaretName.Json.Value

/-!
# Settings

What a configuration file or a variable of the environment says before it is checked: a tree of
tables, lists and single values. One tree is laid over another member by member, so a setting
that the upper one does not mention keeps its value.
-/
namespace CaretName

/-- A setting. -/
inductive Setting where
  | null
  | bool (value : Bool)
  | integer (value : Int)
  | real (value : Binary64)
  | string (value : String)
  /-- A date, a time of day or both, in their usual notation. -/
  | moment (text : String)
  | list (items : List Setting)
  /-- Names with their settings, each name once. -/
  | table (members : List (String × Setting))
  deriving Repr, Inhabited

namespace Setting

/-- The members of a table, and none of anything else. -/
def members : Setting → List (String × Setting)
  | table members => members
  | _ => []

/-- The member with a name. -/
def member? (name : String) (setting : Setting) : Option Setting := setting.members.lookup name

/-- Members with one of them set. -/
def put (name : String) (value : Setting) : List (String × Setting) → List (String × Setting)
  | [] => [(name, value)]
  | (other, old) :: rest =>
    if other == name then (name, value) :: rest else (other, old) :: put name value rest

/-- A setting with a member set. What is no table becomes one. -/
def withMember (setting : Setting) (name : String) (value : Setting) : Setting :=
  table (put name value setting.members)

mutual

/-- A setting in the place of another. A table adds its members to the other one, and anything
else takes its place. -/
def laidOver : Setting → Option Setting → Setting
  | table members, below => overAll members (below.getD (table []))
  | null, _ => null
  | bool value, _ => bool value
  | integer value, _ => integer value
  | real value, _ => real value
  | string value, _ => string value
  | moment text, _ => moment text
  | list items, _ => list items

/-- Members laid over a setting one after the other. -/
def overAll : List (String × Setting) → Setting → Setting
  | [], below => below
  | (name, value) :: rest, below =>
    overAll rest (below.withMember name (value.laidOver (below.member? name)))

end

/-- A setting laid over the one at a path of names, where tables are made as they are needed. -/
def overAt (value : Setting) : List String → Option Setting → Setting
  | [], below => value.laidOver below
  | name :: path, below =>
    let table := below.getD (table [])
    table.withMember name (value.overAt path (table.member? name))

/-- Whether an integer is small enough to be kept as one: it fits into 64 bits with its sign. -/
def isWhole (value : Int) : Bool := -0x8000000000000000 ≤ value && value < 0x8000000000000000

/-- An integer, which is held with a fraction where it is too great. -/
def ofInt (value : Int) : Setting :=
  if isWhole value then integer value
  else real (Binary64.ofDecimal ⟨value < 0, value.natAbs, 0⟩)

mutual

/-- The setting that a JSON value says. -/
def ofJson : Json → Setting
  | .null => null
  | .bool value => bool value
  | .integer value => ofInt value
  | .real value => real (Binary64.ofDecimal value)
  | .string value => string value
  | .array values => list (ofJsonAll values)
  | .object members => table (ofMembers members [])

/-- The settings that several JSON values say. -/
def ofJsonAll : List Json → List Setting
  | [] => []
  | value :: rest => ofJson value :: ofJsonAll rest

/-- The members of a table after those read before. Of several with one name the last counts. -/
def ofMembers : List (String × Json) → List (String × Setting) → List (String × Setting)
  | [], before => before
  | (name, value) :: rest, before => ofMembers rest (put name (ofJson value) before)

end

end Setting

end CaretName
