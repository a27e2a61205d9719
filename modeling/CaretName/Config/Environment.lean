import CaretName.Config.Setting

/-!
# Settings in the environment

A variable whose name starts with `COPYQN_` in any case is a setting. The rest of its name is the
path of the setting, with two underscores or a point between two names. Its text is taken for a
truth value or a number where it looks like one. The command is else taken apart at its spaces.
-/
namespace CaretName

/-- The environment of a program: the names of variables with their texts. -/
abbrev Environment := List (String × String)

namespace Environment

/-- How the names of settings start, in lower case. -/
def mark : List Char := "copyqn_".toList

/-- A name with a point for every two underscores. -/
def withPoints : List Char → List Char
  | '_' :: '_' :: rest => '.' :: withPoints rest
  | char :: rest => char :: withPoints rest
  | [] => []

/-- The name of the setting that a variable is, if it is one. -/
def settingName? (label : String) : Option String :=
  let name := label.toLower.toList
  if mark.isPrefixOf name then some (String.ofList (withPoints (name.drop mark.length))) else none

/-- Characters that the names on a path are made of. -/
def isNameChar (char : Char) : Bool :=
  char.isAlphanum || char == '_' || char == '-' || char == ' '

/-- The path that a name stands for. What is no path is a name on its own. -/
def pathOf (name : String) : List String :=
  let names := name.splitOn "."
  if names.all fun name => !name.isEmpty && name.all isNameChar then names else [name]

/-- The number that digits after an optional sign stand for. -/
def signed? (chars : List Char) : Option Int :=
  let (negative, digits) := match chars with
    | '-' :: rest => (true, rest)
    | '+' :: rest => (false, rest)
    | _ => (false, chars)
  if digits.isEmpty || !digits.all Char.isDigit then none
  else
    let value : Int := natOfDigits 0 digits
    some (if negative then -value else value)

/-- The integer that a text stands for, if it fits into 64 bits. -/
def integer? (chars : List Char) : Option Int := (signed? chars).filter Setting.isWhole

/-- The number that a text without a sign stands for: digits with a point among, before or
after them, and an exponent if there is one. -/
def magnitude? (negative : Bool) (chars : List Char) : Option Binary64 :=
  let word := (String.ofList chars).toLower
  if word == "inf" || word == "infinity" then some (.infinite negative)
  else if word == "nan" then some .nan
  else
    let whole := chars.takeWhile Char.isDigit
    let afterWhole := chars.drop whole.length
    let (part, rest) := match afterWhole with
      | '.' :: rest => (rest.takeWhile Char.isDigit, rest.dropWhile Char.isDigit)
      | _ => ([], afterWhole)
    if whole.isEmpty && part.isEmpty then none
    else
      let exponent? := match rest with
        | [] => some 0
        | 'e' :: rest => signed? rest
        | 'E' :: rest => signed? rest
        | _ => none
      exponent?.map fun exponent => Binary64.ofDecimal
        ⟨negative, natOfDigits (natOfDigits 0 whole) part, exponent - part.length⟩

/-- The number with a fraction that a text stands for. -/
def real? : List Char → Option Binary64
  | '-' :: rest => magnitude? true rest
  | '+' :: rest => magnitude? false rest
  | chars => magnitude? false chars

/-- The setting that is a list of words. -/
def listName : String := "clipboard.command"

/-- The value of a setting with a name. -/
def value (name text : String) : Setting :=
  if text.toLower == "true" then .bool true
  else if text.toLower == "false" then .bool false
  else match integer? text.toList with
    | some value => .integer value
    | none =>
      match real? text.toList with
      | some value => .real value
      | none =>
        if name == listName then .list ((text.splitOn " ").map .string) else .string text

/-- The settings of an environment: paths with values. -/
def settings (environment : Environment) : List (List String × Setting) :=
  environment.filterMap fun (label, text) =>
    (settingName? label).map fun name => (pathOf name, value name text)

end Environment

end CaretName
