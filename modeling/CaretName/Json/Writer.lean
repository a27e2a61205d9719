import CaretName.Json.Value

/-!
# Writing JSON

A value is written without white space, or over several lines with two spaces for each level.
Only quotes, backslashes and control characters are escaped.
-/
namespace CaretName.Json

/-- A hexadecimal digit. -/
def hexDigit (value : Nat) : Char :=
  if value < 10 then Char.ofNat ('0'.toNat + value) else Char.ofNat ('a'.toNat + (value - 10))

/-- A character inside a string. -/
def escape (char : Char) : List Char :=
  match char with
  | '"' => ['\\', '"']
  | '\\' => ['\\', '\\']
  | '\x08' => ['\\', 'b']
  | '\x0c' => ['\\', 'f']
  | '\n' => ['\\', 'n']
  | '\r' => ['\\', 'r']
  | '\t' => ['\\', 't']
  | char =>
    if char.toNat < 0x20 then
      ['\\', 'u', '0', '0', hexDigit (char.toNat / 16), hexDigit (char.toNat % 16)]
    else [char]

/-- A string in quotes. -/
def quote (text : String) : String :=
  String.ofList ('"' :: text.toList.flatMap escape ++ ['"'])

/-- A decimal number. -/
def writeDecimal (value : Decimal) : String :=
  (if value.negative then "-" else "") ++ toString value.digits ++ "e" ++ toString value.power

mutual

/-- A value without white space. -/
def compact : Json → String
  | null => "null"
  | .bool value => if value then "true" else "false"
  | integer value => toString value
  | real value => writeDecimal value
  | .string value => quote value
  | array values => "[" ++ ",".intercalate (compactAll values) ++ "]"
  | object members => "\x7b" ++ ",".intercalate (compactMembers members) ++ "\x7d"

/-- Several values without white space. -/
def compactAll : List Json → List String
  | [] => []
  | value :: rest => value.compact :: compactAll rest

/-- The members of an object without white space. -/
def compactMembers : List (String × Json) → List String
  | [] => []
  | (name, value) :: rest => (quote name ++ ":" ++ value.compact) :: compactMembers rest

end

/-- The start of a line at a level of nesting. -/
def newLine (level : Nat) : String := "\n" ++ String.ofList (List.replicate (2 * level) ' ')

/-- Items on lines of their own between brackets, which stay together around nothing. -/
def onLines (opening closing : String) (level : Nat) (items : List String) : String :=
  if items.isEmpty then opening ++ closing
  else
    opening ++ ",".intercalate (items.map fun item => newLine (level + 1) ++ item) ++
      newLine level ++ closing

mutual

/-- A value over several lines, at a level of nesting. -/
def prettyAt (level : Nat) : Json → String
  | null => "null"
  | .bool value => if value then "true" else "false"
  | integer value => toString value
  | real value => writeDecimal value
  | .string value => quote value
  | array values => onLines "[" "]" level (prettyAll (level + 1) values)
  | object members => onLines "\x7b" "\x7d" level (prettyMembers (level + 1) members)

/-- Several values over several lines. -/
def prettyAll (level : Nat) : List Json → List String
  | [] => []
  | value :: rest => value.prettyAt level :: prettyAll level rest

/-- The members of an object over several lines. -/
def prettyMembers (level : Nat) : List (String × Json) → List String
  | [] => []
  | (name, value) :: rest => (quote name ++ ": " ++ value.prettyAt level) :: prettyMembers level rest

end

/-- A value over several lines. -/
def pretty (value : Json) : String := value.prettyAt 0

end CaretName.Json
