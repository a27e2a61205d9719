import CaretName.Decimal.Binary64
import CaretName.Json.Value

/-!
# Reading JSON

The grammar is the strict one: no comments, no trailing commas, no leading zeros, and escapes
of surrogates only in pairs. Arrays and objects may be nested 127 deep, and numbers must be
small enough to be held in 64 bits.
-/
namespace CaretName.Json

/-- White space between tokens. -/
def isSpace (char : Char) : Bool :=
  char == ' ' || char == '\n' || char == '\t' || char == '\r'

/-- The characters after white space. -/
def skipSpace (chars : List Char) : List Char := chars.dropWhile isSpace

/-- The value of a hexadecimal digit. -/
def hexDigit? (char : Char) : Option Nat :=
  if char.isDigit then some (char.toNat - '0'.toNat)
  else if 'a' ≤ char && char ≤ 'f' then some (char.toNat - 'a'.toNat + 10)
  else if 'A' ≤ char && char ≤ 'F' then some (char.toNat - 'A'.toNat + 10)
  else none

/-- Four hexadecimal digits and what follows them. -/
def hex4? : List Char → Option (Nat × List Char)
  | a :: b :: c :: d :: rest => do
    some (((← hexDigit? a) * 4096 + (← hexDigit? b) * 256 + (← hexDigit? c) * 16 +
      (← hexDigit? d)), rest)
  | _ => none

/-- The character that an escape by number stands for. Numbers of surrogates count in pairs. -/
def unicodeEscape? (chars : List Char) : Option (Char × List Char) := do
  let (first, rest) ← hex4? chars
  if 0xD800 ≤ first && first < 0xDC00 then
    match rest with
    | '\\' :: 'u' :: rest =>
      let (second, rest) ← hex4? rest
      if 0xDC00 ≤ second && second < 0xE000 then
        some (Char.ofNat (0x10000 + (first - 0xD800) * 1024 + (second - 0xDC00)), rest)
      else none
    | _ => none
  else if 0xDC00 ≤ first && first < 0xE000 then none
  else some (Char.ofNat first, rest)

/-- The character that an escape of one letter stands for. -/
def shortEscape? : Char → Option Char
  | '"' => some '"'
  | '\\' => some '\\'
  | '/' => some '/'
  | 'b' => some '\x08'
  | 'f' => some '\x0c'
  | 'n' => some '\n'
  | 'r' => some '\r'
  | 't' => some '\t'
  | _ => none

/-- The characters of a string up to its closing quote, and what follows it. -/
def stringTail? : Nat → List Char → Option (List Char × List Char)
  | 0, _ => none
  | _, [] => none
  | _, '"' :: rest => some ([], rest)
  | fuel + 1, '\\' :: 'u' :: chars => do
    let (char, rest) ← unicodeEscape? chars
    let (body, rest) ← stringTail? fuel rest
    some (char :: body, rest)
  | fuel + 1, '\\' :: letter :: chars => do
    let char ← shortEscape? letter
    let (body, rest) ← stringTail? fuel chars
    some (char :: body, rest)
  | fuel + 1, char :: chars =>
    if char == '\\' || char.toNat < 0x20 then none
    else (stringTail? fuel chars).map fun (body, rest) => (char :: body, rest)

/-- The digits before the point of a number: one zero, or digits that do not start with one. -/
def wholePart? : List Char → Option (List Char × List Char)
  | '0' :: rest =>
    if rest.head?.any Char.isDigit then none else some (['0'], rest)
  | chars =>
    let (digits, rest) := chars.span Char.isDigit
    if digits.isEmpty then none else some (digits, rest)

/-- The digits after the point of a number, none where there is no point. -/
def fractionPart? : List Char → Option (List Char × List Char)
  | '.' :: chars =>
    let (digits, rest) := chars.span Char.isDigit
    if digits.isEmpty then none else some (digits, rest)
  | chars => some ([], chars)

/-- The exponent of a number, zero where there is none, and whether there is one. -/
def exponentPart? : List Char → Option (Int × Bool × List Char)
  | letter :: chars =>
    if letter == 'e' || letter == 'E' then
      let (negative, chars) := match chars with
        | '+' :: rest => (false, rest)
        | '-' :: rest => (true, rest)
        | _ => (false, chars)
      let (digits, rest) := chars.span Char.isDigit
      if digits.isEmpty then none
      else
        let value : Int := natOfDigits 0 digits
        some (if negative then -value else value, true, rest)
    else some (0, false, letter :: chars)
  | [] => some (0, false, [])

/-- A number. -/
def number? (chars : List Char) : Option (Json × List Char) := do
  let (negative, chars) := match chars with
    | '-' :: rest => (true, rest)
    | _ => (false, chars)
  let (whole, chars) ← wholePart? chars
  let (part, chars) ← fractionPart? chars
  let (exponent, scaled, rest) ← exponentPart? chars
  let value := natOfDigits (natOfDigits 0 whole) part
  let decimal : Decimal := ⟨negative, value, exponent - part.length⟩
  if (scaled || maxCount < value) && !(Binary64.ofDecimal decimal).isFinite then none
  else if part.isEmpty && !scaled && !(negative && value == 0) then
    some (.integer (if negative then -(value : Int) else value), rest)
  else some (.real decimal, rest)

/-- What follows a word that the characters start with. -/
def afterWord? (word : String) (chars : List Char) : Option (List Char) :=
  if word.toList.isPrefixOf chars then some (chars.drop word.length) else none

/-- How deep arrays and objects may be nested. -/
def maxDepth : Nat := 127

mutual

/-- A value, with so many levels of nesting left. The fuel bounds the number of steps. -/
def value? : Nat → Nat → List Char → Option (Json × List Char)
  | 0, _, _ => none
  | fuel + 1, depth, chars =>
    match skipSpace chars with
    | [] => none
    | '"' :: rest =>
      (stringTail? (rest.length + 1) rest).map fun (body, rest) =>
        (.string (String.ofList body), rest)
    | '[' :: rest =>
      match depth with
      | 0 => none
      | depth + 1 =>
        match skipSpace rest with
        | ']' :: rest => some (.array [], rest)
        | rest => (items? fuel depth rest).map fun (values, rest) => (.array values, rest)
    | '\x7b' :: rest =>
      match depth with
      | 0 => none
      | depth + 1 =>
        match skipSpace rest with
        | '\x7d' :: rest => some (.object [], rest)
        | rest => (members? fuel depth rest).map fun (members, rest) => (.object members, rest)
    | char :: rest =>
      ((afterWord? "null" (char :: rest)).map fun rest => (.null, rest)) <|>
        ((afterWord? "true" (char :: rest)).map fun rest => (.bool true, rest)) <|>
        ((afterWord? "false" (char :: rest)).map fun rest => (.bool false, rest)) <|>
        number? (char :: rest)

/-- The values of an array up to its closing bracket. -/
def items? : Nat → Nat → List Char → Option (List Json × List Char)
  | 0, _, _ => none
  | fuel + 1, depth, chars =>
    match value? fuel depth chars with
    | none => none
    | some (value, rest) =>
      match skipSpace rest with
      | ']' :: rest => some ([value], rest)
      | ',' :: rest => (items? fuel depth rest).map fun (values, rest) => (value :: values, rest)
      | _ => none

/-- The members of an object up to its closing brace. -/
def members? : Nat → Nat → List Char → Option (List (String × Json) × List Char)
  | 0, _, _ => none
  | fuel + 1, depth, chars =>
    match skipSpace chars with
    | '"' :: rest =>
      match stringTail? (rest.length + 1) rest with
      | none => none
      | some (name, rest) =>
        match skipSpace rest with
        | ':' :: rest =>
          match value? fuel depth rest with
          | none => none
          | some (value, rest) =>
            match skipSpace rest with
            | '\x7d' :: rest => some ([(String.ofList name, value)], rest)
            | ',' :: rest =>
              (members? fuel depth rest).map fun (members, rest) =>
                ((String.ofList name, value) :: members, rest)
            | _ => none
        | _ => none
    | _ => none

end

/-- The value that a text stands for. -/
def read? (text : String) : Option Json :=
  let chars := text.toList
  match value? (2 * (chars.length + 1)) maxDepth chars with
  | some (value, rest) => if (skipSpace rest).isEmpty then some value else none
  | none => none

end CaretName.Json
