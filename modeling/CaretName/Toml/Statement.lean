import CaretName.Toml.Quoted
import CaretName.Toml.Scalar
import CaretName.Toml.Table

/-!
# Statements of a TOML document

A document is a list of statements, each on a line of its own: headers of tables, and names
with their values. A list may go over several lines and hold comments; a table in braces may
not. Lists and such tables may be nested 79 deep, and as many parts may a dotted name have.
-/
namespace CaretName.Toml

/-- One statement. A dotted name is given as its last part and the path before it. -/
inductive Statement where
  | assign (path : List String) (name : String) (value : Setting)
  | header (path : List String) (name : String)
  /-- The header of one of several tables. -/
  | item (path : List String) (name : String)
  deriving Repr

/-- Characters of names that are not quoted. -/
def isNameChar (char : Char) : Bool := char.isAlphanum || char == '_' || char == '-'

/-- How deep values may be nested and how many parts a name may have. -/
def maxDepth : Nat := 79

/-- One part of a name. -/
def simpleName? (chars : List Char) : Option (String × List Char) :=
  match quotedLine? chars with
  | some (name, rest) => some (String.ofList name, rest)
  | none =>
    let name := chars.takeWhile isNameChar
    if name.isEmpty then none else some (String.ofList name, chars.drop name.length)

/-- The parts of a dotted name, with blanks around each, and what follows them. -/
def dottedName? : Nat → List Char → Option (List String × List Char)
  | 0, _ => none
  | fuel + 1, chars => do
    let (part, rest) ← simpleName? (skipBlanks chars)
    match skipBlanks rest with
    | '.' :: rest =>
      let (parts, rest) ← dottedName? fuel rest
      some (part :: parts, rest)
    | rest => some ([part], rest)

/-- A dotted name as the path before its last part and this. -/
def name? (chars : List Char) : Option (List String × String × List Char) := do
  let (parts, rest) ← dottedName? maxDepth chars
  some (parts.dropLast, ← parts.getLast?, rest)

/-- What follows a comment, if the characters start with one. A comment must end well. -/
def afterComment? : List Char → Option (List Char)
  | '#' :: rest =>
    let rest := rest.dropWhile isPlain
    if rest.isEmpty || (newline? rest).isSome then some rest else none
  | chars => some chars

/-- What follows blanks, newlines and comments. -/
def skipGap? : Nat → List Char → Option (List Char)
  | 0, _ => none
  | fuel + 1, chars =>
    match skipLines chars with
    | '#' :: rest => (afterComment? ('#' :: rest)).bind (skipGap? fuel)
    | rest => some rest

/-- As many steps as the characters can take. -/
def steps (chars : List Char) : Nat := 2 * (chars.length + 1)

mutual

/-- A value, with so many levels of nesting left. The fuel bounds the number of steps. -/
def value? : Nat → Nat → List Char → Option (Setting × List Char)
  | 0, _, _ => none
  | fuel + 1, depth, chars =>
    match chars with
    | '[' :: rest =>
      match depth with
      | 0 => none
      | depth + 1 => (items? fuel depth rest).map fun (items, rest) => (.list items, rest)
    | '\x7b' :: rest =>
      match depth with
      | 0 => none
      | depth + 1 =>
        match skipBlanks rest with
        | '\x7d' :: rest => some (.table [], rest)
        | rest =>
          (pairs? fuel depth [] rest).map fun (members, rest) => (.table (settings members), rest)
    | '"' :: _ => (quoted? chars).map fun (body, rest) => (.string (String.ofList body), rest)
    | '\'' :: _ => (quoted? chars).map fun (body, rest) => (.string (String.ofList body), rest)
    | _ =>
      let (word, rest) := word chars
      (scalar? word).map fun value => (value, rest)

/-- The values of a list up to its closing bracket. A comma may stand after the last one. -/
def items? : Nat → Nat → List Char → Option (List Setting × List Char)
  | 0, _, _ => none
  | fuel + 1, depth, chars => do
    match ← skipGap? (steps chars) chars with
    | ']' :: rest => some ([], rest)
    | chars =>
      let (value, rest) ← value? fuel depth chars
      match ← skipGap? (steps rest) rest with
      | ']' :: rest => some ([value], rest)
      | ',' :: rest =>
        let (values, rest) ← items? fuel depth rest
        some (value :: values, rest)
      | _ => none

/-- The members of a table in braces up to the closing one, after those read before. -/
def pairs? : Nat → Nat → Members → List Char → Option (Members × List Char)
  | 0, _, _, _ => none
  | fuel + 1, depth, members, chars => do
    let (path, name, rest) ← name? chars
    match rest with
    | '=' :: rest =>
      let (value, rest) ← value? fuel depth (skipBlanks rest)
      let members ← members.assign? path name value
      match skipBlanks rest with
      | '\x7d' :: rest => some (members, rest)
      | ',' :: rest => pairs? fuel depth members rest
      | _ => none
    | _ => none

end

/-- What follows the end of a line, which blanks and a comment may come before. -/
def afterLine? (chars : List Char) : Option (List Char) := do
  let rest ← afterComment? (skipBlanks chars)
  if rest.isEmpty then some [] else newline? rest

/-- One statement and what follows it on its line. -/
def statement? : List Char → Option (Statement × List Char)
  | '[' :: '[' :: chars => do
    let (path, name, rest) ← name? chars
    match rest with
    | ']' :: ']' :: rest => some (.item path name, rest)
    | _ => none
  | '[' :: chars => do
    let (path, name, rest) ← name? chars
    match rest with
    | ']' :: rest => some (.header path name, rest)
    | _ => none
  | chars => do
    let (path, name, rest) ← name? chars
    match rest with
    | '=' :: rest =>
      let chars := skipBlanks rest
      let (value, rest) ← value? (steps chars) maxDepth chars
      some (.assign path name value, rest)
    | _ => none

/-- All statements. The fuel bounds the number of lines. -/
def statements? : Nat → List Char → Option (List Statement)
  | 0, _ => none
  | fuel + 1, chars => do
    match ← skipGap? (steps chars) chars with
    | [] => some []
    | chars =>
      let (statement, rest) ← statement? chars
      let more ← statements? fuel (← afterLine? rest)
      some (statement :: more)

/-- The statements of a document. It may start with a mark of its byte order. -/
def read? (text : String) : Option (List Statement) :=
  match text.toList with
  | '\ufeff' :: chars => statements? (chars.length + 1) chars
  | chars => statements? (chars.length + 1) chars

end CaretName.Toml
