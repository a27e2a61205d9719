import CaretName.Failure
import CaretName.Grammar.Lexer

/-!
# Carets

Editors count characters, from the start of the file or within a line, while trees count bytes.
A caret may stand just past the last character of a line or of the file and nowhere beyond.
The carriage returns at the end of a line do not belong to it.
-/
namespace CaretName

/-- A position between two characters of a source. -/
inductive Caret where
  /-- Characters from the start of the file, counted from zero. -/
  | offset (count : Nat)
  /-- A line and a column, both counted from one. -/
  | lineColumn (line column : Nat)
  deriving DecidableEq, Repr

/-- Why a caret is at no position of a source. -/
inductive CaretError where
  /-- The source has only so many characters. -/
  | offsetPastEnd (offset length : Nat)
  /-- Lines and columns are counted from one. -/
  | zeroBased
  | linePastEnd (line : Nat)
  | columnPastEnd (column line : Nat)
  deriving DecidableEq, Repr

namespace CaretError

/-- What is said about a caret at no position. -/
def message : CaretError → String
  | offsetPastEnd offset length =>
    "offset " ++ toString offset ++ " is past the end of the file (" ++ toString length ++
      " characters)"
  | zeroBased => "line and column are 1-based"
  | linePastEnd line => "line " ++ toString line ++ " is past the end of the file"
  | columnPastEnd column line =>
    "column " ++ toString column ++ " is past the end of line " ++ toString line

/-- The failure that a caret at no position is. -/
def toFailure (error : CaretError) : Failure := .invalidInput error.message

end CaretError

/-- The number of bytes that the first characters of a text take, if it has that many. -/
def bytesOfFirst? (count : Nat) (chars : List Char) : Option Nat :=
  if count ≤ chars.length then some (byteCount (chars.take count)) else none

/-- The bytes before a line and the characters from its start on. Lines are counted from zero
here, and end after each newline. -/
def fromLine? : Nat → List Char → Option (Nat × List Char)
  | 0, chars => some (0, chars)
  | _ + 1, [] => none
  | line + 1, char :: chars =>
    (fromLine? (if char == '\n' then line else line + 1) chars).map fun (before, rest) =>
      (char.utf8Size + before, rest)

/-- The characters of the first line, without the carriage returns at its end. -/
def lineText (chars : List Char) : List Char :=
  ((chars.takeWhile (· != '\n')).reverse.dropWhile (· == '\r')).reverse

namespace Caret

/-- The byte of a source at which a caret stands. -/
def byte (source : List Char) : Caret → Except CaretError Nat
  | offset count =>
    match bytesOfFirst? count source with
    | some byte => .ok byte
    | none => .error (.offsetPastEnd count source.length)
  | lineColumn line column =>
    if line == 0 || column == 0 then .error .zeroBased
    else match fromLine? (line - 1) source with
      | none => .error (.linePastEnd line)
      | some (before, rest) =>
        match bytesOfFirst? (column - 1) (lineText rest) with
        | some within => .ok (before + within)
        | none => .error (.columnPastEnd column line)

end Caret

end CaretName
