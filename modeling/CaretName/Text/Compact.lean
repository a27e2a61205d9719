import CaretName.Text.Blank
import CaretName.Text.Letter

/-!
# Types on one line

A type is shown without the layout it has in its source. White space between two words becomes
one space, every comma is followed by one space, and all other white space is dropped.
-/
namespace CaretName

/-- Whether a space next to the character is kept: letters, digits, and the few signs that
words of a type may begin or end with. -/
def isWordlike (char : Char) : Bool :=
  isLetterOrDigit char || char == '_' || char == '$' || char == '?' || char == '&'

/-- What a character is written as. -/
def spread (char : Char) : List Char := if char == ',' then [',', ' '] else [char]

/-- Compact the characters that follow a last character written, with white space pending
between the two or not. -/
def compactAfter (last : Option Char) (pending : Bool) : List Char → List Char
  | [] => []
  | char :: chars =>
    if isBlank char then compactAfter last true chars
    else
      (if pending && last.any isWordlike && isWordlike char then [' '] else []) ++ spread char ++
        compactAfter (some (if char == ',' then ' ' else char)) false chars

/-- The characters of a type without the layout of its source. -/
def compact (chars : List Char) : List Char := compactAfter none false chars

/-- The text of a type without the layout of its source. -/
def compactType (text : String) : String := String.ofList (compact text.toList)

/-- A text without its white space. -/
def withoutBlanks (text : String) : String :=
  String.ofList (text.toList.filter fun char => !isBlank char)

end CaretName
