import CaretName.Json.Reader

/-!
# Quoted text in TOML

Text stands between double quotes, with escapes, or between single quotes, as it is. Three
quotes on either side admit newlines, and up to two quotes more right before the closing ones.
A backslash at the end of a line joins it with the next text, whatever blank lines stand
between.
-/
namespace CaretName.Toml

/-- Blanks within a line. -/
def isBlank (char : Char) : Bool := char == ' ' || char == '\t'

/-- Characters that may stand in quoted text and in comments: all but control characters. -/
def isPlain (char : Char) : Bool := char == '\t' || ' ' ≤ char && char != '\x7f'

/-- What follows a newline that the characters start with. -/
def newline? : List Char → Option (List Char)
  | '\n' :: rest => some rest
  | '\r' :: '\n' :: rest => some rest
  | _ => none

/-- The characters after blanks. -/
def skipBlanks (chars : List Char) : List Char := chars.dropWhile isBlank

/-- The characters after blanks and newlines. -/
def skipLines : List Char → List Char
  | '\n' :: rest => skipLines rest
  | '\r' :: '\n' :: rest => skipLines rest
  | char :: rest => if isBlank char then skipLines rest else char :: rest
  | [] => []

/-- The number that so many hexadecimal digits stand for, and what follows them. -/
def hex? : Nat → Nat → List Char → Option (Nat × List Char)
  | 0, value, chars => some (value, chars)
  | _ + 1, _, [] => none
  | count + 1, value, char :: rest => do hex? count (16 * value + (← Json.hexDigit? char)) rest

/-- The character that an escape by number stands for. -/
def numbered? (count : Nat) (chars : List Char) : Option (Char × List Char) := do
  let (value, rest) ← hex? count 0 chars
  if value.isValidChar then some (Char.ofNat value, rest) else none

/-- The character that an escape stands for, after its backslash. -/
def escape? : List Char → Option (Char × List Char)
  | 'u' :: rest => numbered? 4 rest
  | 'U' :: rest => numbered? 8 rest
  | '/' :: _ => none
  | letter :: rest => (Json.shortEscape? letter).map fun char => (char, rest)
  | [] => none

/-- Text between double quotes on one line, up to the closing one. -/
def basicTail? : Nat → List Char → Option (List Char × List Char)
  | 0, _ => none
  | _, [] => none
  | _, '"' :: rest => some ([], rest)
  | fuel + 1, '\\' :: chars => do
    let (char, rest) ← escape? chars
    let (body, rest) ← basicTail? fuel rest
    some (char :: body, rest)
  | fuel + 1, char :: chars =>
    if isPlain char then (basicTail? fuel chars).map fun (body, rest) => (char :: body, rest)
    else none

/-- Text between single quotes on one line, up to the closing one. -/
def literalTail? : List Char → Option (List Char × List Char)
  | [] => none
  | '\'' :: rest => some ([], rest)
  | char :: chars =>
    if isPlain char then (literalTail? chars).map fun (body, rest) => (char :: body, rest)
    else none

/-- What a run of at least three quotes stands for: up to two of them are text, and the last
three close it. -/
def closing? (quotes : List Char) (rest : List Char) : Option (List Char × List Char) :=
  if quotes.length ≤ 5 then some (quotes.drop 3, rest) else none

/-- Text over several lines, up to the closing quotes. -/
def linesTail? (quote : Char) (escapes : Bool) : Nat → List Char → Option (List Char × List Char)
  | 0, _ => none
  | _, [] => none
  | fuel + 1, char :: chars =>
    if char == quote then
      let more := chars.takeWhile (· == quote)
      let rest := chars.drop more.length
      if 2 ≤ more.length then closing? (char :: more) rest
      else
        (linesTail? quote escapes fuel rest).map fun (body, rest) => (char :: more ++ body, rest)
    else if char == '\\' && escapes then
      match newline? (skipBlanks chars) with
      | some rest => linesTail? quote escapes fuel (skipLines rest)
      | none => do
        let (char, rest) ← escape? chars
        let (body, rest) ← linesTail? quote escapes fuel rest
        some (char :: body, rest)
    else
      match newline? (char :: chars) with
      | some rest =>
        (linesTail? quote escapes fuel rest).map fun (body, rest) => ('\n' :: body, rest)
      | none =>
        if isPlain char then
          (linesTail? quote escapes fuel chars).map fun (body, rest) => (char :: body, rest)
        else none

/-- Text over several lines, without a newline right after the opening quotes. -/
def lines? (quote : Char) (escapes : Bool) (chars : List Char) : Option (List Char × List Char) :=
  linesTail? quote escapes (chars.length + 1) ((newline? chars).getD chars)

/-- Quoted text on one line. -/
def quotedLine? : List Char → Option (List Char × List Char)
  | '"' :: rest => basicTail? (rest.length + 1) rest
  | '\'' :: rest => literalTail? rest
  | _ => none

/-- Quoted text on one line or several. -/
def quoted? : List Char → Option (List Char × List Char)
  | '"' :: '"' :: '"' :: rest => lines? '"' true rest
  | '\'' :: '\'' :: '\'' :: rest => lines? '\'' false rest
  | chars => quotedLine? chars

end CaretName.Toml
