import CaretName.Grammar.Token
import CaretName.Text.Identifier

/-!
# Cutting a source into tokens

Tokens are the longest that fit, with one exception: the angle brackets that end nested type
arguments are taken apart again by the grammar. Inside a string the rules are others: a string
is a run of fragments and escapes, and an embedded expression returns to the rules of code
until the brace that opened it is closed.
-/
namespace CaretName

/-- The number of bytes that characters take in UTF-8. -/
def byteCount (chars : List Char) : Nat := chars.foldl (fun count char => count + char.utf8Size) 0

namespace Lexer

/-- White space between tokens. A byte order mark is skipped like it at the very start. -/
def isGap (char : Char) : Bool := (9 ≤ char.toNat && char.toNat ≤ 13) || char == ' '

/-- Operators and punctuation, an operator before every shorter one that it starts with. -/
def marks : List String :=
  ["@interface", ">>>=", "...", ">>=", "<<=", ">>>", "->", "::", "++", "--", "&&", "||", "==",
    "!=", "<=", ">=", "+=", "-=", "*=", "/=", "&=", "|=", "^=", "%=", "<<", ">>", "(", ")",
    "\x7b", "\x7d", "[", "]", ";", ",", ".", "@", "=", ">", "<", "!", "~", "?", ":", "+", "-",
    "*", "/", "&", "|", "^", "%"]

/-- The characters after a text that the list starts with. -/
def dropText? (text : String) (chars : List Char) : Option (List Char) :=
  if text.toList.isPrefixOf chars then some (chars.drop text.length) else none

/-- A lexeme: how a piece of source can be used, its characters, and what follows. -/
structure Lexeme where
  sort : TokenSort
  chars : List Char
  rest : List Char

/-- The first operator or punctuation that the characters start with. -/
def mark? (chars : List Char) : Option Lexeme :=
  marks.findSome? fun text =>
    (dropText? text chars).map fun rest => ⟨.mark, text.toList, rest⟩

/-- Characters that digits of a base consist of; digits may be set apart by underscores. -/
def isDigitOf (base : Nat) (char : Char) : Bool :=
  char == '_' || char.isDigit && char.toNat - '0'.toNat < base ||
    base == 16 && (('a' ≤ char && char ≤ 'f') || ('A' ≤ char && char ≤ 'F'))

/-- An exponent after one of two letters, empty when there is none. -/
def exponent (small large : Char) : List Char → List Char × List Char
  | [] => ([], [])
  | letter :: chars =>
    if letter == small || letter == large then
      let (sign, digits) :=
        match chars with
        | '+' :: rest => (['+'], rest)
        | '-' :: rest => (['-'], rest)
        | _ => ([], chars)
      let (run, rest) := digits.span (isDigitOf 10)
      if run.isEmpty then ([], letter :: chars) else (letter :: sign ++ run, rest)
    else ([], letter :: chars)

/-- One character out of a list, empty when another follows. -/
def oneOf (letters : List Char) : List Char → List Char × List Char
  | [] => ([], [])
  | char :: rest => if letters.contains char then ([char], rest) else ([], char :: rest)

/-- A fraction: the point and the digits after it, empty when no point follows. -/
def fraction (base : Nat) : List Char → List Char × List Char
  | '.' :: chars => let (run, rest) := chars.span (isDigitOf base); ('.' :: run, rest)
  | chars => ([], chars)

/-- A number written in a base after two characters that announce it. -/
def announced (base : Nat) (first second : Char) (chars : List Char) : Lexeme :=
  let (whole, chars) := chars.span (isDigitOf base)
  let (part, chars) := if base == 16 then fraction 16 chars else ([], chars)
  let (power, chars) := if base == 16 then exponent 'p' 'P' chars else ([], chars)
  let real := !part.isEmpty || !power.isEmpty
  let (suffix, rest) := oneOf (if real then ['f', 'F', 'd', 'D'] else ['l', 'L']) chars
  let construct : Construct :=
    if real then .hexFloatingPointLiteral
    else if base == 16 then .hexIntegerLiteral
    else if base == 8 then .octalIntegerLiteral
    else .binaryIntegerLiteral
  ⟨.literal construct, first :: second :: whole ++ part ++ power ++ suffix, rest⟩

/-- A number written in base ten. A zero in front does not announce another base. -/
def plain (chars : List Char) : Lexeme :=
  let (whole, chars) := chars.span (isDigitOf 10)
  let (part, chars) := fraction 10 chars
  let (power, chars) := exponent 'e' 'E' chars
  let (suffix, rest) := oneOf ['f', 'F', 'd', 'D', 'l', 'L'] chars
  let real := !part.isEmpty || !power.isEmpty || suffix.any (['f', 'F', 'd', 'D'].contains ·)
  let construct : Construct :=
    if real then .decimalFloatingPointLiteral else .decimalIntegerLiteral
  ⟨.literal construct, whole ++ part ++ power ++ suffix, rest⟩

/-- A number, if the characters start one. -/
def number? : List Char → Option Lexeme
  | '0' :: letter :: chars =>
    some <|
      if letter == 'x' || letter == 'X' then announced 16 '0' letter chars
      else if letter == 'b' || letter == 'B' then announced 2 '0' letter chars
      else if letter == 'o' || letter == 'O' then announced 8 '0' letter chars
      else plain ('0' :: letter :: chars)
  | '.' :: digit :: chars => if digit.isDigit then some (plain ('.' :: digit :: chars)) else none
  | digit :: chars => if digit.isDigit then some (plain (digit :: chars)) else none
  | [] => none

/-- The rest of a character literal up to its closing quote. -/
def characterTail : List Char → Option (List Char × List Char)
  | '\\' :: escaped :: chars =>
    (characterTail chars).map fun (body, rest) => ('\\' :: escaped :: body, rest)
  | '\'' :: chars => some (['\''], chars)
  | '\n' :: _ => none
  | char :: chars => (characterTail chars).map fun (body, rest) => (char :: body, rest)
  | [] => none

/-- The rest of a block comment up to its end. -/
def blockTail : List Char → Option (List Char × List Char)
  | '*' :: '/' :: chars => some (['*', '/'], chars)
  | char :: chars => (blockTail chars).map fun (body, rest) => (char :: body, rest)
  | [] => none

/-- A comment, if the characters start one that ends. -/
def comment? : List Char → Option Lexeme
  | '/' :: '/' :: chars =>
    let (body, rest) := chars.span (· != '\n')
    some ⟨.literal .lineComment, '/' :: '/' :: body, rest⟩
  | '/' :: '*' :: chars =>
    (blockTail chars).map fun (body, rest) => ⟨.literal .blockComment, '/' :: '*' :: body, rest⟩
  | _ => none

/-- A word, if the characters start one. The one word with a hyphen counts as a mark. -/
def word? (chars : List Char) : Option Lexeme :=
  match chars with
  | [] => none
  | first :: _ =>
    if startsIdentifier first then
      let (body, rest) := chars.span continuesIdentifier
      match dropText? "non-sealed" chars with
      | some after =>
        if (after.head?.map continuesIdentifier).getD false then some ⟨.word, body, rest⟩
        else some ⟨.mark, "non-sealed".toList, after⟩
      | none => some ⟨.word, body, rest⟩
    else none

/-- The next lexeme of code, comments included. -/
def code : List Char → Option Lexeme
  | [] => none
  | char :: chars =>
    comment? (char :: chars) <|> word? (char :: chars) <|> number? (char :: chars) <|>
      (if char == '\'' then
        (characterTail chars).map fun (body, rest) => ⟨.literal .characterLiteral, '\'' :: body, rest⟩
      else none) <|>
      (dropText? "\"\"\"" (char :: chars)).map (fun rest => ⟨.mark, "\"\"\"".toList, rest⟩) <|>
      (if char == '\"' then some ⟨.mark, ['\"'], chars⟩ else none) <|>
      mark? (char :: chars) <|> some ⟨.stray, [char], chars⟩

/-- At most so many characters of a class from the front. -/
def upTo (count : Nat) (holds : Char → Bool) (chars : List Char) : List Char :=
  (chars.take count).takeWhile holds

/-- The characters of an escape after its backslash. -/
def escapeBody (chars : List Char) : List Char :=
  match chars with
  | [] => []
  | 'u' :: '\x7b' :: body =>
    match body.span (isDigitOf 16) with
    | (run, '\x7d' :: _) => if run.isEmpty then ['u'] else 'u' :: '\x7b' :: run ++ ['\x7d']
    | _ => ['u']
  | 'u' :: body =>
    let run := upTo 4 (isDigitOf 16) body
    if run.length == 4 then 'u' :: run else ['u']
  | 'x' :: body =>
    let run := upTo 2 (isDigitOf 16) body
    if run.length == 2 then 'x' :: run else ['x']
  | first :: _ =>
    let run := upTo 3 (isDigitOf 8) chars
    if run.isEmpty then [first] else run

/-- The next lexeme inside a string that is closed by the given quotes. -/
def inString (quotes : String) : List Char → Option Lexeme
  | [] => none
  | char :: chars =>
    (dropText? quotes (char :: chars)).map (fun rest => ⟨.mark, quotes.toList, rest⟩) <|>
      (dropText? "\\\x7b" (char :: chars)).map (fun rest => ⟨.mark, "\\\x7b".toList, rest⟩) <|>
      some (
        if char == '\\' then
          let body := escapeBody chars
          ⟨.literal .escapeSequence, '\\' :: body, chars.drop body.length⟩
        else
          let (body, rest) := chars.span fun next => next != '\"' && next != '\\'
          let construct : Construct :=
            if quotes == "\"" then .stringFragment else .multilineStringFragment
          ⟨.literal construct, char :: body, rest⟩)

/-- The rules in force: those of code, within so many open braces, or those of a string. -/
inductive Mode where
  | code (braces : Nat)
  | string (quotes : String)

/-- The rules in force after a mark. -/
def Mode.after (text : String) : List Mode → List Mode
  | [] => []
  | .string quotes :: outer =>
    if text == quotes then outer
    else if text == "\\\x7b" then .code 0 :: .string quotes :: outer
    else .string quotes :: outer
  | .code braces :: outer =>
    if text == "\"" || text == "\"\"\"" then .string text :: .code braces :: outer
    else if text == "\x7b" then .code (braces + 1) :: outer
    else if text == "\x7d" then
      match braces, outer with
      | 0, next :: others => next :: others
      | _, _ => .code (braces - 1) :: outer
    else .code braces :: outer

/-- The tokens of the characters from a byte on. White space and comments collect until the
token that follows them. -/
def tokens : Nat → List Mode → Nat → Nat → String → List Node → List Char → List Token
  | 0, _, offset, index, gap, before, _ => [⟨.finish, "", offset, gap, before, index⟩]
  | fuel + 1, modes, offset, index, gap, before, chars =>
    let lexeme := match modes with
      | .string quotes :: _ => inString quotes chars
      | _ =>
        let (blank, rest) := chars.span isGap
        if blank.isEmpty then code chars else some ⟨.finish, blank, rest⟩
    match lexeme with
    | none => [⟨.finish, "", offset, gap, before, index⟩]
    | some ⟨sort, piece, rest⟩ =>
      let text := String.ofList piece
      let stop := offset + byteCount piece
      match sort with
      | .finish => tokens fuel modes stop index (gap ++ text) before rest
      | .literal .lineComment | .literal .blockComment =>
        let comment := Node.leaf (.construct (if sort == .literal .lineComment then .lineComment
          else .blockComment)) none ⟨offset, stop⟩ gap text
        tokens fuel modes stop index "" (before ++ [comment]) rest
      | .mark =>
        ⟨sort, text, offset, gap, before, index⟩ ::
          tokens fuel (Mode.after text modes) stop (index + 1) "" [] rest
      | _ =>
        ⟨sort, text, offset, gap, before, index⟩ ::
          tokens fuel modes stop (index + 1) "" [] rest

/-- The tokens of a source, the last of which stands for its end. -/
def tokenize (source : String) : List Token :=
  match source.toList with
  | '\uFEFF' :: chars => tokens (chars.length + 1) [.code 0] 3 0 "\uFEFF" [] chars
  | chars => tokens (chars.length + 1) [.code 0] 0 0 "" [] chars

end Lexer

end CaretName
