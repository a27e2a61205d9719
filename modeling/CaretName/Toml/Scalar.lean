import CaretName.Config.Setting
import CaretName.Json.Reader

/-!
# Single values in TOML

Truth values, integers, numbers with a fraction, dates and times, each written without blanks
but for a date with a time, which a space may part. A date or a time is shown in its usual
notation: with a capital T and Z, and a fraction of at most nine digits that does not end in
zeros.
-/
namespace CaretName.Toml

/-- Digits with single underscores between them, without these. The flag tells whether a digit
came before. -/
def digitsAfter? (isDigit : Char → Bool) : Bool → List Char → Option (List Char)
  | after, [] => if after then some [] else none
  | after, char :: rest =>
    if isDigit char then (digitsAfter? isDigit true rest).map (char :: ·)
    else if char == '_' && after then digitsAfter? isDigit false rest
    else none

/-- One digit or more with single underscores between them. -/
def digits? (isDigit : Char → Bool) (chars : List Char) : Option (List Char) :=
  digitsAfter? isDigit false chars

/-- The digits before the point of a number, which start with a zero only if it stands alone. -/
def whole? (chars : List Char) : Option (List Char) := do
  let digits ← digits? Char.isDigit chars
  if digits.head? == some '0' && digits.length != 1 then none else some digits

/-- Whether a number has a minus sign, and the number without its sign. -/
def sign : List Char → Bool × List Char
  | '-' :: rest => (true, rest)
  | '+' :: rest => (false, rest)
  | chars => (false, chars)

/-- An integer, if it fits into 64 bits with its sign. -/
def whole64? (negative : Bool) (value : Nat) : Option Setting :=
  let value : Int := if negative then -value else value
  if Setting.isWhole value then some (.integer value) else none

/-- The number that digits of a base stand for. -/
def natOfBase (base : Nat) (digits : List Char) : Nat :=
  digits.foldl (fun value char => base * value + (Json.hexDigit? char).getD 0) 0

/-- An integer of a base, without a sign. -/
def ofBase? (base : Nat) (chars : List Char) : Option Setting := do
  let isDigit := fun char => ((Json.hexDigit? char).any (· < base) : Bool)
  whole64? false (natOfBase base (← digits? isDigit chars))

/-- An integer. -/
def integer? : List Char → Option Setting
  | '0' :: 'x' :: rest => ofBase? 16 rest
  | '0' :: 'o' :: rest => ofBase? 8 rest
  | '0' :: 'b' :: rest => ofBase? 2 rest
  | chars => do
    let (negative, rest) := sign chars
    whole64? negative (natOfDigits 0 (← whole? rest))

/-- The exponent after its letter, zero where there is none. -/
def exponent? : List Char → Option Int
  | [] => some 0
  | _ :: chars => do
    let (negative, rest) := sign chars
    let value : Int := natOfDigits 0 (← digits? Char.isDigit rest)
    some (if negative then -value else value)

/-- Whether a letter starts an exponent. -/
def startsExponent (char : Char) : Bool := char == 'e' || char == 'E'

/-- A number with a fraction or an exponent. It must not be too great to be held. -/
def real? (chars : List Char) : Option Setting := do
  let (negative, rest) := sign chars
  if rest == "inf".toList then some (.real (.infinite negative))
  else if rest == "nan".toList then some (.real .nan)
  else
    let mantissa := rest.takeWhile (!startsExponent ·)
    let scale := rest.drop mantissa.length
    let before := mantissa.takeWhile (· != '.')
    let after := mantissa.drop before.length
    if after.isEmpty && scale.isEmpty then none
    else
      let whole ← whole? before
      let part ← if after.isEmpty then some [] else digits? Char.isDigit (after.drop 1)
      let exponent ← exponent? scale
      let value := Binary64.ofDecimal
        ⟨negative, natOfDigits (natOfDigits 0 whole) part, exponent - part.length⟩
      if value == .infinite false then none else some (.real value)

/-- Two digits that stand for a number in a range. -/
def pair? (least greatest : Nat) (tens ones : Char) : Option Nat :=
  let value := natOfDigits 0 [tens, ones]
  if tens.isDigit && ones.isDigit && least ≤ value && value ≤ greatest then some value else none

/-- The days of a month. -/
def daysIn (year month : Nat) : Nat :=
  if month == 2 then
    if year % 4 == 0 && (year % 100 != 0 || year % 400 == 0) then 29 else 28
  else if [4, 6, 9, 11].contains month then 30
  else 31

/-- A date of ten characters. -/
def date? : List Char → Option (List Char)
  | [a, b, c, d, '-', e, f, '-', g, h] => do
    let year := natOfDigits 0 [a, b, c, d]
    let month ← pair? 1 12 e f
    let day ← pair? 1 31 g h
    if [a, b, c, d].all Char.isDigit && day ≤ daysIn year month then
      some [a, b, c, d, '-', e, f, '-', g, h]
    else none
  | _ => none

/-- The fraction of a second: at most nine digits, without zeros at the end. -/
def fraction (digits : List Char) : List Char :=
  let kept := ((digits.take 9).reverse.dropWhile (· == '0')).reverse
  if kept.isEmpty then [] else '.' :: kept

/-- A time of day at the front, and what follows it. -/
def time? : List Char → Option (List Char × List Char)
  | a :: b :: ':' :: c :: d :: ':' :: e :: f :: rest => do
    let _ ← pair? 0 23 a b
    let _ ← pair? 0 59 c d
    let _ ← pair? 0 60 e f
    let plain := [a, b, ':', c, d, ':', e, f]
    match rest with
    | '.' :: rest =>
      let digits := rest.takeWhile Char.isDigit
      if digits.isEmpty then none else some (plain ++ fraction digits, rest.drop digits.length)
    | _ => some (plain, rest)
  | _ => none

/-- The distance of a time from that of the zero meridian, nothing where it is not given. -/
def zone? : List Char → Option (List Char)
  | [] => some []
  | ['Z'] => some ['Z']
  | ['z'] => some ['Z']
  | [sign, a, b, ':', c, d] => do
    let hours ← pair? 0 23 a b
    let minutes ← pair? 0 59 c d
    if sign == '+' || hours + minutes == 0 && sign == '-' then some ['+', a, b, ':', c, d]
    else if sign == '-' then some ['-', a, b, ':', c, d]
    else none
  | _ => none

/-- A time of day with or without a zone. -/
def zoned? (chars : List Char) : Option (List Char) := do
  let (time, rest) ← time? chars
  some (time ++ (← zone? rest))

/-- Whether a character parts a date from a time. -/
def partsDate (char : Char) : Bool := char == 'T' || char == 't' || char == ' '

/-- A date, a time or both. -/
def moment? (chars : List Char) : Option Setting :=
  let text? := match chars.drop 10 with
    | [] =>
      date? chars <|> (time? chars).bind fun (time, rest) => if rest.isEmpty then some time else none
    | char :: rest =>
      if partsDate char then do some ((← date? (chars.take 10)) ++ 'T' :: (← zoned? rest))
      else (time? chars).bind fun (time, rest) => if rest.isEmpty then some time else none
  text?.map fun text => .moment (String.ofList text)

/-- The value that a word stands for. -/
def scalar? (word : List Char) : Option Setting :=
  if word == "true".toList then some (.bool true)
  else if word == "false".toList then some (.bool false)
  else moment? word <|> real? word <|> integer? word

/-- Characters of values that are not quoted. -/
def isWordChar (char : Char) : Bool :=
  char.isAlphanum || char == '+' || char == '-' || char == '_' || char == '.' || char == ':'

/-- The word at the front and what follows it. A date goes on after a space if a time does. -/
def word (chars : List Char) : List Char × List Char :=
  let first := chars.takeWhile isWordChar
  let rest := chars.drop first.length
  match (date? first).isSome, rest with
  | true, ' ' :: next =>
    let second := next.takeWhile isWordChar
    if (zoned? second).isSome then (first ++ ' ' :: second, next.drop second.length)
    else (first, rest)
  | _, _ => (first, rest)

end CaretName.Toml
