import CaretName.Json.Reader
import CaretName.Json.Writer
import CaretName.Proofs.Text.Split

/-!
# Numbers and strings of JSON

A number is written with the digits of the positional system and ends in front of everything that
can follow a value, so it is read back from in front of it: `number?_integer` and `number?_real`.
A string is written character by character, and each is read back on its own: `stringTail?_quote`.
-/
namespace CaretName

namespace Json

/-- Characters that may come next after a value: none, or first white space, a comma or a closing
bracket. -/
def Follows (rest : List Char) : Prop :=
  ∀ char ∈ rest.head?, isSpace char = true ∨ char = ',' ∨ char = ']' ∨ char = '\x7d'

/-- A number that is held in 64 bits: written as an integer it is a count or less than infinite. -/
def Held (negative : Bool) (digits : Nat) : Prop :=
  maxCount < digits → (Binary64.ofDecimal ⟨negative, digits, 0⟩).isFinite = true

variable {rest chars : List Char} {char : Char}

/-- What follows a value starts with no character of a class that has none of those. -/
theorem Follows.head_eq_false (follows : Follows rest) (holds : Char → Bool)
    (apart : [' ', '\n', '\t', '\r', ',', ']', '\x7d'].all (!holds ·) = true) :
    ∀ char ∈ rest.head?, holds char = false := by
  intro char first
  have listed : char ∈ [' ', '\n', '\t', '\r', ',', ']', '\x7d'] := by
    have either := follows char first
    simp only [isSpace, Bool.or_eq_true, beq_iff_eq] at either
    simp only [List.mem_cons, List.not_mem_nil, or_false]
    tauto
  simpa using List.all_eq_true.mp apart char listed

/-! ## Digits -/

/-- The digits of a number stand for it. -/
theorem natOfDigits_toDigits (value : Nat) : natOfDigits 0 (Nat.toDigits 10 value) = value :=
  Nat.ofDigitChars_ten_toDigits

/-- Numbers are written with digits alone. -/
theorem isDigit_of_mem_toDigits {value : Nat} (listed : char ∈ Nat.toDigits 10 value) :
    char.isDigit = true := Nat.isDigit_of_mem_toDigits (by decide) (by decide) listed

/-- A number starts with a digit. -/
theorem exists_toDigits (value : Nat) :
    ∃ first digits, Nat.toDigits 10 value = first :: digits ∧ first.isDigit = true := by
  obtain ⟨first, digits, same⟩ := List.exists_cons_of_ne_nil (@Nat.toDigits_ne_nil value 10)
  exact ⟨first, digits, same, isDigit_of_mem_toDigits (same ▸ List.mem_cons_self)⟩

/-- Only zero starts with a zero. -/
theorem head?_toDigits {value : Nat} (positive : 0 < value) :
    (Nat.toDigits 10 value).head? ≠ some '0' := by
  induction value using Nat.strongRecOn with
  | ind value ih =>
    by_cases small : value < 10
    · have digits : ∀ digit < 10, 0 < digit → [Nat.digitChar digit].head? ≠ some '0' := by decide
      rw [Nat.toDigits_of_lt_base small]
      exact digits value small positive
    · rw [Nat.toDigits_of_base_le (by decide) (Nat.not_lt.mp small),
        List.head?_append_of_ne_nil _ Nat.toDigits_ne_nil]
      exact ih (value / 10) (by omega) (by omega)

/-- The digits of a number are cut off from what starts with no digit. -/
theorem span_toDigits (value : Nat) (ends : ∀ char ∈ rest.head?, char.isDigit = false) :
    (Nat.toDigits 10 value ++ rest).span Char.isDigit = (Nat.toDigits 10 value, rest) :=
  span_eq (fun _ => isDigit_of_mem_toDigits) ends

/-- The digits of a number are read as the digits before the point. -/
theorem wholePart?_toDigits (value : Nat) (ends : ∀ char ∈ rest.head?, char.isDigit = false) :
    wholePart? (Nat.toDigits 10 value ++ rest) = some (Nat.toDigits 10 value, rest) := by
  rcases Nat.eq_zero_or_pos value with rfl | positive
  · have apart : rest.head?.any Char.isDigit = false := by
      cases rest with
      | nil => rfl
      | cons first rest => exact ends first rfl
    simp [wholePart?, apart]
  · have cut := span_toDigits value ends
    obtain ⟨first, digits, same, _⟩ := exists_toDigits value
    have other := head?_toDigits positive
    rw [same] at cut other ⊢
    rw [List.cons_append] at cut ⊢
    have noZero : first ≠ '0' := fun zero => other (congrArg some zero)
    rw [wholePart?, cut]
    · rfl
    · exact fun _ zero => noZero (List.cons.inj zero).1

/-! ## Numbers -/

/-- The text of an integer is a sign, if it is negative, and digits. -/
theorem toList_toString (value : Int) :
    (toString value).toList =
      (if value < 0 then ['-'] else []) ++ Nat.toDigits 10 value.natAbs := by
  cases value with
  | ofNat value => exact Nat.toList_repr
  | negSucc value =>
    have negative : Int.negSucc value < 0 := Int.negSucc_lt_zero value
    rw [if_pos negative, Int.toString_eq_repr, Int.repr, String.toList_append, Nat.toList_repr]
    rfl

/-- The exponent of a number that is written with one. -/
theorem exponentPart?_power (power : Int) (follows : Follows rest) :
    exponentPart? ('e' :: ((toString power).toList ++ rest)) = some (power, true, rest) := by
  have cut := span_toDigits power.natAbs (follows.head_eq_false Char.isDigit (by decide))
  obtain ⟨first, digits, same, isDigit⟩ := exists_toDigits power.natAbs
  have value := natOfDigits_toDigits power.natAbs
  rw [toList_toString, List.append_assoc]
  rw [same] at cut value ⊢
  by_cases negative : power < 0
  · rw [if_pos negative, List.singleton_append, exponentPart?, if_pos (by decide), cut]
    have sign : -(power.natAbs : Int) = power := by omega
    simp only [value, sign, List.isEmpty_cons, if_true]
    rfl
  · have noPlus : first ≠ '+' := by rintro rfl; contradiction
    have noMinus : first ≠ '-' := by rintro rfl; contradiction
    have sign : (power.natAbs : Int) = power := by omega
    rw [if_neg negative, List.nil_append, exponentPart?, if_pos (by decide), cut]
    · simp only [value, sign, List.isEmpty_cons]
      rfl
    · exact fun _ plus => noPlus (List.cons.inj plus).1
    · exact fun _ minus => noMinus (List.cons.inj minus).1

/-- A number is read from its sign, its digits and what is behind them. -/
theorem number?_eq (negative : Bool) (digits : Nat) {tail : List Char} {exponent : Int}
    {scaled : Bool} (ends : ∀ char ∈ tail.head?, char.isDigit = false)
    (noPoint : fractionPart? tail = some ([], tail))
    (behind : exponentPart? tail = some (exponent, scaled, rest)) :
    number? ((if negative then ['-'] else []) ++ (Nat.toDigits 10 digits ++ tail)) =
      if (scaled || maxCount < digits) &&
          !(Binary64.ofDecimal ⟨negative, digits, exponent⟩).isFinite then none
      else if !scaled && !(negative && digits == 0) then
        some (.integer (if negative then -(digits : Int) else digits), rest)
      else some (.real ⟨negative, digits, exponent⟩, rest) := by
  have whole := wholePart?_toDigits digits ends
  have value := natOfDigits_toDigits digits
  unfold number?
  split
  next negative' chars sign =>
  obtain ⟨rfl, rfl⟩ : negative' = negative ∧ chars = Nat.toDigits 10 digits ++ tail := by
    cases negative with
    | true =>
      have sign : (true, Nat.toDigits 10 digits ++ tail) = (negative', chars) := sign
      exact ⟨(congrArg Prod.fst sign).symm, (congrArg Prod.snd sign).symm⟩
    | false =>
      obtain ⟨first, others, same, isDigit⟩ := exists_toDigits digits
      have noSign : first ≠ '-' := by rintro rfl; contradiction
      rw [if_neg Bool.false_ne_true, List.nil_append, same] at sign
      split at sign
      · next rest minus => exact absurd (List.cons.inj minus).1 noSign
      · exact ⟨(congrArg Prod.fst sign).symm, by rw [same]; exact (congrArg Prod.snd sign).symm⟩
  have unscaled : exponent - (([] : List Char).length : Int) = exponent := Int.sub_zero exponent
  rw [whole]
  simp only [Option.bind_eq_bind, Option.bind_some, noPoint, behind, value, unscaled]
  rfl

/-- What follows a value is no point with digits. -/
theorem fractionPart?_follows (follows : Follows rest) : fractionPart? rest = some ([], rest) := by
  unfold fractionPart?
  split
  · next chars =>
    have noPoint := follows.head_eq_false (· == '.') (by decide) '.' rfl
    contradiction
  · rfl

/-- What follows a value is no exponent. -/
theorem exponentPart?_follows (follows : Follows rest) :
    exponentPart? rest = some (0, false, rest) := by
  cases rest with
  | nil => rfl
  | cons letter rest =>
    have other : (letter == 'e' || letter == 'E') = false :=
      follows.head_eq_false (fun char => char == 'e' || char == 'E') (by decide) letter rfl
    have noLetter : ¬ (letter == 'e' || letter == 'E') = true := by
      rw [other]
      exact Bool.false_ne_true
    exact if_neg noLetter

/-- A number that is written as an integer is read as it. -/
theorem number?_integer (value : Int) (held : Held (value < 0) value.natAbs)
    (follows : Follows rest) :
    number? ((toString value).toList ++ rest) = some (.integer value, rest) := by
  have read := number?_eq (value < 0) value.natAbs
    (follows.head_eq_false Char.isDigit (by decide)) (fractionPart?_follows follows)
    (exponentPart?_follows follows)
  have finite : (decide (maxCount < value.natAbs) &&
      !(Binary64.ofDecimal ⟨decide (value < 0), value.natAbs, 0⟩).isFinite) = false := by
    by_cases large : maxCount < value.natAbs
    · rw [held large, Bool.not_true, Bool.and_false]
    · rw [decide_eq_false large, Bool.false_and]
  have noZero : (decide (value < 0) && value.natAbs == 0) = false := by
    simp only [Bool.and_eq_false_iff, decide_eq_false_iff_not, beq_eq_false_iff_ne]
    omega
  have sign : (if decide (value < 0) = true then -(value.natAbs : Int) else value.natAbs) =
      value := by
    simp only [decide_eq_true_eq]
    split <;> omega
  rw [Bool.false_or, finite, if_neg Bool.false_ne_true, noZero, sign] at read
  rw [toList_toString, List.append_assoc]
  simpa only [decide_eq_true_eq, Bool.not_false, Bool.and_self, if_true] using read

/-- The text of a decimal number is a sign, if it is negative, its digits and its exponent. -/
theorem toList_writeDecimal (value : Decimal) :
    (writeDecimal value).toList = (if value.negative then ['-'] else []) ++
      (Nat.toDigits 10 value.digits ++ 'e' :: (toString value.power).toList) := by
  have digits : (toString value.digits).toList = Nat.toDigits 10 value.digits := Nat.toList_repr
  have sign : (if value.negative = true then "-" else "").toList =
      if value.negative = true then ['-'] else [] := by
    cases value.negative <;> rfl
  rw [writeDecimal, String.toList_append, String.toList_append, String.toList_append, sign, digits,
    List.append_assoc, List.append_assoc]
  rfl

/-- A number that is written with an exponent is read as it. -/
theorem number?_real (value : Decimal) (finite : (Binary64.ofDecimal value).isFinite = true)
    (follows : Follows rest) :
    number? ((writeDecimal value).toList ++ rest) = some (.real value, rest) := by
  have read := number?_eq value.negative value.digits (by simp) rfl
    (exponentPart?_power value.power follows)
  rw [finite, Bool.not_true, Bool.and_false, if_neg Bool.false_ne_true] at read
  rw [toList_writeDecimal, List.append_assoc, List.append_assoc]
  exact read

/-! ## Strings -/

/-- A hexadecimal digit is read as its value. -/
theorem hexDigit?_hexDigit {value : Nat} (small : value < 16) :
    hexDigit? (hexDigit value) = some value := by
  have digits : ∀ value < 16, hexDigit? (hexDigit value) = some value := by decide
  exact digits value small

/-- A character that is escaped by its number is read as it. -/
theorem unicodeEscape?_control (control : char.toNat < 0x20) (rest : List Char) :
    unicodeEscape? ('0' :: '0' :: hexDigit (char.toNat / 16) :: hexDigit (char.toNat % 16) ::
      rest) = some (char, rest) := by
  have number : hex4? ('0' :: '0' :: hexDigit (char.toNat / 16) :: hexDigit (char.toNat % 16) ::
      rest) = some (char.toNat, rest) := by
    have zero : hexDigit? '0' = some 0 := by decide
    rw [hex4?, zero, hexDigit?_hexDigit (by omega), hexDigit?_hexDigit (Nat.mod_lt _ (by decide))]
    simp only [Option.bind_eq_bind, Option.bind_some, Option.some.injEq, Prod.mk.injEq, and_true]
    omega
  have first : (0xD800 ≤ char.toNat && char.toNat < 0xDC00) = false := by
    simp only [Bool.and_eq_false_iff, decide_eq_false_iff_not]
    omega
  have second : (0xDC00 ≤ char.toNat && char.toNat < 0xE000) = false := by
    simp only [Bool.and_eq_false_iff, decide_eq_false_iff_not]
    omega
  rw [unicodeEscape?, number, Option.bind_eq_bind, Option.bind_some]
  dsimp only
  rw [first, second, Char.ofNat_toNat]
  rfl

/-- A character that is escaped by a letter is read as it. -/
theorem stringTail?_short {letter : Char} (fuel : Nat) (rest : List Char) (noNumber : letter ≠ 'u')
    (short : shortEscape? letter = some char) :
    stringTail? (fuel + 1) ('\\' :: letter :: rest) =
      (stringTail? fuel rest).map fun (body, rest) => (char :: body, rest) := by
  rw [stringTail?, short]
  · cases stringTail? fuel rest <;> rfl
  · exact noNumber

/-- A character inside a string is read on its own. -/
theorem stringTail?_escape (fuel : Nat) (char : Char) (rest : List Char) :
    stringTail? (fuel + 1) (escape char ++ rest) =
      (stringTail? fuel rest).map fun (body, rest) => (char :: body, rest) := by
  unfold escape
  split
  case h_8 noQuote noBackslash _ _ _ _ _ =>
    split
    · next control =>
      simp only [List.cons_append, List.nil_append, stringTail?, unicodeEscape?_control control,
        Option.bind_eq_bind, Option.bind_some]
      cases stringTail? fuel rest <;> rfl
    · next shown =>
      have plain : (char == '\\' || decide (char.toNat < 0x20)) = false := by
        simpa [shown] using noBackslash
      rw [List.singleton_append, stringTail?, plain, if_neg Bool.false_ne_true]
      · exact noQuote
      · exact fun _ backslash _ => noBackslash backslash
      · exact fun _ _ backslash _ => noBackslash backslash
  all_goals exact stringTail?_short fuel rest (by decide) rfl

/-- A character inside a string is written with one character at least. -/
theorem escape_ne_nil (char : Char) : escape char ≠ [] := by
  unfold escape
  split
  case h_8 => split <;> exact List.cons_ne_nil _ _
  all_goals exact List.cons_ne_nil _ _

/-- Characters inside a string are at least as many when they are written. -/
theorem length_le_escaped (chars : List Char) : chars.length ≤ (chars.flatMap escape).length := by
  induction chars with
  | nil => exact Nat.le_refl 0
  | cons char chars ih =>
    have some := List.length_pos_of_ne_nil (escape_ne_nil char)
    rw [List.flatMap_cons, List.length_append, List.length_cons]
    omega

/-- A string is read up to its closing quote. -/
theorem stringTail?_escaped {fuel : Nat} (enough : chars.length < fuel) :
    stringTail? fuel (chars.flatMap escape ++ '"' :: rest) = some (chars, rest) := by
  induction chars generalizing fuel with
  | nil =>
    obtain ⟨fuel, rfl⟩ := Nat.exists_eq_succ_of_ne_zero (Nat.ne_of_gt enough)
    rfl
  | cons char chars ih =>
    obtain ⟨fuel, rfl⟩ := Nat.exists_eq_succ_of_ne_zero (Nat.ne_of_gt (Nat.zero_lt_of_lt enough))
    rw [List.flatMap_cons, List.append_assoc, Nat.succ_eq_add_one, stringTail?_escape,
      ih (Nat.lt_of_succ_lt_succ enough)]
    rfl

/-- A string in quotes, and what follows it. -/
theorem toList_quote_append (text : String) (rest : List Char) :
    (quote text).toList ++ rest = '"' :: (text.toList.flatMap escape ++ '"' :: rest) := by
  simp [quote]

/-- A string is read from behind its opening quote, with the fuel that it is given there. -/
theorem stringTail?_quote (text : String) (rest : List Char) :
    stringTail? ((text.toList.flatMap escape ++ '"' :: rest).length + 1)
      (text.toList.flatMap escape ++ '"' :: rest) = some (text.toList, rest) := by
  apply stringTail?_escaped
  have most := length_le_escaped text.toList
  rw [List.length_append]
  omega

end Json

end CaretName
