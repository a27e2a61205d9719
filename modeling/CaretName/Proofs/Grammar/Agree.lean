import CaretName.Proofs.Grammar.Apart
import CaretName.Proofs.Grammar.Scan
import CaretName.Proofs.Text.Split

/-!
# Cutting tokens in front of comments

What a token is does not depend on the comments behind it: where one starts the token ends, and so
it does where a space is in its place. `Lexer.Agree` relates characters to those that are left when
some comments in them become spaces, and every way to cut a token keeps this relation
(`Lexer.next?_agree`).
-/
namespace CaretName

namespace Lexer

/-- The second characters are the first ones with spaces for some comments. -/
inductive Agree : List Char → List Char → Prop
  | nil : Agree [] []
  | cons (char : Char) {one other : List Char} (behind : Agree one other) :
    Agree (char :: one) (char :: other)
  | comment {one other : List Char} {lexeme : Lexeme} (found : comment? one = some lexeme)
    (behind : Agree lexeme.rest other) : Agree one (' ' :: other)

namespace Agree

variable {one other : List Char} {char : Char}

/-- A comment starts with a slash. -/
theorem exists_slash {lexeme : Lexeme} (found : comment? one = some lexeme) :
    ∃ rest, one = '/' :: rest := by
  unfold comment? at found
  split at found
  · exact ⟨_, rfl⟩
  · exact ⟨_, rfl⟩
  · contradiction

/-- More characters in front do not matter. -/
theorem append (front : List Char) (agree : Agree one other) :
    Agree (front ++ one) (front ++ other) := by
  induction front with
  | nil => exact agree
  | cons char rest ih => exact .cons char ih

/-- Where the first characters end the second ones do. -/
theorem nil_left (agree : Agree [] other) : other = [] := by
  cases agree with
  | nil => rfl
  | comment found => contradiction

/-- A character that starts no comment is the same in both. -/
theorem cons_left (agree : Agree (char :: one) other) (other' : char ≠ '/') :
    ∃ rest, other = char :: rest ∧ Agree one rest := by
  cases agree with
  | cons _ behind => exact ⟨_, rfl, behind⟩
  | comment found =>
    obtain ⟨_, same⟩ := exists_slash found
    exact absurd (List.cons.inj same).1 other'

/-- A character that is no space is the same in both. -/
theorem cons_right (agree : Agree one (char :: other)) (other' : char ≠ ' ') :
    ∃ rest, one = char :: rest ∧ Agree rest other := by
  cases agree with
  | cons _ behind => exact ⟨_, rfl, behind⟩
  | comment => exact absurd rfl other'

/-- Both have the same first character, or a comment and its space come first. -/
theorem cases_head (agree : Agree one other) :
    (one = [] ∧ other = []) ∨
      (∃ char rest rest', one = char :: rest ∧ other = char :: rest' ∧ Agree rest rest') ∨
      ∃ rest rest', one = '/' :: rest ∧ other = ' ' :: rest' := by
  cases agree with
  | nil => exact .inl ⟨rfl, rfl⟩
  | cons char behind => exact .inr (.inl ⟨char, _, _, rfl, rfl, behind⟩)
  | comment found =>
    obtain ⟨rest, rfl⟩ := exists_slash found
    exact .inr (.inr ⟨rest, _, rfl, rfl⟩)

end Agree

/-- Whether a class of characters has neither slashes nor spaces. -/
def Narrow (holds : Char → Bool) : Prop := holds '/' = false ∧ holds ' ' = false

/-- Whether there are neither slashes nor spaces among characters. -/
def Unbroken (chars : List Char) : Prop := ∀ char ∈ chars, char ≠ '/' ∧ char ≠ ' '

instance : DecidablePred Unbroken :=
  fun chars => List.decidableBAll (fun char => char ≠ '/' ∧ char ≠ ' ') chars

/-- Two pairs of what is cut and what is left: the same characters are cut. -/
def SameCut (cut cut' : List Char × List Char) : Prop := cut.1 = cut'.1 ∧ Agree cut.2 cut'.2

variable {one other : List Char} {holds : Char → Bool}

/-- A run of characters ends in front of a comment as in front of a space. -/
theorem span_agree (narrow : Narrow holds) (agree : Agree one other) :
    SameCut (one.span holds) (other.span holds) := by
  simp only [List.span_eq_takeWhile_dropWhile]
  induction agree with
  | nil => exact ⟨rfl, .nil⟩
  | @cons char one other behind ih =>
    by_cases inside : holds char = true
    · rw [List.takeWhile_cons_of_pos inside, List.takeWhile_cons_of_pos inside,
        List.dropWhile_cons_of_pos inside, List.dropWhile_cons_of_pos inside]
      exact ⟨congrArg (char :: ·) ih.1, ih.2⟩
    · rw [List.takeWhile_cons_of_neg inside, List.takeWhile_cons_of_neg inside,
        List.dropWhile_cons_of_neg inside, List.dropWhile_cons_of_neg inside]
      exact ⟨rfl, .cons char behind⟩
  | comment found behind ih =>
    have agree := Agree.comment found behind
    obtain ⟨rest, rfl⟩ := Agree.exists_slash found
    rw [List.takeWhile_cons_of_neg (by simp [narrow.1]), List.takeWhile_cons_of_neg
      (by simp [narrow.2]), List.dropWhile_cons_of_neg (by simp [narrow.1]),
      List.dropWhile_cons_of_neg (by simp [narrow.2])]
    exact ⟨rfl, agree⟩

/-- The first characters are of a class in both or in neither. -/
theorem head_agree (narrow : Narrow holds) (agree : Agree one other) :
    one.head?.map holds = other.head?.map holds ∨
      one.head?.map holds = some false ∧ other.head?.map holds = some false := by
  rcases agree.cases_head with ⟨rfl, rfl⟩ | ⟨char, rest, rest', rfl, rfl, _⟩ | ⟨rest, rest', rfl, rfl⟩
  · exact .inl rfl
  · exact .inl rfl
  · exact .inr ⟨congrArg some narrow.1, congrArg some narrow.2⟩

/-- A text without slashes and spaces is found in front of both or of neither. -/
theorem isPrefixOf_agree {text : List Char} (unbroken : Unbroken text) (agree : Agree one other) :
    text.isPrefixOf one = text.isPrefixOf other ∧
      (text.isPrefixOf one = true → Agree (one.drop text.length) (other.drop text.length)) := by
  induction text generalizing one other with
  | nil => exact ⟨by simp, fun _ => agree⟩
  | cons char text ih =>
    obtain ⟨here, later⟩ := List.forall_mem_cons.mp unbroken
    rcases agree.cases_head with ⟨rfl, rfl⟩ | ⟨first, rest, rest', rfl, rfl, behind⟩ |
      ⟨rest, rest', rfl, rfl⟩
    · exact ⟨rfl, fun found => by simp at found⟩
    · obtain ⟨same, left⟩ := ih later behind
      simp only [List.isPrefixOf, same, List.length_cons, List.drop_succ_cons, Bool.and_eq_true]
      exact ⟨trivial, fun found => left (same ▸ found.2)⟩
    · have slash : (char == '/') = false := beq_eq_false_iff_ne.mpr here.1
      have space : (char == ' ') = false := beq_eq_false_iff_ne.mpr here.2
      simp [List.isPrefixOf, slash, space]

/-- A text is dropped from both or from neither, if both have the same first character. -/
theorem dropText?_agree {text : String} (unbroken : Unbroken text.toList.tail) (char : Char)
    (agree : Agree one other) :
    Option.Rel Agree (dropText? text (char :: one)) (dropText? text (char :: other)) := by
  rw [dropText?, dropText?, ← String.length_toList]
  cases front : text.toList with
  | nil => exact .some (.cons char agree)
  | cons first tail =>
    rw [front, List.tail_cons] at unbroken
    obtain ⟨same, left⟩ := isPrefixOf_agree unbroken agree
    simp only [List.isPrefixOf, same, List.length_cons, List.drop_succ_cons, Bool.and_eq_true]
    split
    · next found => exact .some (left (same ▸ found.2))
    · exact .none

/-- A mark is cut from both or from neither, if both have the same first character. -/
theorem dropText?_item {text : String} (unbroken : Unbroken text.toList.tail) (char : Char)
    (agree : Agree one other) :
    ((dropText? text (char :: one)).map (Lexeme.mk .mark text.toList)).map Lexeme.item =
      ((dropText? text (char :: other)).map (Lexeme.mk .mark text.toList)).map Lexeme.item := by
  have dropped := dropText?_agree unbroken char agree
  generalize dropText? text (char :: one) = left, dropText? text (char :: other) = left' at dropped
  cases dropped with
  | none => rfl
  | some => rfl

/-! ## Numbers -/

/-- Digits are neither slashes nor spaces. -/
theorem narrow_isDigitOf (base : Nat) : Narrow (isDigitOf base) := by
  have letters : ∀ char, char = '/' ∨ char = ' ' → (char == '_') = false ∧
      char.isDigit = false ∧ ¬ ('a' ≤ char) ∧ ¬ ('A' ≤ char) := by
    rintro char (rfl | rfl) <;> decide
  constructor
  · obtain ⟨line, digit, small, large⟩ := letters '/' (.inl rfl)
    simp [isDigitOf, digit, small, large]
  · obtain ⟨line, digit, small, large⟩ := letters ' ' (.inr rfl)
    simp [isDigitOf, digit, small, large]

/-- The same character is cut, if neither a slash nor a space can be. -/
theorem oneOf_agree {letters : List Char} (unbroken : Unbroken letters) (agree : Agree one other) :
    (oneOf letters one).1 = (oneOf letters other).1 := by
  rcases agree.cases_head with ⟨rfl, rfl⟩ | ⟨char, rest, rest', rfl, rfl, behind⟩ |
    ⟨rest, rest', rfl, rfl⟩
  · rfl
  · rw [oneOf, oneOf]
    split <;> rfl
  · have slash : '/' ∉ letters := fun inside => (unbroken _ inside).1 rfl
    have space : ' ' ∉ letters := fun inside => (unbroken _ inside).2 rfl
    simp [oneOf, slash, space]

/-- A fraction is cut alike. -/
theorem fraction_agree (base : Nat) (agree : Agree one other) :
    SameCut (fraction base one) (fraction base other) := by
  unfold fraction
  split
  · next chars =>
    obtain ⟨rest, rfl, behind⟩ := agree.cons_left (by decide)
    obtain ⟨same, left⟩ := span_agree (narrow_isDigitOf base) behind
    exact ⟨congrArg ('.' :: ·) same, left⟩
  · next noPoint =>
    split
    · next chars =>
      obtain ⟨rest, rfl, _⟩ := agree.cons_right (by decide)
      exact absurd rfl (noPoint rest)
    · exact ⟨rfl, agree⟩

/-- An exponent is cut alike. -/
theorem exponent_agree {small large : Char} (unbroken : Unbroken [small, large])
    (agree : Agree one other) :
    SameCut (exponent small large one) (exponent small large other) := by
  obtain ⟨⟨smallSlash, smallSpace⟩, ⟨largeSlash, largeSpace⟩⟩ :
      (small ≠ '/' ∧ small ≠ ' ') ∧ large ≠ '/' ∧ large ≠ ' ' := by
    simpa [Unbroken] using unbroken
  rcases agree.cases_head with ⟨rfl, rfl⟩ | ⟨letter, chars, chars', rfl, rfl, behind⟩ |
    ⟨rest, rest', rfl, rfl⟩
  · exact ⟨rfl, .nil⟩
  · have digits (sign : List Char) {run run' : List Char} (agree' : Agree run run') :
        SameCut
          (if (run.span (isDigitOf 10)).1.isEmpty then ([], letter :: chars)
            else (letter :: sign ++ (run.span (isDigitOf 10)).1, (run.span (isDigitOf 10)).2))
          (if (run'.span (isDigitOf 10)).1.isEmpty then ([], letter :: chars')
            else (letter :: sign ++ (run'.span (isDigitOf 10)).1,
              (run'.span (isDigitOf 10)).2)) := by
      obtain ⟨same, left⟩ := span_agree (narrow_isDigitOf 10) agree'
      rw [same]
      split
      · exact ⟨rfl, agree⟩
      · exact ⟨rfl, left⟩
    unfold exponent
    dsimp only
    split
    · rcases behind.cases_head with ⟨rfl, rfl⟩ | ⟨sign, rest, rest', rfl, rfl, later⟩ |
        ⟨rest, rest', rfl, rfl⟩
      · exact digits [] .nil
      · by_cases plus : sign = '+'
        · subst plus
          exact digits ['+'] later
        by_cases minus : sign = '-'
        · subst minus
          exact digits ['-'] later
        simpa [plus, minus] using digits [] behind
      · exact digits [] behind
    · exact ⟨rfl, agree⟩
  · unfold exponent
    dsimp only
    rw [if_neg (by simp [smallSlash.symm, largeSlash.symm]),
      if_neg (by simp [smallSpace.symm, largeSpace.symm])]
    exact ⟨rfl, agree⟩

/-- A number in base ten is cut alike. -/
theorem plain_agree (agree : Agree one other) : (plain one).item = (plain other).item := by
  obtain ⟨whole, afterWhole⟩ := span_agree (narrow_isDigitOf 10) agree
  obtain ⟨part, afterPart⟩ := fraction_agree 10 afterWhole
  obtain ⟨power, afterPower⟩ := exponent_agree (by decide : Unbroken ['e', 'E']) afterPart
  have suffix := oneOf_agree (by decide : Unbroken ['f', 'F', 'd', 'D', 'l', 'L']) afterPower
  simp only [Lexeme.item, plain, whole, part, power, suffix]

/-- A number in a base is cut alike. -/
theorem announced_agree (base : Nat) (first second : Char) (agree : Agree one other) :
    (announced base first second one).item = (announced base first second other).item := by
  obtain ⟨whole, afterWhole⟩ := span_agree (narrow_isDigitOf base) agree
  have letters : ∀ real : Bool,
      Unbroken (if real = true then ['f', 'F', 'd', 'D'] else ['l', 'L']) := by
    decide
  by_cases wide : (base == 16) = true
  · obtain ⟨part, afterPart⟩ := fraction_agree 16 afterWhole
    obtain ⟨power, afterPower⟩ := exponent_agree (by decide : Unbroken ['p', 'P']) afterPart
    simp only [Lexeme.item, announced, wide, if_true, whole, part, power,
      oneOf_agree (letters _) afterPower]
  · have suffix := oneOf_agree (by decide : Unbroken ['l', 'L']) afterWhole
    simp only [List.span_eq_takeWhile_dropWhile] at whole suffix
    simp [Lexeme.item, announced, wide, whole, suffix]

/-- A number that starts neither with a zero nor with a point is plain. -/
theorem number?_of_ne {char : Char} (rest : List Char) (zero : char ≠ '0') (point : char ≠ '.') :
    number? (char :: rest) = if char.isDigit then some (plain (char :: rest)) else none := by
  unfold number?
  split
  · next same => exact absurd (List.cons.inj same).1 zero
  · next same => exact absurd (List.cons.inj same).1 point
  · next same => rw [(List.cons.inj same).1, (List.cons.inj same).2]
  · contradiction

/-- A number is cut alike. -/
theorem number?_agree (agree : Agree one other) :
    (number? one).map Lexeme.item = (number? other).map Lexeme.item := by
  rcases agree.cases_head with ⟨rfl, rfl⟩ | ⟨char, rest, rest', rfl, rfl, behind⟩ |
    ⟨rest, rest', rfl, rfl⟩
  · rfl
  · have plain := plain_agree agree
    by_cases zero : char = '0'
    · subst zero
      rcases behind.cases_head with ⟨rfl, rfl⟩ | ⟨letter, chars, chars', rfl, rfl, later⟩ |
        ⟨rest, rest', rfl, rfl⟩
      · rfl
      · simp only [number?, Option.map_some, Option.some.injEq]
        split
        · exact announced_agree 16 _ _ later
        split
        · exact announced_agree 2 _ _ later
        split
        · exact announced_agree 8 _ _ later
        · exact plain
      · exact congrArg some plain
    by_cases point : char = '.'
    · subst point
      rcases behind.cases_head with ⟨rfl, rfl⟩ | ⟨digit, chars, chars', rfl, rfl, later⟩ |
        ⟨rest, rest', rfl, rfl⟩
      · rfl
      · simp only [number?]
        split
        · exact congrArg some plain
        · rfl
      · rfl
    rw [number?_of_ne rest zero point, number?_of_ne rest' zero point]
    split
    · exact congrArg some plain
    · rfl
  · rw [number?_of_ne rest (by decide) (by decide), number?_of_ne rest' (by decide) (by decide)]
    rfl

/-! ## Words and marks -/

/-- The characters of identifiers are neither slashes nor spaces. -/
theorem narrow_continuesIdentifier : Narrow continuesIdentifier := by
  constructor <;> decide

/-- A word is cut alike. -/
theorem word?_agree (agree : Agree one other) :
    (word? one).map Lexeme.item = (word? other).map Lexeme.item := by
  rcases agree.cases_head with ⟨rfl, rfl⟩ | ⟨char, rest, rest', rfl, rfl, behind⟩ |
    ⟨rest, rest', rfl, rfl⟩
  · rfl
  · obtain ⟨body, _⟩ := span_agree narrow_continuesIdentifier agree
    have hyphen := dropText?_agree (by decide : Unbroken "non-sealed".toList.tail) char behind
    unfold word?
    dsimp only
    split
    · generalize dropText? "non-sealed" (char :: rest) = left,
        dropText? "non-sealed" (char :: rest') = left' at hyphen
      cases hyphen with
      | none => simp only [Option.map_some, Lexeme.item, body]
      | @some left left' agree' =>
        have next : (left.head?.map continuesIdentifier).getD false =
            (left'.head?.map continuesIdentifier).getD false := by
          rcases head_agree narrow_continuesIdentifier agree' with same | ⟨none, none'⟩
          · rw [same]
          · rw [none, none']
        dsimp only
        rw [next]
        split
        · simp only [Option.map_some, Lexeme.item, body]
        · rfl
    · rfl
  · have none (char : Char) (chars : List Char) (starts : startsIdentifier char = false) :
        word? (char :: chars) = .none := by
      simp [word?, starts]
    rw [none _ _ (by decide), none _ _ (by decide)]

/-- A mark is cut alike, if both have the same first character. -/
theorem mark?_agree (char : Char) (agree : Agree one other) :
    (mark? (char :: one)).map Lexeme.item = (mark? (char :: other)).map Lexeme.item := by
  have tails : ∀ text ∈ marks, Unbroken text.toList.tail := by decide +kernel
  rw [mark?, mark?, List.map_findSome?, List.map_findSome?]
  generalize marks = texts at tails
  induction texts with
  | nil => rfl
  | cons text others ih =>
    obtain ⟨here, later⟩ := List.forall_mem_cons.mp tails
    have first := dropText?_item here char agree
    rw [List.findSome?_cons, List.findSome?_cons, ih later]
    simp only [Function.comp_apply, first]

/-! ## Comments and characters -/

/-- No block comment ends where neither its end nor a later one is found. -/
theorem blockTail_cons_eq_none {char : Char} {chars : List Char} :
    blockTail (char :: chars) = none ↔
      ¬ (char = '*' ∧ chars.head? = some '/') ∧ blockTail chars = none := by
  by_cases ends : char = '*' ∧ chars.head? = some '/'
  · obtain ⟨rfl, head⟩ := ends
    obtain ⟨rest, rfl⟩ := List.head?_eq_some_iff.mp head
    simp [blockTail]
  · rw [blockTail, Option.map_eq_none_iff]
    · simp [ends]
    · rintro rest rfl rfl
      exact ends ⟨rfl, rfl⟩

/-- No block comment ends behind characters where none ends. -/
theorem blockTail_of_append {front rest : List Char} (endless : blockTail (front ++ rest) = none) :
    blockTail rest = none := by
  induction front with
  | nil => exact endless
  | cons char front ih => exact ih (blockTail_cons_eq_none.mp endless).2

/-- Where no block comment ends none ends with spaces for other comments. -/
theorem blockTail_agree (agree : Agree one other) (endless : blockTail one = none) :
    blockTail other = none := by
  induction agree with
  | nil => exact endless
  | @cons char one other behind ih =>
    obtain ⟨noEnd, later⟩ := blockTail_cons_eq_none.mp endless
    refine blockTail_cons_eq_none.mpr ⟨fun ⟨star, head⟩ => noEnd ⟨star, ?_⟩, ih later⟩
    obtain ⟨rest, rfl⟩ := List.head?_eq_some_iff.mp head
    obtain ⟨rest', rfl, _⟩ := behind.cons_right (by decide)
    rfl
  | comment found behind ih =>
    have whole := (comment_cuts found).whole
    exact blockTail_cons_eq_none.mpr ⟨by simp, ih (blockTail_of_append (whole ▸ endless))⟩

/-- Where no comment starts none starts with spaces for other comments. -/
theorem comment?_agree {char : Char} (agree : Agree one other)
    (noComment : comment? (char :: one) = none) : comment? (char :: other) = none := by
  unfold comment?
  split
  · next rest same =>
    obtain ⟨rfl, rfl⟩ := List.cons.inj same
    obtain ⟨rest', rfl, _⟩ := agree.cons_right (by decide)
    contradiction
  · next rest same =>
    obtain ⟨rfl, rfl⟩ := List.cons.inj same
    obtain ⟨rest', rfl, behind⟩ := agree.cons_right (by decide)
    rw [comment?, Option.map_eq_none_iff] at noComment
    rw [blockTail_agree behind noComment]
    rfl
  · rfl

/-- A character literal ends at its own quote. -/
theorem characterTail_append_right {chars body rest : List Char} (rest' : List Char)
    (found : characterTail chars = some (body, rest)) :
    characterTail (body ++ rest') = some (body, rest') := by
  fun_induction characterTail chars generalizing body rest with
  | case1 escaped chars ih =>
    obtain ⟨⟨inner, after⟩, tail, same⟩ := Option.map_eq_some_iff.mp found
    simp only [Prod.mk.injEq] at same
    obtain ⟨rfl, rfl⟩ := same
    simp [characterTail, ih tail]
  | case2 chars =>
    simp only [Option.some.injEq, Prod.mk.injEq] at found
    obtain ⟨rfl, rfl⟩ := found
    rfl
  | case3 => contradiction
  | case4 char chars noEscape noQuote noBreak ih =>
    obtain ⟨⟨inner, after⟩, tail, same⟩ := Option.map_eq_some_iff.mp found
    simp only [Prod.mk.injEq] at same
    obtain ⟨rfl, rfl⟩ := same
    have noEscape' : char ≠ '\\' := by
      rintro rfl
      cases chars with
      | nil => contradiction
      | cons escaped chars => exact noEscape escaped chars rfl rfl
    rw [List.cons_append, characterTail, ih tail]
    · rfl
    · exact fun _ _ same => absurd same noEscape'
    · exact noQuote
    · exact noBreak
  | case5 => contradiction

/-! ## Strings -/

/-- A bounded run of characters is the same in front of a comment as in front of a space. -/
theorem upTo_agree (narrow : Narrow holds) (count : Nat) (agree : Agree one other) :
    upTo count holds one = upTo count holds other := by
  induction count generalizing one other with
  | zero => rfl
  | succ count ih =>
    rcases agree.cases_head with ⟨rfl, rfl⟩ | ⟨char, rest, rest', rfl, rfl, behind⟩ |
      ⟨rest, rest', rfl, rfl⟩
    · rfl
    · have later := ih behind
      rw [upTo, upTo] at later ⊢
      rw [List.take_succ_cons, List.take_succ_cons, List.takeWhile_cons, List.takeWhile_cons, later]
    · rw [upTo, upTo, List.take_succ_cons, List.take_succ_cons,
        List.takeWhile_cons_of_neg (by simp [narrow.1]),
        List.takeWhile_cons_of_neg (by simp [narrow.2])]

/-- A code point in braces is the same. -/
theorem escapeBody_braces_agree (agree : Agree one other) :
    escapeBody ('u' :: '\x7b' :: one) = escapeBody ('u' :: '\x7b' :: other) := by
  obtain ⟨digits, after⟩ := span_agree (narrow_isDigitOf 16) agree
  simp only [escapeBody]
  generalize one.span (isDigitOf 16) = cut, other.span (isDigitOf 16) = cut' at digits after
  obtain ⟨run, left⟩ := cut
  obtain ⟨run', left'⟩ := cut'
  obtain rfl : run = run' := digits
  have after : Agree left left' := after
  by_cases closed : ∃ rest, left = '\x7d' :: rest
  · obtain ⟨rest, rfl⟩ := closed
    obtain ⟨rest', rfl, _⟩ := after.cons_left (by decide)
    rfl
  · have closed' : ¬ ∃ rest, left' = '\x7d' :: rest := by
      rintro ⟨rest, rfl⟩
      obtain ⟨rest', rfl, _⟩ := after.cons_right (by decide)
      exact closed ⟨rest', rfl⟩
    grind

/-- An escape is the same, if both have the same first character. -/
theorem escapeBody_agree (char : Char) (agree : Agree one other) :
    escapeBody (char :: one) = escapeBody (char :: other) := by
  have bounded (count base : Nat) :
      upTo count (isDigitOf base) one = upTo count (isDigitOf base) other :=
    upTo_agree (narrow_isDigitOf base) count agree
  by_cases unicode : char = 'u'
  · subst unicode
    by_cases braces : ∃ body, one = '\x7b' :: body
    · obtain ⟨body, rfl⟩ := braces
      obtain ⟨body', rfl, behind⟩ := agree.cons_left (by decide)
      exact escapeBody_braces_agree behind
    · have braces' : ∀ body, other = '\x7b' :: body → False := by
        rintro body rfl
        obtain ⟨body', rfl, _⟩ := agree.cons_right (by decide)
        exact braces ⟨body', rfl⟩
      rw [escapeBody, escapeBody, bounded]
      · exact braces'
      · exact fun body same => braces ⟨body, same⟩
  by_cases hex : char = 'x'
  · subst hex
    rw [escapeBody, escapeBody, bounded]
  · have octal := upTo_agree (narrow_isDigitOf 8) 3 (Agree.cons char agree)
    rw [escapeBody, escapeBody, octal]
    all_goals grind

/-- An escape takes up the character behind the backslash, if there is one. -/
theorem escapeBody_eq_nil {chars : List Char} (empty : escapeBody chars = []) : chars = [] := by
  unfold escapeBody at empty
  split at empty
  · rfl
  all_goals
    exfalso
    grind

/-- An escape stays the same with spaces for comments behind it. -/
theorem escapeBody_eq_of_agree {body rest rest' : List Char}
    (same : escapeBody (body ++ rest) = body) (agree : Agree rest rest') :
    escapeBody (body ++ rest') = body := by
  cases body with
  | nil =>
    obtain rfl : rest = [] := escapeBody_eq_nil same
    rw [agree.nil_left]
    rfl
  | cons first body =>
    rw [List.cons_append] at same ⊢
    rw [← escapeBody_agree first (agree.append body), same]

/-- A run of characters that slashes and spaces belong to stays the same with spaces for comments
behind it: it ends in front of neither. -/
theorem span_eq_of_agree {body rest rest' : List Char} (slash : holds '/' = true)
    (cut : (body ++ rest).span holds = (body, rest)) (agree : Agree rest rest') :
    (body ++ rest').span holds = (body, rest') := by
  have ends := span_ends holds (body ++ rest)
  rw [cut] at ends
  have inside : ∀ char ∈ body, holds char = true := by
    intro char listed
    have run := congrArg Prod.fst cut
    rw [List.span_eq_takeWhile_dropWhile] at run
    rw [← show (body ++ rest).takeWhile holds = body from run] at listed
    exact List.mem_takeWhile_imp listed
  refine span_eq inside ?_
  rcases agree.cases_head with ⟨rfl, rfl⟩ | ⟨char, left, left', rfl, rfl, _⟩ |
    ⟨left, left', rfl, rfl⟩
  · exact ends
  · exact ends
  · rw [ends '/' rfl] at slash
    contradiction

/-! ## Lexemes -/

/-- A lexeme that is cut from characters is known from its item and what is left. -/
theorem eq_of_item {lexeme lexeme' : Lexeme} {rest' : List Char}
    (cuts : Cuts (lexeme.chars ++ rest') lexeme') (same : lexeme'.item = lexeme.item) :
    lexeme' = { lexeme with rest := rest' } := by
  obtain ⟨sort, chars, rest⟩ := lexeme
  obtain ⟨sort', chars', rest''⟩ := lexeme'
  obtain ⟨rfl, rfl⟩ := Item.mk.inj same
  have left : rest'' = rest' := List.append_cancel_left cuts.whole
  rw [left]

/-- A single quote starts a character literal or nothing. -/
theorem code_quote (chars : List Char) :
    code ('\'' :: chars) = ((characterTail chars).map fun (body, rest) =>
      ⟨.literal .characterLiteral, '\'' :: body, rest⟩).or (some ⟨.stray, ['\''], chars⟩) := by
  have word : word? ('\'' :: chars) = none := by
    rw [word?, if_neg (by decide)]
  have number : number? ('\'' :: chars) = none := number?_of_ne chars (by decide) (by decide)
  have mark : mark? ('\'' :: chars) = none := by
    have heads : ∀ text ∈ marks, text.toList.head? ≠ some '\'' ∧ text ≠ "" := by decide +kernel
    rw [mark?, List.findSome?_eq_none_iff]
    intro text listed
    rw [Option.map_eq_none_iff, Option.eq_none_iff_forall_ne_some]
    intro rest dropped
    have first := congrArg List.head? (dropText_append dropped)
    rw [List.head?_append_of_ne_nil _ (by simpa using (heads text listed).2)] at first
    exact (heads text listed).1 first
  simp [code, comment?, word, number, mark, dropText?]

/-- Code starts with the same item, if it starts with neither a comment nor a single quote. -/
theorem code_agree {char : Char} (agree : Agree one other) (noQuote : char ≠ '\'')
    (noComment : comment? (char :: one) = none) :
    (code (char :: one)).map Lexeme.item = (code (char :: other)).map Lexeme.item := by
  have noComment' := comment?_agree agree noComment
  have word := word?_agree (agree.cons char)
  have number := number?_agree (agree.cons char)
  have quotes := dropText?_item (by decide : Unbroken "\"\"\"".toList.tail) char agree
  have mark := mark?_agree char agree
  have single : ¬ (char == '\'') = true := by simpa using noQuote
  simp only [code, Option.orElse_eq_orElse, Option.orElse_eq_or, Option.map_or, noComment,
    noComment', word, number, mark, quotes, if_neg single, Option.none_or]
  by_cases double : (char == '\"') = true
  · simp only [if_pos double, Option.map_some, Lexeme.item]
  · simp only [if_neg double, Option.map_some, Lexeme.item]

/-- The first lexeme of code is the same with spaces for comments behind it. -/
theorem code_eq_of_agree {chars rest' : List Char} {lexeme : Lexeme}
    (found : code chars = some lexeme) (solid : lexeme.isSpace = false)
    (known : lexeme.sort ≠ .stray) (agree : Agree lexeme.rest rest') :
    code (lexeme.chars ++ rest') = some { lexeme with rest := rest' } := by
  have cuts := code_cuts found
  obtain ⟨char, body, filled⟩ := List.exists_cons_of_ne_nil cuts.some
  have whole := cuts.whole
  rw [filled, List.cons_append] at whole
  obtain rfl := whole
  by_cases single : char = '\''
  · subst single
    rw [code_quote] at found
    cases tail : characterTail (body ++ lexeme.rest) with
    | none =>
      rw [tail] at found
      exact absurd (congrArg Lexeme.sort (Option.some.inj found)).symm known
    | some parts =>
      obtain ⟨body', left⟩ := parts
      rw [tail] at found
      obtain rfl := Option.some.inj found
      rw [List.cons_append, code_quote, characterTail_append_right rest' tail]
      rfl
  · have noComment : comment? (char :: (body ++ lexeme.rest)) = none := by
      rw [Option.eq_none_iff_forall_ne_some]
      intro comment starts
      have first : code (char :: (body ++ lexeme.rest)) = some comment := by
        simp [code, starts]
      rw [Option.some.inj (found.symm.trans first), Lexeme.isSpace, (slash_of_comment? starts).1,
        Bool.or_true] at solid
      contradiction
    have items := code_agree (agree.append body) single noComment
    rw [found, Option.map_some, eq_comm, Option.map_eq_some_iff] at items
    obtain ⟨lexeme', found', same⟩ := items
    rw [← List.cons_append, ← filled] at found'
    rw [found', eq_of_item (code_cuts found') same]

/-- The first lexeme in a string is the same with spaces for comments behind it. -/
theorem inString_eq_of_agree {quotes : String} {chars rest' : List Char} {lexeme : Lexeme}
    (delimited : (Mode.string quotes).Delimited) (found : inString quotes chars = some lexeme)
    (agree : Agree lexeme.rest rest') :
    inString quotes (lexeme.chars ++ rest') = some { lexeme with rest := rest' } := by
  have cuts := inString_cuts delimited.quoted found
  obtain ⟨char, body, filled⟩ := List.exists_cons_of_ne_nil cuts.some
  have whole := cuts.whole
  rw [filled, List.cons_append] at whole
  obtain rfl := whole
  have tail : Unbroken quotes.toList.tail := by
    rcases delimited with rfl | rfl <;> decide
  have closed := dropText?_item tail char (agree.append body)
  have opened :=
    dropText?_item (by decide : Unbroken "\\\x7b".toList.tail) char (agree.append body)
  suffices items : (inString quotes (char :: (body ++ rest'))).map Lexeme.item = some lexeme.item by
    obtain ⟨lexeme', found', same⟩ := Option.map_eq_some_iff.mp items
    rw [← List.cons_append, ← filled] at found'
    rw [found', eq_of_item (inString_cuts delimited.quoted found') same]
  simp only [inString, Option.orElse_eq_orElse, Option.orElse_eq_or] at found ⊢
  rw [Option.map_or, Option.map_or, ← closed, ← opened]
  simp only [Option.or_eq_some_iff] at found
  rcases found with close | ⟨noClose, embed | ⟨noEmbed, piece⟩⟩
  · rw [close]
    rfl
  · rw [noClose, embed]
    rfl
  · rw [noClose, noEmbed]
    simp only [Option.map_none, Option.none_or, Option.map_some, Option.some.injEq] at piece ⊢
    have sort := congrArg Lexeme.sort piece
    have chars := congrArg Lexeme.chars piece
    have rest := congrArg Lexeme.rest piece
    rw [filled] at chars
    rw [Lexeme.item, Lexeme.item, Item.mk.injEq, filled]
    split
    · next escape =>
      rw [if_pos escape] at chars sort
      obtain ⟨rfl, same⟩ := List.cons.inj chars
      exact ⟨sort, congrArg ('\\' :: ·) (escapeBody_eq_of_agree same agree)⟩
    · next fragment =>
      rw [if_neg fragment] at chars sort rest
      have cut := span_eq_of_agree rfl (Prod.ext (List.cons.inj chars).2 rest) agree
      exact ⟨sort, congrArg (char :: ·.1) cut⟩

/-- The first lexeme by the rules in force is the same with spaces for comments behind it, if it is
one that becomes a token. -/
theorem next?_eq_of_agree {modes : List Mode} {chars rest' : List Char} {lexeme : Lexeme}
    (delimited : ∀ mode ∈ modes, mode.Delimited) (found : next? modes chars = some lexeme)
    (solid : lexeme.isSpace = false) (known : lexeme.sort ≠ .stray) (agree : Agree lexeme.rest rest') :
    next? modes (lexeme.chars ++ rest') = some { lexeme with rest := rest' } := by
  have ofCode (reading : (if (chars.span isGap).1.isEmpty then code chars
        else some ⟨.finish, (chars.span isGap).1, (chars.span isGap).2⟩) = some lexeme) :
      (if ((lexeme.chars ++ rest').span isGap).1.isEmpty then code (lexeme.chars ++ rest')
        else some ⟨.finish, ((lexeme.chars ++ rest').span isGap).1,
          ((lexeme.chars ++ rest').span isGap).2⟩) = some { lexeme with rest := rest' } := by
    split at reading
    · next noGap =>
      have cuts := code_cuts reading
      obtain ⟨char, body, filled⟩ := List.exists_cons_of_ne_nil cuts.some
      have noGap' : ((lexeme.chars ++ rest').span isGap).1.isEmpty = true := by
        rw [← cuts.whole, filled] at noGap
        rw [filled]
        simpa using noGap
      rw [if_pos noGap', code_eq_of_agree reading solid known agree]
    · rw [← Option.some.inj reading] at solid
      contradiction
  cases modes with
  | nil => exact ofCode found
  | cons mode outer =>
    cases mode with
    | code braces => exact ofCode found
    | string quotes => exact inString_eq_of_agree (delimited _ List.mem_cons_self) found agree

end Lexer

end CaretName
