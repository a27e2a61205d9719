import CaretName.Proofs.Json.Token
import Mathlib.Data.List.DropRight
import Mathlib.Data.List.Forall2

/-!
# Texts that are read as values

`Spells` is the grammar of the texts that spell a value, with blanks between the tokens as both
writers leave them. Whatever spells a value is read as it (`Spells.value?_eq`), each writer spells
the values that it is given (`spells_compact`, `spells_prettyAt`), and so a value that fits into
the limits of the reader is got back from its text.
-/
namespace CaretName

namespace Json

/-- Characters that are blanks. -/
def Blank (chars : List Char) : Prop := ∀ char ∈ chars, isSpace char = true

mutual

/-- The texts that spell a value, with so many levels of nesting left. -/
inductive Spells : Nat → Json → List Char → Prop where
  | null {depth} : Spells depth .null "null".toList
  | bool {depth} (value : Bool) :
    Spells depth (.bool value) (if value then "true" else "false").toList
  | integer {depth value} (held : Held (value < 0) value.natAbs) :
    Spells depth (.integer value) (toString value).toList
  | real {depth value} (finite : (Binary64.ofDecimal value).isFinite = true) :
    Spells depth (.real value) (writeDecimal value).toList
  | string {depth text} : Spells depth (.string text) (quote text).toList
  | noValues {depth} : Spells (depth + 1) (.array []) ['[', ']']
  | array {depth values chars} (items : SpellsItems depth values chars) :
    Spells (depth + 1) (.array values) ('[' :: chars)
  | noMembers {depth} : Spells (depth + 1) (.object []) ['\x7b', '\x7d']
  | object {depth members chars} (items : SpellsMembers depth members chars) :
    Spells (depth + 1) (.object members) ('\x7b' :: chars)

/-- The texts that spell the values of an array, with its closing bracket. -/
inductive SpellsItems : Nat → List Json → List Char → Prop where
  | last {depth value chars before after} (blank : Blank before) (item : Spells depth value chars)
    (closing : Blank after) : SpellsItems depth [value] (before ++ (chars ++ (after ++ [']'])))
  | next {depth value chars values others before} (blank : Blank before)
    (item : Spells depth value chars) (items : SpellsItems depth values others) :
    SpellsItems depth (value :: values) (before ++ (chars ++ ',' :: others))

/-- The texts that spell the members of an object, with its closing brace. -/
inductive SpellsMembers : Nat → List (String × Json) → List Char → Prop where
  | last {depth name value chars before between after} (blank : Blank before)
    (apart : Blank between) (item : Spells depth value chars) (closing : Blank after) :
    SpellsMembers depth [(name, value)]
      (before ++ ((quote name).toList ++ ':' :: (between ++ (chars ++ (after ++ ['\x7d'])))))
  | next {depth name value chars members others before between} (blank : Blank before)
    (apart : Blank between) (item : Spells depth value chars)
    (items : SpellsMembers depth members others) :
    SpellsMembers depth ((name, value) :: members)
      (before ++ ((quote name).toList ++ ':' :: (between ++ (chars ++ ',' :: others))))

end

variable {fuel depth : Nat} {value : Json} {rest chars gap : List Char}

/-! ## Blanks -/

/-- White space is skipped once. -/
theorem skipSpace_skipSpace (chars : List Char) : skipSpace (skipSpace chars) = skipSpace chars :=
  List.dropWhile_idempotent isSpace chars

/-- Blanks are skipped. -/
theorem Blank.skipSpace_append (blank : Blank gap) (chars : List Char) :
    skipSpace (gap ++ chars) = skipSpace chars := List.dropWhile_append_of_pos blank

/-- Blanks and then a character that is none: the character comes next. -/
theorem Blank.skipSpace_token (blank : Blank gap) {char : Char} (shown : isSpace char = false)
    (chars : List Char) : skipSpace (gap ++ char :: chars) = char :: chars := by
  rw [blank.skipSpace_append, skipSpace, List.dropWhile_cons_of_neg (by simp [shown])]

/-- A value may be read behind its white space. -/
theorem value?_skipSpace (fuel depth : Nat) (chars : List Char) :
    value? fuel depth (skipSpace chars) = value? fuel depth chars := by
  cases fuel with
  | zero => rfl
  | succ fuel => rw [value?, value?, skipSpace_skipSpace]

/-- The members of an object may be read behind their white space. -/
theorem members?_skipSpace (fuel depth : Nat) (chars : List Char) :
    members? fuel depth (skipSpace chars) = members? fuel depth chars := by
  cases fuel with
  | zero => rfl
  | succ fuel => rw [members?, members?, skipSpace_skipSpace]

/-- The values of an array may be read behind their white space. -/
theorem items?_skipSpace (fuel depth : Nat) (chars : List Char) :
    items? fuel depth (skipSpace chars) = items? fuel depth chars := by
  cases fuel with
  | zero => rfl
  | succ fuel => rw [items?, items?, value?_skipSpace]

/-- A value is read behind blanks. -/
theorem Blank.value?_append (blank : Blank gap) (fuel depth : Nat) (chars : List Char) :
    value? fuel depth (gap ++ chars) = value? fuel depth chars := by
  rw [← value?_skipSpace, blank.skipSpace_append, value?_skipSpace]

/-! ## Single values -/

/-- A character that a number starts with. -/
def startsNumber (char : Char) : Bool := char.isDigit || char == '-'

/-- A character that is none of some others does not make a word of theirs. -/
theorem afterWord?_eq_none {word : String} {first char : Char} {others : List Char}
    (spelled : word.toList = char :: others) (other : first ≠ char) :
    afterWord? word (first :: chars) = none := by
  rw [afterWord?, spelled, List.isPrefixOf_cons_cons, beq_eq_false_iff_ne.mpr (Ne.symm other),
    Bool.false_and, if_neg Bool.false_ne_true]

/-- What starts like a number starts with nothing else. -/
theorem ne_of_startsNumber {first char : Char} (starts : startsNumber first = true)
    (apart : startsNumber char = false) : first ≠ char := by
  rintro rfl
  exact Bool.false_ne_true (apart.symm.trans starts)

/-- What starts like a number is no blank. -/
theorem isSpace_of_startsNumber {first : Char} (starts : startsNumber first = true) :
    isSpace first = false := by
  simp only [isSpace, Bool.or_eq_false_iff, beq_eq_false_iff_ne]
  exact ⟨⟨⟨ne_of_startsNumber starts (by decide), ne_of_startsNumber starts (by decide)⟩,
    ne_of_startsNumber starts (by decide)⟩, ne_of_startsNumber starts (by decide)⟩

/-- What starts like a number is read as one. -/
theorem value?_number {first : Char} (starts : startsNumber first = true) :
    value? (fuel + 1) depth (first :: chars) = number? (first :: chars) := by
  have other : ∀ char, startsNumber char = false → first ≠ char :=
    fun char => ne_of_startsNumber starts
  have skipped : skipSpace (first :: chars) = first :: chars :=
    List.dropWhile_cons_of_neg (by simp [isSpace_of_startsNumber starts])
  rw [value?, skipped]
  split
  · contradiction
  · next same => exact absurd (List.cons.inj same).1 (other _ (by decide))
  · next same => exact absurd (List.cons.inj same).1 (other _ (by decide))
  · next same => exact absurd (List.cons.inj same).1 (other _ (by decide))
  · next same =>
    obtain ⟨rfl, rfl⟩ := List.cons.inj same
    rw [afterWord?_eq_none rfl (other 'n' (by decide)),
      afterWord?_eq_none rfl (other 't' (by decide)),
      afterWord?_eq_none rfl (other 'f' (by decide))]
    rfl

/-- The text of a number starts like one. -/
theorem exists_startsNumber (negative : Bool) (value : Nat) (chars : List Char) :
    ∃ first others, (if negative then ['-'] else []) ++ (Nat.toDigits 10 value ++ chars) =
      first :: others ∧ startsNumber first = true := by
  cases negative with
  | true => exact ⟨'-', _, rfl, by decide⟩
  | false =>
    obtain ⟨first, digits, same, isDigit⟩ := exists_toDigits value
    exact ⟨first, digits ++ chars, by simp [same], by simp [startsNumber, isDigit]⟩

/-- The text of an integer starts like a number. -/
theorem exists_startsNumber_integer (value : Int) :
    ∃ first others, (toString value).toList = first :: others ∧ startsNumber first = true := by
  simpa only [decide_eq_true_eq, List.append_nil, toList_toString] using
    exists_startsNumber (value < 0) value.natAbs []

/-- The text of a decimal number starts like a number. -/
theorem exists_startsNumber_real (value : Decimal) :
    ∃ first others, (writeDecimal value).toList = first :: others ∧ startsNumber first = true := by
  rw [toList_writeDecimal]
  exact exists_startsNumber value.negative value.digits _

/-- What spells a value starts with a character that is no blank and closes no array. -/
theorem Spells.exists_head (spells : Spells depth value chars) :
    ∃ first others, chars = first :: others ∧ isSpace first = false ∧ first ≠ ']' := by
  have number : ∀ {first : Char}, startsNumber first = true → isSpace first = false ∧ first ≠ ']' :=
    fun starts => ⟨isSpace_of_startsNumber starts, ne_of_startsNumber starts (by decide)⟩
  cases spells with
  | integer =>
    obtain ⟨first, others, same, starts⟩ := exists_startsNumber_integer _
    exact ⟨first, others, same, number starts⟩
  | real =>
    obtain ⟨first, others, same, starts⟩ := exists_startsNumber_real _
    exact ⟨first, others, same, number starts⟩
  | @string _ text =>
    exact ⟨'"', _, by simpa using toList_quote_append text [], by decide, by decide⟩
  | bool value =>
    cases value with
    | false => exact ⟨_, _, rfl, by decide, by decide⟩
    | true => exact ⟨_, _, rfl, by decide, by decide⟩
  | _ => exact ⟨_, _, rfl, by decide, by decide⟩

/-- What may come next after a value follows it behind blanks. -/
theorem Blank.follows (blank : Blank gap) (next : Follows rest) : Follows (gap ++ rest) := by
  intro first head
  cases gap with
  | nil => exact next first head
  | cons other gap =>
    obtain rfl := Option.some.inj head
    exact .inl (blank _ List.mem_cons_self)

/-- A comma may come next after a value. -/
theorem follows_comma (rest : List Char) : Follows (',' :: rest) := by
  rintro _ ⟨⟩
  exact .inr (.inl rfl)

/-- The closing bracket of an array may come next after a value. -/
theorem follows_bracket (rest : List Char) : Follows (']' :: rest) := by
  rintro _ ⟨⟩
  exact .inr (.inr (.inl rfl))

/-- The closing brace of an object may come next after a value. -/
theorem follows_brace (rest : List Char) : Follows ('\x7d' :: rest) := by
  rintro _ ⟨⟩
  exact .inr (.inr (.inr rfl))

/-- A string is read up to its closing quote. -/
theorem value?_string (fuel depth : Nat) (chars : List Char) :
    value? (fuel + 1) depth ('"' :: chars) =
      (stringTail? (chars.length + 1) chars).map fun (body, rest) =>
        (string (String.ofList body), rest) := rfl

/-! ## Arrays and objects -/

/-- An array is read from its values, which do not start with its closing bracket. -/
theorem value?_array {values : List Json} (shown : (skipSpace chars).head? ≠ some ']')
    (read : items? fuel depth chars = some (values, rest)) :
    value? (fuel + 1) (depth + 1) ('[' :: chars) = some (.array values, rest) := by
  have opened : skipSpace ('[' :: chars) = '[' :: chars := List.dropWhile_cons_of_neg (by decide)
  rw [value?, opened]
  split
  · contradiction
  · next same => exact absurd (List.cons.inj same).1 (by decide)
  · next same =>
    obtain rfl := (List.cons.inj same).2
    dsimp only
    split
    · next closed => exact absurd (by rw [closed]; rfl) shown
    · rw [items?_skipSpace, read]
      rfl
  · next same => exact absurd (List.cons.inj same).1 (by decide)
  · next noArray _ same => exact absurd (List.cons.inj same).1.symm noArray

/-- An object is read from its members, which do not start with its closing brace. -/
theorem value?_object {members : List (String × Json)}
    (shown : (skipSpace chars).head? ≠ some '\x7d')
    (read : members? fuel depth chars = some (members, rest)) :
    value? (fuel + 1) (depth + 1) ('\x7b' :: chars) = some (.object members, rest) := by
  have opened : skipSpace ('\x7b' :: chars) = '\x7b' :: chars :=
    List.dropWhile_cons_of_neg (by decide)
  rw [value?, opened]
  split
  · contradiction
  · next same => exact absurd (List.cons.inj same).1 (by decide)
  · next same => exact absurd (List.cons.inj same).1 (by decide)
  · next same =>
    obtain rfl := (List.cons.inj same).2
    dsimp only
    split
    · next closed => exact absurd (by rw [closed]; rfl) shown
    · rw [members?_skipSpace, read]
      rfl
  · next noObject same => exact absurd (List.cons.inj same).1.symm noObject

/-- What spells the values of an array does not start with its closing bracket. -/
theorem SpellsItems.head?_ne {values : List Json} (spells : SpellsItems depth values chars)
    (rest : List Char) : (skipSpace (chars ++ rest)).head? ≠ some ']' := by
  cases spells with
  | last blank item | next blank item =>
    obtain ⟨first, others, rfl, shown, noClosing⟩ := item.exists_head
    rw [List.append_assoc, List.append_assoc, List.cons_append, blank.skipSpace_token shown]
    exact fun same => noClosing (Option.some.inj same)

/-- The last value of an array is read with the closing bracket. -/
theorem items?_last (read : value? fuel depth chars = some (value, gap ++ ']' :: rest))
    (closing : Blank gap) : items? (fuel + 1) depth chars = some ([value], rest) := by
  rw [items?, read]
  dsimp only
  rw [closing.skipSpace_token (by decide)]
  rfl

/-- A value of an array is read with the comma, and then the further ones. -/
theorem items?_next {values : List Json} {others : List Char}
    (read : value? fuel depth chars = some (value, ',' :: others))
    (further : items? fuel depth others = some (values, rest)) :
    items? (fuel + 1) depth chars = some (value :: values, rest) := by
  have comma : skipSpace (',' :: others) = ',' :: others := List.dropWhile_cons_of_neg (by decide)
  rw [items?, read]
  dsimp only
  rw [comma]
  exact congrArg (Option.map _) further

/-- The name and the colon of a member are read, and then its value. -/
theorem members?_quote (blank : Blank gap) (name : String) (chars : List Char) :
    members? (fuel + 1) depth (gap ++ ((quote name).toList ++ ':' :: chars)) =
      match value? fuel depth chars with
      | none => none
      | some (value, rest) =>
        match skipSpace rest with
        | '\x7d' :: rest => some ([(name, value)], rest)
        | ',' :: rest =>
          (members? fuel depth rest).map fun (members, rest) => ((name, value) :: members, rest)
        | _ => none := by
  have read := stringTail?_quote name (':' :: chars)
  have colon : skipSpace (':' :: chars) = ':' :: chars := List.dropWhile_cons_of_neg (by decide)
  rw [toList_quote_append, members?, blank.skipSpace_token (by decide)]
  split
  · next quoted same =>
    obtain rfl := (List.cons.inj same).2
    rw [read]
    dsimp only
    rw [colon, String.ofList_toList]
    rfl
  · next other => exact absurd rfl (other _)

/-- The last member of an object is read with the closing brace. -/
theorem members?_last {before : List Char} {name : String} (blank : Blank before)
    (read : value? fuel depth chars = some (value, gap ++ '\x7d' :: rest)) (closing : Blank gap) :
    members? (fuel + 1) depth (before ++ ((quote name).toList ++ ':' :: chars)) =
      some ([(name, value)], rest) := by
  rw [members?_quote blank, read]
  dsimp only
  rw [closing.skipSpace_token (by decide)]
  rfl

/-- A member of an object is read with the comma, and then the further ones. -/
theorem members?_next {before others : List Char} {name : String} {members : List (String × Json)}
    (blank : Blank before) (read : value? fuel depth chars = some (value, ',' :: others))
    (further : members? fuel depth others = some (members, rest)) :
    members? (fuel + 1) depth (before ++ ((quote name).toList ++ ':' :: chars)) =
      some ((name, value) :: members, rest) := by
  have comma : skipSpace (',' :: others) = ',' :: others := List.dropWhile_cons_of_neg (by decide)
  rw [members?_quote blank, read]
  dsimp only
  rw [comma]
  exact congrArg (Option.map _) further

/-- What spells the members of an object starts with the quote of a name. -/
theorem SpellsMembers.head?_ne {members : List (String × Json)}
    (spells : SpellsMembers depth members chars) (rest : List Char) :
    (skipSpace (chars ++ rest)).head? ≠ some '\x7d' := by
  cases spells with
  | last blank | next blank =>
    rw [List.append_assoc, blank.skipSpace_append, List.append_assoc, toList_quote_append]
    exact fun same => absurd (Option.some.inj same) (by decide)

mutual

/-- What spells a value is read as it. -/
theorem Spells.value?_eq {fuel depth : Nat} {value : Json} {chars : List Char} (rest : List Char)
    (spells : Spells depth value chars) (enough : 2 * chars.length ≤ fuel)
    (follows : Follows rest) : value? fuel depth (chars ++ rest) = some (value, rest) := by
  obtain ⟨fuel, rfl⟩ : ∃ less, fuel = less + 1 := by
    obtain ⟨_, _, rfl, _⟩ := spells.exists_head
    rw [List.length_cons] at enough
    exact ⟨fuel - 1, by omega⟩
  cases spells with
  | null => rfl
  | bool value =>
    cases value with
    | false => rfl
    | true => rfl
  | integer held =>
    obtain ⟨first, others, same, starts⟩ := exists_startsNumber_integer _
    have read := number?_integer _ held follows
    rw [same] at read ⊢
    exact (value?_number starts).trans read
  | real finite =>
    obtain ⟨first, others, same, starts⟩ := exists_startsNumber_real _
    have read := number?_real _ finite follows
    rw [same] at read ⊢
    exact (value?_number starts).trans read
  | @string _ text =>
    rw [toList_quote_append, value?_string, stringTail?_quote]
    exact congrArg (fun text => some (string text, rest)) String.ofList_toList
  | noValues => rfl
  | array items =>
    rw [List.length_cons] at enough
    exact value?_array (items.head?_ne rest) (items.items?_eq rest (by omega))
  | noMembers => rfl
  | object items =>
    rw [List.length_cons] at enough
    exact value?_object (items.head?_ne rest) (items.members?_eq rest (by omega))

/-- What spells the values of an array is read as them. -/
theorem SpellsItems.items?_eq {fuel depth : Nat} {values : List Json} {chars : List Char}
    (rest : List Char) (spells : SpellsItems depth values chars)
    (enough : 2 * chars.length ≤ fuel) :
    items? fuel depth (chars ++ rest) = some (values, rest) := by
  cases spells with
  | last blank item closing =>
    simp only [List.length_append, List.length_cons, List.length_nil] at enough
    obtain ⟨fuel, rfl⟩ : ∃ less, fuel = less + 1 := ⟨fuel - 1, by omega⟩
    simp only [List.append_assoc, List.singleton_append]
    refine items?_last ?_ closing
    rw [blank.value?_append]
    exact item.value?_eq _ (by omega) (closing.follows (follows_bracket rest))
  | next blank item items =>
    simp only [List.length_append, List.length_cons] at enough
    obtain ⟨fuel, rfl⟩ : ∃ less, fuel = less + 1 := ⟨fuel - 1, by omega⟩
    simp only [List.append_assoc, List.cons_append]
    refine items?_next ?_ (items.items?_eq rest (by omega))
    rw [blank.value?_append]
    exact item.value?_eq _ (by omega) (follows_comma _)

/-- What spells the members of an object is read as them. -/
theorem SpellsMembers.members?_eq {fuel depth : Nat} {members : List (String × Json)}
    {chars : List Char} (rest : List Char) (spells : SpellsMembers depth members chars)
    (enough : 2 * chars.length ≤ fuel) :
    members? fuel depth (chars ++ rest) = some (members, rest) := by
  cases spells with
  | last blank apart item closing =>
    simp only [List.length_append, List.length_cons, List.length_nil] at enough
    obtain ⟨fuel, rfl⟩ : ∃ less, fuel = less + 1 := ⟨fuel - 1, by omega⟩
    simp only [List.append_assoc, List.cons_append, List.nil_append]
    refine members?_last blank ?_ closing
    rw [apart.value?_append]
    exact item.value?_eq _ (by omega) (closing.follows (follows_brace rest))
  | next blank apart item items =>
    simp only [List.length_append, List.length_cons] at enough
    obtain ⟨fuel, rfl⟩ : ∃ less, fuel = less + 1 := ⟨fuel - 1, by omega⟩
    simp only [List.append_assoc, List.cons_append]
    refine members?_next blank ?_ (items.members?_eq rest (by omega))
    rw [apart.value?_append]
    exact item.value?_eq _ (by omega) (follows_comma _)

end

/-! ## What the writers spell -/

mutual

/-- A value within the limits of the reader: nested so deep at most, and its numbers held in
64 bits. -/
def Fits : Nat → Json → Prop
  | _, null | _, .bool _ | _, .string _ => True
  | _, integer value => Held (value < 0) value.natAbs
  | _, real value => (Binary64.ofDecimal value).isFinite = true
  | 0, array _ | 0, object _ => False
  | depth + 1, array values => FitAll depth values
  | depth + 1, object members => FitMembers depth members

/-- Values that are within the limits of the reader. -/
def FitAll : Nat → List Json → Prop
  | _, [] => True
  | depth, value :: values => Fits depth value ∧ FitAll depth values

/-- Members whose values are within the limits of the reader. -/
def FitMembers : Nat → List (String × Json) → Prop
  | _, [] => True
  | depth, (_, value) :: members => Fits depth value ∧ FitMembers depth members

end

/-- A text of blanks and what spells a value. -/
def ItemText (depth : Nat) (value : Json) (text : String) : Prop :=
  ∃ before chars, text.toList = before ++ chars ∧ Blank before ∧ Spells depth value chars

/-- A text of blanks and what spells a member of an object. -/
def MemberText (depth : Nat) (member : String × Json) (text : String) : Prop :=
  ∃ before between chars,
    text.toList = before ++ ((quote member.1).toList ++ ':' :: (between ++ chars)) ∧
      Blank before ∧ Blank between ∧ Spells depth member.2 chars

/-- Texts of values that are joined by commas spell the values of an array. -/
theorem spellsItems_intercalate {values : List Json} {texts : List String} {after : List Char}
    (each : List.Forall₂ (ItemText depth) values texts) (nonempty : texts ≠ [])
    (closing : Blank after) :
    SpellsItems depth values ((",".intercalate texts).toList ++ (after ++ [']'])) := by
  induction each with
  | nil => contradiction
  | @cons value text values texts item each ih =>
    obtain ⟨before, chars, spelled, blank, item⟩ := item
    cases each with
    | nil =>
      rw [String.intercalate_singleton, spelled, List.append_assoc]
      exact .last blank item closing
    | cons second each =>
      rw [String.intercalate_cons_of_ne_nil (List.cons_ne_nil _ _)]
      simp only [String.toList_append, spelled, List.append_assoc]
      exact .next blank item (ih (List.cons_ne_nil _ _))

/-- Texts of members that are joined by commas spell the members of an object. -/
theorem spellsMembers_intercalate {members : List (String × Json)} {texts : List String}
    {after : List Char} (each : List.Forall₂ (MemberText depth) members texts)
    (nonempty : texts ≠ []) (closing : Blank after) :
    SpellsMembers depth members ((",".intercalate texts).toList ++ (after ++ ['\x7d'])) := by
  induction each with
  | nil => contradiction
  | @cons member text members texts item each ih =>
    obtain ⟨before, between, chars, spelled, blank, apart, item⟩ := item
    cases each with
    | nil =>
      rw [String.intercalate_singleton, spelled]
      simp only [List.append_assoc, List.cons_append]
      exact .last blank apart item closing
    | cons second each =>
      rw [String.intercalate_cons_of_ne_nil (List.cons_ne_nil _ _)]
      simp only [String.toList_append, spelled, List.append_assoc, List.cons_append]
      exact .next blank apart item (ih (List.cons_ne_nil _ _))

/-- No characters are blanks. -/
theorem blank_nil : Blank [] := fun _ none => absurd none List.not_mem_nil

/-- The start of a line is blanks. -/
theorem blank_newLine (level : Nat) : Blank (newLine level).toList := by
  intro char listed
  rw [newLine, String.toList_append, List.mem_append] at listed
  rcases listed with listed | listed
  · obtain rfl : char = '\n' := by simpa using listed
    decide
  · rw [String.toList_ofList] at listed
    obtain rfl := List.eq_of_mem_replicate listed
    decide

/-- A value on a line of its own. -/
theorem ItemText.onLine {text : String} (item : ItemText depth value text) (level : Nat) :
    ItemText depth value (newLine level ++ text) := by
  obtain ⟨before, chars, spelled, blank, item⟩ := item
  refine ⟨(newLine level).toList ++ before, chars, ?_, ?_, item⟩
  · rw [String.toList_append, spelled, List.append_assoc]
  · exact List.forall_mem_append.mpr ⟨blank_newLine level, blank⟩

/-- A member on a line of its own. -/
theorem MemberText.onLine {member : String × Json} {text : String}
    (item : MemberText depth member text) (level : Nat) :
    MemberText depth member (newLine level ++ text) := by
  obtain ⟨before, between, chars, spelled, blank, apart, item⟩ := item
  refine ⟨(newLine level).toList ++ before, between, chars, ?_, ?_, apart, item⟩
  · rw [String.toList_append, spelled, List.append_assoc]
  · exact List.forall_mem_append.mpr ⟨blank_newLine level, blank⟩

/-- Texts of values spell an array between its brackets. -/
theorem spells_array {values : List Json} {texts : List String}
    (each : List.Forall₂ (ItemText depth) values texts) :
    Spells (depth + 1) (array values) ("[" ++ ",".intercalate texts ++ "]").toList := by
  cases each with
  | nil => exact .noValues
  | cons first each =>
    rw [String.toList_append, String.toList_append, List.append_assoc]
    exact .array (spellsItems_intercalate (.cons first each) (List.cons_ne_nil _ _) blank_nil)

/-- Texts of members spell an object between its braces. -/
theorem spells_object {members : List (String × Json)} {texts : List String}
    (each : List.Forall₂ (MemberText depth) members texts) :
    Spells (depth + 1) (object members) ("\x7b" ++ ",".intercalate texts ++ "\x7d").toList := by
  cases each with
  | nil => exact .noMembers
  | cons first each =>
    rw [String.toList_append, String.toList_append, List.append_assoc]
    exact .object (spellsMembers_intercalate (.cons first each) (List.cons_ne_nil _ _) blank_nil)

/-- Texts of values on lines of their own spell an array. -/
theorem spells_array_onLines {values : List Json} {texts : List String} (level : Nat)
    (each : List.Forall₂ (ItemText depth) values texts) :
    Spells (depth + 1) (array values) (onLines "[" "]" level texts).toList := by
  have lines : List.Forall₂ (ItemText depth) values (texts.map (newLine (level + 1) ++ ·)) :=
    List.forall₂_map_right_iff.mpr (each.imp fun _ _ item => item.onLine (level + 1))
  cases each with
  | nil =>
    have spelled : (onLines "[" "]" level []).toList = ['[', ']'] := by simp [onLines]
    exact spelled ▸ .noValues
  | cons first each =>
    have spelled := spellsItems_intercalate lines (List.cons_ne_nil _ _) (blank_newLine level)
    simp only [onLines, List.isEmpty_cons, Bool.false_eq_true, if_false, String.toList_append,
      List.append_assoc]
    exact .array spelled

/-- Texts of members on lines of their own spell an object. -/
theorem spells_object_onLines {members : List (String × Json)} {texts : List String} (level : Nat)
    (each : List.Forall₂ (MemberText depth) members texts) :
    Spells (depth + 1) (object members) (onLines "\x7b" "\x7d" level texts).toList := by
  have lines : List.Forall₂ (MemberText depth) members (texts.map (newLine (level + 1) ++ ·)) :=
    List.forall₂_map_right_iff.mpr (each.imp fun _ _ item => item.onLine (level + 1))
  cases each with
  | nil =>
    have spelled : (onLines "\x7b" "\x7d" level []).toList = ['\x7b', '\x7d'] := by simp [onLines]
    exact spelled ▸ .noMembers
  | cons first each =>
    have spelled := spellsMembers_intercalate lines (List.cons_ne_nil _ _) (blank_newLine level)
    simp only [onLines, List.isEmpty_cons, Bool.false_eq_true, if_false, String.toList_append,
      List.append_assoc]
    exact .object spelled

mutual

/-- A value without white space spells the value. -/
theorem spells_compact : ∀ {depth : Nat} {value : Json}, Fits depth value →
    Spells depth value value.compact.toList
  | _, null, _ => .null
  | _, .bool value, _ => .bool value
  | _, integer _, held => .integer held
  | _, real _, finite => .real finite
  | _, .string _, _ => .string
  | _ + 1, array _, fits => spells_array (spells_compactAll fits)
  | _ + 1, object _, fits => spells_object (spells_compactMembers fits)

/-- Values without white space spell the values. -/
theorem spells_compactAll : ∀ {depth : Nat} {values : List Json}, FitAll depth values →
    List.Forall₂ (ItemText depth) values (compactAll values)
  | _, [], _ => .nil
  | _, _ :: _, fits =>
    .cons ⟨[], _, rfl, blank_nil, spells_compact fits.1⟩ (spells_compactAll fits.2)

/-- Members without white space spell the members. -/
theorem spells_compactMembers : ∀ {depth : Nat} {members : List (String × Json)},
    FitMembers depth members → List.Forall₂ (MemberText depth) members (compactMembers members)
  | _, [], _ => .nil
  | _, _ :: _, fits =>
    .cons ⟨[], [], _, by simp, blank_nil, blank_nil, spells_compact fits.1⟩
      (spells_compactMembers fits.2)

end

mutual

/-- A value over several lines spells the value. -/
theorem spells_prettyAt : ∀ {depth : Nat} {value : Json} (level : Nat), Fits depth value →
    Spells depth value (value.prettyAt level).toList
  | _, null, _, _ => .null
  | _, .bool value, _, _ => .bool value
  | _, integer _, _, held => .integer held
  | _, real _, _, finite => .real finite
  | _, .string _, _, _ => .string
  | _ + 1, array _, level, fits => spells_array_onLines level (spells_prettyAll (level + 1) fits)
  | _ + 1, object _, level, fits =>
    spells_object_onLines level (spells_prettyMembers (level + 1) fits)

/-- Values over several lines spell the values. -/
theorem spells_prettyAll : ∀ {depth : Nat} {values : List Json} (level : Nat),
    FitAll depth values → List.Forall₂ (ItemText depth) values (prettyAll level values)
  | _, [], _, _ => .nil
  | _, _ :: _, level, fits =>
    .cons ⟨[], _, rfl, blank_nil, spells_prettyAt level fits.1⟩ (spells_prettyAll level fits.2)

/-- Members over several lines spell the members. -/
theorem spells_prettyMembers : ∀ {depth : Nat} {members : List (String × Json)} (level : Nat),
    FitMembers depth members →
      List.Forall₂ (MemberText depth) members (prettyMembers level members)
  | _, [], _, _ => .nil
  | _, _ :: _, level, fits =>
    .cons ⟨[], [' '], _, by simp, blank_nil, by simp [Blank, isSpace], spells_prettyAt level fits.1⟩
      (spells_prettyMembers level fits.2)

end

/-! ## Whole texts -/

/-- A text that spells a value is read as it. -/
theorem read?_of_spells {text : String} (spells : Spells maxDepth value text.toList) :
    read? text = some value := by
  have enough : 2 * text.toList.length ≤ 2 * (text.toList.length + 1) := by omega
  have read := spells.value?_eq [] enough (by rintro _ ⟨⟩)
  rw [List.append_nil] at read
  rw [read?, read]
  rfl

/-- A value within the limits of the reader is got back from its text without white space. -/
theorem read?_compact (fits : Fits maxDepth value) : read? value.compact = some value :=
  read?_of_spells (spells_compact fits)

/-- A value within the limits of the reader is got back from its text over several lines. -/
theorem read?_pretty (fits : Fits maxDepth value) : read? value.pretty = some value :=
  read?_of_spells (spells_prettyAt 0 fits)

end Json

end CaretName
