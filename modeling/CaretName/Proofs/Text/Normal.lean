import CaretName.Proofs.Text.Compact
import Mathlib.Data.List.Induction

/-!
# The normal form of a type

Compacting goes over a text once and decides about white space by what it has written last.
`compactType_normal` says what comes of it: nothing but white space is lost, what is left of it are
single spaces after commas and between words that it divided, and how much of it there was, or
whether there was any where it divides no words, makes no difference.
-/
namespace CaretName

variable {last : Option Char} {pending : Bool} {chars : List Char}

/-! ## What is written -/

/-- Neither a space nor a comma is part of a word. -/
theorem isWordlike_signs : isWordlike ' ' = false ∧ isWordlike ',' = false := by decide

/-- A character of a word is written as it is. -/
theorem spread_of_isWordlike {char : Char} (word : isWordlike char = true) :
    spread char = [char] := by
  have noComma : char ≠ ',' := by
    rintro rfl
    simp [isWordlike_signs] at word
  simp [spread, noComma]

/-- What is written besides a character is the space after a comma. -/
theorem eq_of_spread {char other : Char} {front back : List Char}
    (parted : spread char = front ++ other :: back) (different : char ≠ other) :
    char = ',' ∧ front = [','] ∧ other = ' ' ∧ back = [] := by
  by_cases comma : char = ','
  · subst comma
    have parted : ',' :: [' '] = front ++ other :: back := parted
    cases front with
    | nil => exact absurd (List.cons.inj parted).1 different
    | cons first front =>
      obtain ⟨rfl, rest⟩ := List.cons.inj parted
      obtain ⟨rfl, same⟩ := List.singleton_eq_append_iff.mp rest |>.resolve_right (by simp)
      obtain ⟨rfl, rfl⟩ := List.cons.inj same
      exact ⟨rfl, rfl, rfl, rfl⟩
  · have alone : [char] = front ++ other :: back := by simpa [spread, comma] using parted
    obtain ⟨_, same⟩ := List.singleton_eq_append_iff.mp alone |>.resolve_right (by simp)
    exact absurd (List.cons.inj same).1.symm different

/-- A character of a word is no white space. -/
theorem isBlank_of_isWordlike {char : Char} (word : isWordlike char = true) :
    isBlank char = false := by
  rw [Bool.eq_false_iff]
  intro blank
  rw [isWordlike_of_isBlank blank] at word
  contradiction

/-! ## Compacting again -/

/-- What was written is written again in the same way, even if white space is pending where no word
ended. Induction on the source; the space after a comma is what is pending when the text is read
again. -/
theorem compactAfter_compactAfter (chars : List Char) {again : Bool}
    (loose : again = true → last.any isWordlike = false) :
    compactAfter last again (compactAfter last pending chars) =
      compactAfter last pending chars := by
  induction chars generalizing last pending again with
  | nil => rfl
  | cons char chars ih =>
    rw [compactAfter]
    cases blank : isBlank char with
    | true => simpa using ih loose
    | false =>
      simp only [Bool.false_eq_true, if_false]
      cases divides : pending && last.any isWordlike && isWordlike char with
      | true =>
        obtain ⟨⟨_, ended⟩, word⟩ : (pending = true ∧ last.any isWordlike = true) ∧
            isWordlike char = true := by simpa using divides
        have noComma : char ≠ ',' := by
          rintro rfl
          simp [isWordlike_signs] at word
        have space : isBlank ' ' = true := by decide
        have rest : compactAfter (some char) false (compactAfter (some char) false chars) = _ :=
          ih (by simp)
        simp [spread_of_isWordlike word, compactAfter, space, blank, ended, word, noComma, rest]
      | false =>
        have silent : (again && last.any isWordlike && isWordlike char) = false := by
          cases again with
          | false => rfl
          | true => simp [loose rfl]
        by_cases comma : char = ','
        · subst comma
          have space : isBlank ' ' = true := by decide
          have rest : compactAfter (some ' ') true (compactAfter (some ' ') false chars) = _ :=
            ih fun _ => isWordlike_signs.1
          simp [spread, compactAfter, blank, silent, space, rest]
        · have rest : compactAfter (some char) false (compactAfter (some char) false chars) = _ :=
            ih (by simp)
          simp [spread, comma, compactAfter, blank, silent, rest]

/-! ## White space that is left -/

/-- What is written starts with white space only between two words. -/
theorem head?_compactAfter (loose : last.any isWordlike = false) (chars : List Char) :
    ∀ char ∈ (compactAfter last pending chars).head?, isBlank char = false := by
  induction chars generalizing pending with
  | nil => simp [compactAfter]
  | cons char chars ih =>
    rw [compactAfter]
    cases blank : isBlank char with
    | true => simpa using ih
    | false =>
      have first : (spread char).head? = some char := by
        unfold spread
        split
        · next comma => rw [eq_of_beq comma]; rfl
        · rfl
      simp [loose, List.head?_append, first, blank]

/-- White space comes from a place in the source: it is the space after a comma, or stands for white
space between two words. -/
inductive Leaves (last : Option Char) (pending : Bool) :
    List Char → List Char → List Char → Prop
  | afterComma (before after : List Char) :
    Leaves last pending (before ++ ',' :: after) (compactAfter last pending before ++ [','])
      (compactAfter (some ' ') false after)
  | between {before : List Char} {next : Char} (after : List Char)
    (divided : (afterRun last pending before).2 = true)
    (ended : (afterRun last pending before).1.any isWordlike = true)
    (starts : isWordlike next = true) :
    Leaves last pending (before ++ next :: after) (compactAfter last pending before)
      (next :: compactAfter (some next) false after)

/-- White space in front only makes some pending. -/
theorem Leaves.cons_blank {char : Char} {front back : List Char} (blank : isBlank char = true)
    (leaves : Leaves last true chars front back) :
    Leaves last pending (char :: chars) front back := by
  have written (before : List Char) :
      compactAfter last true before = compactAfter last pending (char :: before) := by
    simp [compactAfter, blank]
  have read (before : List Char) :
      afterRun last true before = afterRun last pending (char :: before) := by
    simp [afterRun, blank]
  cases leaves with
  | afterComma before after =>
    rw [written]
    exact .afterComma (char :: before) after
  | between after divided ended starts =>
    rw [read] at divided ended
    rw [written]
    exact .between after divided ended starts

/-- A character in front is written in front. -/
theorem Leaves.cons_solid {char : Char} {front back : List Char} (solid : isBlank char = false)
    (leaves : Leaves (some (if char == ',' then ' ' else char)) false chars front back) :
    Leaves last pending (char :: chars)
      ((if pending && last.any isWordlike && isWordlike char then [' '] else []) ++ spread char ++
        front) back := by
  have written (before : List Char) : compactAfter last pending (char :: before) =
      (if pending && last.any isWordlike && isWordlike char then [' '] else []) ++ spread char ++
        compactAfter (some (if char == ',' then ' ' else char)) false before := by
    simp [compactAfter, solid]
  have read (before : List Char) : afterRun last pending (char :: before) =
      afterRun (some (if char == ',' then ' ' else char)) false before := by
    simp [afterRun, solid]
  cases leaves with
  | afterComma before after =>
    rw [← List.append_assoc, ← written]
    exact .afterComma (char :: before) after
  | between after divided ended starts =>
    rw [← read] at divided ended
    rw [← written]
    exact .between after divided ended starts

/-- All white space that is written is a space and comes from somewhere. Induction on the source:
what is written for its first character is followed by what is written for the others. -/
theorem leaves_of_isBlank {front back : List Char} {char : Char}
    (parted : compactAfter last pending chars = front ++ char :: back)
    (blank : isBlank char = true) : char = ' ' ∧ Leaves last pending chars front back := by
  induction chars generalizing last pending front with
  | nil => simp [compactAfter] at parted
  | cons first chars ih =>
    rw [compactAfter] at parted
    split at parted
    · next blankFirst =>
      obtain ⟨space, leaves⟩ := ih parted
      exact ⟨space, leaves.cons_blank blankFirst⟩
    next visible =>
    have solid : isBlank first = false := by simpa using visible
    have other : first ≠ char := by
      rintro rfl
      contradiction
    rcases List.append_eq_append_iff.mp parted with ⟨later, rfl, rest⟩ | ⟨later, own, rest⟩
    · obtain ⟨space, leaves⟩ := ih rest
      exact ⟨space, leaves.cons_solid solid⟩
    cases later with
    | nil =>
      obtain ⟨space, leaves⟩ :=
        ih (show compactAfter _ false chars = [] ++ char :: back from rest.symm)
      have whole : Leaves last pending (first :: chars) _ back := leaves.cons_solid solid
      rw [own] at whole
      exact ⟨space, by simpa using whole⟩
    | cons _ later =>
      obtain ⟨rfl, rfl⟩ := List.cons.inj rest
      -- What is written for the first character is white space but for itself.
      cases divides : pending && last.any isWordlike && isWordlike first with
      | true =>
        obtain ⟨⟨divided, ended⟩, starts⟩ : (pending = true ∧ last.any isWordlike = true) ∧
            isWordlike first = true := by simpa using divides
        have noComma : first ≠ ',' := by
          rintro rfl
          simp [isWordlike_signs] at starts
        rw [divides, spread_of_isWordlike starts] at own
        obtain ⟨rfl, rfl, rfl⟩ : front = [] ∧ char = ' ' ∧ later = [first] := by
          cases front with
          | nil => simpa [eq_comm] using own
          | cons _ front => cases front <;> simp_all
        have between : Leaves last pending ([] ++ first :: chars) _ _ :=
          .between chars divided ended starts
        exact ⟨rfl, by simpa [noComma, compactAfter] using between⟩
      | false =>
        have written : spread first = front ++ char :: later := by simpa [divides] using own
        obtain ⟨rfl, rfl, rfl, rfl⟩ := eq_of_spread written other
        have afterComma : Leaves last pending ([] ++ ',' :: chars) _ _ := .afterComma [] chars
        exact ⟨rfl, by simpa [compactAfter] using afterComma⟩

/-- A text that a word ends, white space aside, is a text that ends in a word and white space. -/
theorem exists_of_afterRun {before : List Char} {final : Char}
    (ended : (afterRun none false before).1 = some final) (word : isWordlike final = true) :
    ∃ kept gap, before = kept ++ gap ∧ kept.getLast? = some final ∧
      (∀ char ∈ gap, isBlank char = true) ∧ ((afterRun none false before).2 = true → gap ≠ []) := by
  induction before using List.reverseRec with
  | nil => simp [afterRun] at ended
  | append_singleton before char ih =>
    rw [afterRun_concat] at ended ⊢
    cases blank : isBlank char with
    | true =>
      simp only [blank, if_true] at ended
      obtain ⟨kept, gap, rfl, last, white, _⟩ := ih ended
      refine ⟨kept, gap ++ [char], by simp, last, fun other inside => ?_, by simp⟩
      rcases List.mem_append.mp inside with front | back
      · exact white other front
      · exact List.mem_singleton.mp back ▸ blank
    | false =>
      have same : (if char == ',' then ' ' else char) = final := by simpa [blank] using ended
      have noComma : ¬ (char == ',') = true := by
        intro comma
        rw [if_pos comma] at same
        rw [← same, isWordlike_signs.1] at word
        contradiction
      rw [if_neg noComma] at same
      exact ⟨before ++ [char], [], by simp, by simp [same], by simp, by simp⟩

/-- A text that ends in a word is written with its end. -/
theorem getLast?_compact {kept : List Char} {final : Char} (ends : kept.getLast? = some final)
    (word : isWordlike final = true) : (compact kept).getLast? = some final := by
  obtain ⟨front, rfl⟩ := List.getLast?_eq_some_iff.mp ends
  rw [compact, compactAfter_append]
  simp [compactAfter, isBlank_of_isWordlike word, spread_of_isWordlike word]

/-- White space at the end is not written. -/
theorem compact_append_gap {gap : List Char} (white : ∀ char ∈ gap, isBlank char = true)
    (kept : List Char) : compact (kept ++ gap) = compact kept := by
  have nothing : ∀ {last pending}, compactAfter last pending gap = [] := by
    intro last pending
    have passed : compactAfter last pending (gap ++ []) = _ := compactAfter_gap white
    simpa [compactAfter] using passed
  rw [compact, compactAfter_append, nothing, List.append_nil, compact]

/-! ## White space that makes no difference -/

/-- Pending white space makes no difference unless words meet. -/
theorem compactAfter_pending_eq
    (loose : last.any isWordlike = false ∨ ∀ char ∈ chars.head?, isWordlike char = false) :
    compactAfter last true chars = compactAfter last pending chars := by
  cases chars with
  | nil => rfl
  | cons char chars =>
    have apart : (last.any isWordlike && isWordlike char) = false := by
      rcases loose with ended | starts
      · rw [ended, Bool.false_and]
      · rw [starts char rfl, Bool.and_false]
    rw [compactAfter, compactAfter, Bool.true_and, Bool.and_assoc, apart, Bool.and_false]

/-! ## Texts -/

/-- A text that is white space, and not empty. -/
def IsGap (gap : String) : Prop := gap ≠ "" ∧ ∀ char ∈ gap.toList, isBlank char = true

/-- A character that is neither white space nor part of a word. -/
def IsSign (char : Char) : Prop := isBlank char = false ∧ isWordlike char = false

/-- The white space before a place in a compact text stands for white space that divides two words
of the text. -/
structure Divides (text : String) (front back : List Char) (before gap after : String)
    (word next : Char) : Prop where
  parted : text = before ++ gap ++ after
  gap : IsGap gap
  ends : before.toList.getLast? = some word ∧ isWordlike word = true
  starts : after.toList.head? = some next ∧ isWordlike next = true
  front : front = (compactType before).toList ∧ front.getLast? = some word
  back : back = (compactType after).toList ∧ back.head? = some next

variable {text before after gap gap' : String} {front back : List Char} {char : Char}

/-- A text that is compact already stays as it is. -/
theorem compactType_compactType (text : String) :
    compactType (compactType text) = compactType text := by
  rw [compactType, compactType, String.toList_ofList, compact, compact,
    compactAfter_compactAfter _ (by simp)]

/-- Nothing but white space is lost or added. -/
theorem withoutBlanks_compactType (text : String) :
    withoutBlanks (compactType text) = withoutBlanks text := by
  rw [withoutBlanks, withoutBlanks, compactType, String.toList_ofList, compact,
    filter_compactAfter]

/-- White space in a compact text is the space after a comma or divides two words. -/
theorem compactType_isBlank (parted : (compactType text).toList = front ++ char :: back)
    (blank : isBlank char = true) : char = ' ' ∧ (front.getLast? = some ',' ∧
        (∀ next ∈ back.head?, isBlank next = false) ∨
      ∃ before gap after word next, Divides text front back before gap after word next) := by
  rw [compactType, String.toList_ofList, compact] at parted
  obtain ⟨space, leaves⟩ := leaves_of_isBlank parted blank
  refine ⟨space, ?_⟩
  generalize whole : text.toList = chars at leaves
  cases leaves with
  | afterComma before after =>
    have loose : (some ' ').any isWordlike = false := isWordlike_signs.1
    exact .inl ⟨by simp, head?_compactAfter loose after⟩
  | @between before next after divided ended starts =>
    obtain ⟨word, last, isWord⟩ := (Option.any_eq_true _ _).mp ended
    obtain ⟨kept, gap, rfl, ends, white, some_gap⟩ := exists_of_afterRun last isWord
    have noComma : next ≠ ',' := by
      rintro rfl
      simp [isWordlike_signs] at starts
    have written : compact (next :: after) = next :: compactAfter (some next) false after := by
      simp [compact, compactAfter, isBlank_of_isWordlike starts, spread_of_isWordlike starts,
        noComma]
    refine .inr ⟨String.ofList kept, String.ofList gap, String.ofList (next :: after), word, next,
      ?_, ⟨by simpa using some_gap divided, by simpa using white⟩, by simpa using ⟨ends, isWord⟩,
      by simpa using starts, ?_, ?_⟩
    · rw [← String.toList_inj, whole]
      simp
    · rw [compactType, String.toList_ofList, String.toList_ofList]
      have same : compactAfter none false (kept ++ gap) = compact kept := compact_append_gap white kept
      exact ⟨same, same ▸ getLast?_compact ends isWord⟩
    · rw [compactType, String.toList_ofList, String.toList_ofList]
      exact ⟨written.symm, rfl⟩

/-- What a text with white space in it comes to. -/
theorem compactType_gap (isGap : IsGap gap) (before after : String) :
    (compactType (before ++ gap ++ after)).toList =
      compact before.toList ++
        compactAfter (afterRun none false before.toList).1 true after.toList := by
  have filled : gap.toList.isEmpty = false := by simpa using isGap.1
  rw [compactType, String.toList_ofList, compact, String.toList_append, String.toList_append,
    List.append_assoc, compactAfter_append, compactAfter_gap isGap.2, filled, compact]
  simp

/-- How much white space there is in a place makes no difference. -/
theorem compactType_gap_congr (isGap : IsGap gap) (isGap' : IsGap gap') (before after : String) :
    compactType (before ++ gap ++ after) = compactType (before ++ gap' ++ after) := by
  rw [← String.toList_inj, compactType_gap isGap, compactType_gap isGap']

/-- Whether a text may have white space in a place without a difference: at its start or end, or
next to a sign. -/
def Indifferent (before after : String) : Prop :=
  before = "" ∨ after = "" ∨ (∃ char, before.toList.getLast? = some char ∧ IsSign char) ∨
    ∃ char, after.toList.head? = some char ∧ IsSign char

/-- In such a place white space makes no difference. -/
theorem compactType_gap_of_indifferent (isGap : IsGap gap) (loose : Indifferent before after) :
    compactType (before ++ gap ++ after) = compactType (before ++ after) := by
  rw [← String.toList_inj, compactType_gap isGap]
  rw [compactType, String.toList_ofList, String.toList_append, compact, compact,
    compactAfter_append]
  refine congrArg _ (compactAfter_pending_eq ?_)
  rcases loose with rfl | rfl | ⟨char, ends, sign⟩ | ⟨char, starts, sign⟩
  · exact .inl rfl
  · exact .inr (by simp)
  · obtain ⟨chars, same⟩ := List.getLast?_eq_some_iff.mp ends
    left
    rw [same, afterRun_concat, sign.1]
    by_cases comma : char = ','
    · simp [comma, isWordlike_signs]
    · simp [comma, sign.2]
  · right
    rw [starts]
    rintro _ ⟨⟩
    exact sign.2

/-- Compact texts are normal forms. Compacting twice is compacting once. Nothing but white space is
lost, and the white space that is left are single spaces, each of which follows a comma or stands
for white space that divided two words. How much white space there is in a place of the text makes
no difference, and at the start, at the end and next to a sign neither does whether there is any. -/
theorem compactType_normal :
    (∀ text, compactType (compactType text) = compactType text) ∧
    (∀ text, withoutBlanks (compactType text) = withoutBlanks text) ∧
    (∀ (text : String) front char back, (compactType text).toList = front ++ char :: back →
      isBlank char = true → char = ' ' ∧
        (∀ other ∈ front.getLast?, isBlank other = false) ∧
        (∀ other ∈ back.head?, isBlank other = false) ∧
        (front.getLast? = some ',' ∨ ∃ before gap after word next,
          Divides text front back before gap after word next)) ∧
    (∀ before gap gap' after, IsGap gap → IsGap gap' →
      compactType (before ++ gap ++ after) = compactType (before ++ gap' ++ after)) ∧
    ∀ before gap after, IsGap gap → Indifferent before after →
      compactType (before ++ gap ++ after) = compactType (before ++ after) := by
  refine ⟨compactType_compactType, withoutBlanks_compactType, fun text front char back parted
    blank => ?_, fun before _ _ after isGap isGap' => compactType_gap_congr isGap isGap' before after,
    fun _ _ _ => compactType_gap_of_indifferent⟩
  obtain ⟨space, comma | ⟨before, gap, after, word, next, divides⟩⟩ :=
    compactType_isBlank parted blank
  · refine ⟨space, ?_, comma.2, .inl comma.1⟩
    rw [comma.1]
    rintro _ ⟨⟩
    decide
  · refine ⟨space, ?_, ?_, .inr ⟨before, gap, after, word, next, divides⟩⟩
    · rw [divides.front.2]
      rintro _ ⟨⟩
      exact isBlank_of_isWordlike divides.ends.2
    · rw [divides.back.2]
      rintro _ ⟨⟩
      exact isBlank_of_isWordlike divides.starts.2

/-- White space between words and elsewhere comes to what it stands for. -/
theorem compactType_normal_wildcard :
    compactType ("Map < ? " ++ "\n\t" ++ "extends A,B >") =
      compactType ("Map < ? " ++ " " ++ "extends A,B >") ∧
    compactType ("Map" ++ " " ++ "<? extends A,B>") = compactType ("Map" ++ "<? extends A,B>") ∧
    compactType (compactType "Map < ? extends A,B >") = "Map<? extends A, B>" ∧
    withoutBlanks "Map<? extends A, B>" = withoutBlanks "Map < ? extends A,B >" ∧
    ∃ before gap after word next, Divides "Map < ? extends A,B >" "Map<?".toList
      "extends A, B>".toList before gap after word next := by
  have gap (gap : String) (some : gap ≠ "") (blank : gap.toList.all isBlank = true) : IsGap gap :=
    ⟨some, List.all_eq_true.mp blank⟩
  have space := gap " " (by decide) (by decide)
  have line := gap "\n\t" (by decide) (by decide)
  have sign : Indifferent "Map" "<? extends A,B>" :=
    .inr (.inr (.inr ⟨'<', by decide, by decide, by decide⟩))
  have shown : compactType "Map < ? extends A,B >" = "Map<? extends A, B>" := by decide +kernel
  obtain ⟨again, kept, blanks, amount, loose⟩ := compactType_normal
  have own := kept "Map < ? extends A,B >"
  rw [shown] at own
  refine ⟨amount _ _ _ _ line space, loose _ _ _ space sign, (again _).trans shown, own, ?_⟩
  have parted : (compactType "Map < ? extends A,B >").toList =
      "Map<?".toList ++ ' ' :: "extends A, B>".toList := by
    rw [shown]
    decide
  obtain ⟨_, _, _, comma | divides⟩ := blanks _ _ _ _ parted (by decide)
  · exact absurd comma (by decide)
  · exact divides

end CaretName
