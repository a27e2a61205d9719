import CaretName.Proofs.Tree.Pieces
import CaretName.Text.Compact
import CaretName.Text.Identifier

/-!
# What is kept of white space

A type is compacted character by character, but what is kept of the white space in it is decided
between its pieces: white space matters only where the last character of one piece and the first
of the next are both those of words. `compact_joined_iff` says that two ways to write the same
pieces come out the same exactly when they agree about white space at all those places.
-/
namespace CaretName

/-! ## Classes of characters -/

namespace CharRange

/-- Whether no character lies in ranges of both lists. -/
def apart (ranges others : List CharRange) : Bool :=
  ranges.all fun range => others.all fun other => range.2 < other.1 || other.2 < range.1

/-- A character in ranges apart from others is not in these. -/
theorem anyHolds_eq_false {ranges others : List CharRange} (disjoint : apart ranges others = true)
    {char : Char} (inside : anyHolds ranges char = true) : anyHolds others char = false := by
  rw [Bool.eq_false_iff]
  intro among
  obtain ⟨range, listed, holds⟩ := List.any_eq_true.mp inside
  obtain ⟨other, listed', holds'⟩ := List.any_eq_true.mp among
  have away := List.all_eq_true.mp (List.all_eq_true.mp disjoint range listed) other listed'
  simp only [Bool.and_eq_true, Bool.or_eq_true, decide_eq_true_eq] at holds holds' away
  omega

end CharRange

/-- White space is no part of a word. -/
theorem isWordlike_of_isBlank {char : Char} (blank : isBlank char = true) :
    isWordlike char = false := by
  have signs : ∀ sign ∈ ['_', '$', '?', '&'], char ≠ sign := by
    intro sign listed same
    have solid : ['_', '$', '?', '&'].all (!isBlank ·) = true := by decide
    have holds := List.all_eq_true.mp solid sign listed
    rw [← same, blank] at holds
    contradiction
  have noLetter : isLetterOrDigit char = false := by
    rw [isBlank] at blank
    rw [isLetterOrDigit]
    split at blank
    · next narrow =>
      rw [if_pos narrow]
      have low : char.toNat < 48 := by
        simp only [Bool.or_eq_true, Bool.and_eq_true, decide_eq_true_eq, beq_iff_eq] at blank
        rcases blank with range | rfl
        · exact Nat.lt_of_le_of_lt range.2 (by decide)
        · decide
      have early : (List.range 48).all (fun code => !(Char.ofNat code).isAlphanum) = true := by
        decide
      have own := List.all_eq_true.mp early char.toNat (List.mem_range.mpr low)
      simpa [Char.ofNat_toNat] using own
    · next wide =>
      rw [if_neg wide]
      exact CharRange.anyHolds_eq_false (by decide +kernel) blank
  simp [isWordlike, noLetter, signs]

/-- White space is no part of an identifier. -/
theorem continuesIdentifier_of_isBlank {char : Char} (blank : isBlank char = true) :
    continuesIdentifier char = false := by
  rw [isBlank] at blank
  split at blank
  · next narrow =>
    have low : char.toNat < 33 := by
      simp only [Bool.or_eq_true, Bool.and_eq_true, decide_eq_true_eq, beq_iff_eq] at blank
      rcases blank with range | rfl
      · omega
      · decide
    have early : (List.range 33).all (fun code => !continuesIdentifier (Char.ofNat code)) =
        true := by
      decide +kernel
    have own := List.all_eq_true.mp early char.toNat (List.mem_range.mpr low)
    simpa [Char.ofNat_toNat] using own
  · next wide =>
    have starts : CharRange.anyHolds wideIdentifierStarts char = false :=
      CharRange.anyHolds_eq_false (by decide +kernel) blank
    have marks : CharRange.anyHolds wideIdentifierMarks char = false :=
      CharRange.anyHolds_eq_false (by decide +kernel) blank
    rw [continuesIdentifier, startsIdentifier, if_neg wide, if_neg wide, starts, marks]
    rfl

/-! ## Runs of characters -/

/-- What compacting depends on after a run of characters: the last character written, and whether
white space is pending. -/
def afterRun (last : Option Char) (pending : Bool) : List Char → Option Char × Bool
  | [] => (last, pending)
  | char :: chars =>
    if isBlank char then afterRun last true chars
    else afterRun (some (if char == ',' then ' ' else char)) false chars

variable {last : Option Char} {pending : Bool} {char : Char} {rest rest' more more' : List Char}

/-- The last character of a run decides what compacting depends on. -/
theorem afterRun_concat (run : List Char) : afterRun last pending (run ++ [char]) =
    if isBlank char then ((afterRun last pending run).1, true)
    else (some (if char == ',' then ' ' else char), false) := by
  induction run generalizing last pending with
  | nil => rfl
  | cons first run ih =>
    rw [List.cons_append, afterRun, afterRun]
    split
    · exact ih
    · exact ih

/-- After a run a space can follow at once if it ends like a word. -/
theorem afterRun_wordlike {run : List Char} (ends : run.getLast? = some char) :
    (!(afterRun last pending run).2 && (afterRun last pending run).1.any isWordlike) =
      isWordlike char := by
  obtain ⟨front, rfl⟩ := List.getLast?_eq_some_iff.mp ends
  rw [afterRun_concat]
  cases blank : isBlank char with
  | true => simp [isWordlike_of_isBlank blank]
  | false =>
    by_cases comma : char = ','
    · have neither : isWordlike ' ' = false ∧ isWordlike ',' = false := by decide
      simp [comma, neither]
    · simp [comma]

/-- White space is pending after some of it. -/
theorem compactAfter_gap {gap : List Char} (blank : ∀ char ∈ gap, isBlank char = true) :
    compactAfter last pending (gap ++ rest) = compactAfter last (pending || !gap.isEmpty) rest := by
  induction gap generalizing pending with
  | nil => simp
  | cons char gap ih =>
    rw [List.cons_append, compactAfter, if_pos (blank char List.mem_cons_self),
      ih fun other inside => blank other (List.mem_cons_of_mem _ inside)]
    simp

/-- A character is written, up to white space. -/
theorem filter_spread {char : Char} (solid : isBlank char = false) :
    (spread char).filter (!isBlank ·) = [char] := by
  unfold spread
  split
  · next comma =>
    obtain rfl : char = ',' := eq_of_beq comma
    decide
  · simp [solid]

/-- All characters but white space are written, in order. -/
theorem filter_compactAfter (run : List Char) :
    (compactAfter last pending run).filter (!isBlank ·) = run.filter (!isBlank ·) := by
  induction run generalizing last pending with
  | nil => rfl
  | cons char run ih =>
    rw [compactAfter]
    cases blank : isBlank char with
    | true => simpa [blank] using ih
    | false =>
      have space : isBlank ' ' = true := by decide
      have divider : (if pending && last.any isWordlike && isWordlike char then [' ']
          else []).filter (!isBlank ·) = [] := by
        split <;> simp [space]
      simp only [Bool.false_eq_true, if_false, List.filter_append, divider, List.nil_append,
        filter_spread blank, ih]
      simp [blank]

/-- What is written after a run depends on the run only through `afterRun`. -/
theorem compactAfter_append (run rest : List Char) :
    compactAfter last pending (run ++ rest) = compactAfter last pending run ++
      compactAfter (afterRun last pending run).1 (afterRun last pending run).2 rest := by
  induction run generalizing last pending with
  | nil => rfl
  | cons char run ih =>
    rw [List.cons_append, compactAfter, compactAfter, afterRun]
    split
    · exact ih
    · simp only [ih, List.append_assoc]

/-- The same run is written in the same way. -/
theorem compactAfter_run (run : List Char) :
    compactAfter last pending (run ++ rest) ++ more =
        compactAfter last pending (run ++ rest') ++ more' ↔
      compactAfter (afterRun last pending run).1 (afterRun last pending run).2 rest ++ more =
        compactAfter (afterRun last pending run).1 (afterRun last pending run).2 rest' ++
          more' := by
  rw [compactAfter_append, compactAfter_append, List.append_assoc, List.append_assoc,
    List.append_cancel_left_eq]

/-- Pending white space makes a difference only between two characters of words. -/
theorem compactAfter_pending (run : List Char) :
    compactAfter last true (char :: run ++ rest) ++ more =
        compactAfter last false (char :: run ++ rest') ++ more' ↔
      (last.any isWordlike && isWordlike char) = false ∧
        compactAfter (afterRun last false (char :: run)).1 (afterRun last false (char :: run)).2
            rest ++ more =
          compactAfter (afterRun last false (char :: run)).1 (afterRun last false (char :: run)).2
            rest' ++ more' := by
  cases blank : isBlank char with
  | true =>
    simp only [List.cons_append, compactAfter, afterRun, blank, if_true,
      isWordlike_of_isBlank blank, Bool.and_false, true_and]
    exact compactAfter_run run
  | false =>
    simp only [List.cons_append, compactAfter, afterRun, blank, Bool.false_eq_true, if_false,
      Bool.true_and, Bool.false_and, List.nil_append]
    cases between : last.any isWordlike && isWordlike char with
    | true =>
      -- One of the two starts with a space and the other one with the character.
      have wordlike : isWordlike char = true := (Bool.and_eq_true_iff.mp between).2
      have noComma : char ≠ ',' := by rintro rfl; contradiction
      have noSpace : char ≠ ' ' := by rintro rfl; contradiction
      simp [spread, noComma, noSpace.symm]
    | false =>
      simp only [Bool.false_eq_true, if_false, List.nil_append, List.append_assoc,
        List.append_cancel_left_eq, true_and]
      simpa only [List.append_assoc] using compactAfter_run run

/-- A run that goes on ends in the same way whether white space was pending before it or not. -/
theorem afterRun_pending (run : List Char) :
    afterRun last true (char :: run) = afterRun last false (char :: run) := by
  rw [afterRun, afterRun]

/-- A piece is written in the same way after two gaps if these agree where they make a difference,
and then all depends on what follows. -/
theorem compactAfter_piece {gap gap' run : List Char}
    (blank : ∀ char ∈ gap, isBlank char = true) (blank' : ∀ char ∈ gap', isBlank char = true) :
    compactAfter last pending (gap ++ (char :: run ++ rest)) ++ more =
        compactAfter last pending (gap' ++ (char :: run ++ rest')) ++ more' ↔
      ((!pending && last.any isWordlike && isWordlike char) = true →
        gap.isEmpty = gap'.isEmpty) ∧
      compactAfter (afterRun last pending (char :: run)).1 (afterRun last pending (char :: run)).2
          rest ++ more =
        compactAfter (afterRun last pending (char :: run)).1 (afterRun last pending (char :: run)).2
          rest' ++ more' := by
  rw [compactAfter_gap blank, compactAfter_gap blank']
  cases pending with
  | true => simpa using compactAfter_run (char :: run)
  | false =>
    simp only [Bool.false_or, Bool.not_false, Bool.true_and]
    cases gap.isEmpty <;> cases gap'.isEmpty
    · rw [Bool.not_false, compactAfter_run, afterRun_pending]
      simp
    · rw [Bool.not_false, Bool.not_true, compactAfter_pending]
      simp
    · rw [Bool.not_false, Bool.not_true, eq_comm, compactAfter_pending]
      simp only [Bool.true_eq_false, imp_false, Bool.not_eq_true]
      exact and_congr_right fun _ => eq_comm
    · rw [Bool.not_true, compactAfter_run]
      simp

/-! ## Pieces -/

namespace Piece

/-- Whether characters of words meet where a piece follows another. -/
def meets (first next : Piece) : Bool :=
  first.text.toList.getLast?.any isWordlike && next.text.toList.head?.any isWordlike

/-- Whether pieces after a piece have white space in front of them in both lists or in none,
wherever characters of words meet. -/
def sameBreaksAfter (first : Piece) : List Piece → List Piece → Bool
  | next :: rest, next' :: rest' =>
    (!first.meets next || (next.gap == "") == (next'.gap == "")) && sameBreaksAfter next rest rest'
  | _, _ => true

/-- Whether two ways to write the same pieces agree about the white space between characters of
words. -/
def sameBreaks : List Piece → List Piece → Bool
  | first :: rest, _ :: rest' => sameBreaksAfter first rest rest'
  | _, _ => true

variable {first : Piece} {pieces others : List Piece}

/-- A text is empty if it has no characters. -/
theorem isEmpty_toList (text : String) : text.toList.isEmpty = (text == "") := by
  rw [Bool.eq_iff_iff]
  simp

/-- What follows a piece is compacted alike in two lists exactly if they agree about the white
space that makes a difference. Induction on the pieces, along which what compacting depends on
stays told by the piece before. -/
theorem compactAfter_spaced_iff (same : pieces.map text = others.map text)
    (visible : ∀ piece ∈ pieces, piece.text ≠ "")
    (blank : ∀ piece ∈ pieces, ∀ char ∈ piece.gap.toList, isBlank char = true)
    (blank' : ∀ piece ∈ others, ∀ char ∈ piece.gap.toList, isBlank char = true)
    (told : (!pending && last.any isWordlike) = first.text.toList.getLast?.any isWordlike) :
    compactAfter last pending (spaced pieces).toList ++ more =
        compactAfter last pending (spaced others).toList ++ more' ↔
      sameBreaksAfter first pieces others = true ∧ more = more' := by
  induction pieces generalizing others first last pending with
  | nil =>
    obtain rfl : others = [] := List.map_eq_nil_iff.mp same.symm
    simp [spaced, sameBreaksAfter, compactAfter]
  | cons next rest ih =>
    cases others with
    | nil => contradiction
    | cons next' rest' =>
      obtain ⟨sameText, sameRest⟩ := List.cons.inj same
      obtain ⟨char, run, spelled⟩ : ∃ char run, next.text.toList = char :: run :=
        List.exists_cons_of_ne_nil (by simpa using visible next List.mem_cons_self)
      obtain ⟨final, ends⟩ : ∃ final, next.text.toList.getLast? = some final :=
        ⟨_, List.getLast?_eq_some_getLast (by simp [spelled])⟩
      have later := ih sameRest (fun piece inside => visible piece (List.mem_cons_of_mem _ inside))
        (fun piece inside => blank piece (List.mem_cons_of_mem _ inside))
        (fun piece inside => blank' piece (List.mem_cons_of_mem _ inside))
        ((afterRun_wordlike ends).trans (by rw [ends]; rfl) :
          (!(afterRun last pending next.text.toList).2 &&
            (afterRun last pending next.text.toList).1.any isWordlike) =
              next.text.toList.getLast?.any isWordlike)
      simp only [spaced, String.toList_append, List.append_assoc]
      rw [← sameText, spelled, compactAfter_piece (blank next List.mem_cons_self)
        (blank' next' List.mem_cons_self), ← spelled, later, told, ← and_assoc]
      have starts : next.text.toList.head?.any isWordlike = isWordlike char := by rw [spelled]; rfl
      rw [isEmpty_toList, isEmpty_toList, ← starts, ← meets, sameBreaksAfter, Bool.and_eq_true]
      refine and_congr_left fun _ => and_congr_left fun _ => ?_
      cases first.meets next <;> simp

/-- Two ways to write the same pieces are compacted alike exactly if they agree about the white
space between characters of words, and so are longer texts that start with them. -/
theorem compact_joined_iff (same : pieces.map text = others.map text)
    (visible : ∀ piece ∈ pieces, piece.text ≠ "")
    (blank : ∀ piece ∈ pieces.tail, ∀ char ∈ piece.gap.toList, isBlank char = true)
    (blank' : ∀ piece ∈ others.tail, ∀ char ∈ piece.gap.toList, isBlank char = true) :
    compact (joined pieces).toList ++ more = compact (joined others).toList ++ more' ↔
      sameBreaks pieces others = true ∧ more = more' := by
  cases pieces with
  | nil =>
    obtain rfl : others = [] := List.map_eq_nil_iff.mp same.symm
    simp [joined, sameBreaks, compact, compactAfter]
  | cons first rest =>
    cases others with
    | nil => contradiction
    | cons first' rest' =>
      obtain ⟨sameText, sameRest⟩ := List.cons.inj same
      have filled : first.text.toList ≠ [] := by simpa using visible first List.mem_cons_self
      obtain ⟨final, ends⟩ : ∃ final, first.text.toList.getLast? = some final :=
        ⟨_, List.getLast?_eq_some_getLast filled⟩
      simp only [joined, String.toList_append, compact, sameBreaks]
      rw [← sameText, compactAfter_run]
      exact compactAfter_spaced_iff sameRest
        (fun piece inside => visible piece (List.mem_cons_of_mem _ inside)) blank blank'
        ((afterRun_wordlike ends).trans (by rw [ends]; rfl))

end Piece

end CaretName
