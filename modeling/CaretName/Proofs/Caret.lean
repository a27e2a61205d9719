import CaretName.Caret
import CaretName.Proofs.Grammar.Tokens
import Mathlib.Data.List.DropRight

/-!
# Positions of carets

A position of a source parts its characters into those before and those after it, and it has a
line and a column of its own: the newlines before it, and the characters since the last of them.
A caret is converted to the position that it tells, and is refused exactly when the source has
none. Only the positions after a carriage return at the end of a line are told by no line and
column.
-/
namespace CaretName

/-! ## Lines and columns of positions -/

/-- The line of the position after some characters. -/
def lineAfter (before : List Char) : Nat := before.count '\n' + 1

/-- The column of the position after some characters. -/
def columnAfter (before : List Char) : Nat := (before.rtakeWhile (· != '\n')).length + 1

/-- A position after one of the carriage returns at the end of its line. -/
def AfterReturn (before after : List Char) : Prop :=
  before.getLast? = some '\r' ∧ ∀ char ∈ after.takeWhile (· != '\n'), char = '\r'

/-- The characters of a line, counted from one, without the carriage returns at its end. -/
def lineWithoutReturns (source : List Char) (line : Nat) : List Char :=
  ((source.splitOn '\n').getD (line - 1) []).rdropWhile (· == '\r')

variable {source chars before after lines inLine rest : List Char}
variable {count size byte line column : Nat}

/-- Characters that end a line, followed by some of the next one. -/
structure Parted (before lines inLine : List Char) : Prop where
  whole : lines ++ inLine = before
  ended : ∀ char ∈ lines.getLast?, char = '\n'
  single : '\n' ∉ inLine

/-- All characters are parted by their last newline. -/
theorem exists_parted (before : List Char) : ∃ lines inLine, Parted before lines inLine := by
  refine ⟨before.rdropWhile (· != '\n'), before.rtakeWhile (· != '\n'),
    List.rdropWhile_append_rtakeWhile, ?_, ?_⟩
  · intro char last
    obtain ⟨filled, rfl⟩ := List.mem_getLast?_eq_getLast last
    simpa using List.rdropWhile_last_not (· != '\n') before filled
  · intro inside
    simpa using List.mem_rtakeWhile_imp inside

namespace Parted

/-- The line is told by the characters before it. -/
theorem lineAfter_eq (parted : Parted before lines inLine) :
    lineAfter before = lines.count '\n' + 1 := by
  rw [lineAfter, ← parted.whole, List.count_append, List.count_eq_zero_of_not_mem parted.single,
    Nat.add_zero]

/-- The column is told by the characters of the line. -/
theorem columnAfter_eq (parted : Parted before lines inLine) :
    columnAfter before = inLine.length + 1 := by
  have own : inLine.reverse.takeWhile (· != '\n') = inLine.reverse := by
    rw [List.takeWhile_eq_self_iff]
    intro char inside
    have other : char ≠ '\n' := fun same => parted.single (same ▸ List.mem_reverse.mp inside)
    simpa using other
  have others : lines.reverse.takeWhile (· != '\n') = [] := by
    cases back : lines.reverse with
    | nil => rfl
    | cons char earlier =>
      have last : lines.getLast? = some char := by
        rw [← List.head?_reverse, back, List.head?_cons]
      obtain rfl := parted.ended char last
      rfl
  rw [columnAfter, ← parted.whole, List.rtakeWhile, List.reverse_append, List.takeWhile_append,
    own, if_pos rfl, others, List.append_nil, List.reverse_reverse]

/-- A position stands after a carriage return of its line if the line has one there. -/
theorem getLast?_eq (parted : Parted before lines inLine) :
    before.getLast? = some '\r' ↔ inLine.getLast? = some '\r' := by
  rw [← parted.whole, List.getLast?_append]
  cases own : inLine.getLast? with
  | some char => rfl
  | none =>
    constructor
    · intro last
      have ended := parted.ended '\r' last
      contradiction
    · intro last
      contradiction

end Parted

/-! ## The start of a line -/

/-- A line starts after as many newlines as its number says, right after the last of them. -/
theorem fromLine?_eq_some : fromLine? count chars = some (size, rest) ↔
    ∃ lines, lines ++ rest = chars ∧ byteCount lines = size ∧ lines.count '\n' = count ∧
      ∀ char ∈ lines.getLast?, char = '\n' := by
  induction chars generalizing count size with
  | nil =>
    cases count with
    | zero => simp [fromLine?, byteCount, and_comm, eq_comm]
    | succ count => simp [fromLine?]
  | cons char chars ih =>
    cases count with
    | zero =>
      constructor
      · intro found
        rw [fromLine?, Option.some.injEq, Prod.mk.injEq] at found
        obtain ⟨rfl, rfl⟩ := found
        exact ⟨[], rfl, rfl, rfl, by simp⟩
      · rintro ⟨lines, whole, rfl, none, ended⟩
        -- Lines without a newline that end in one are no lines at all.
        obtain rfl : lines = [] := by
          by_contra filled
          have last := ended _ (List.getLast?_eq_some_getLast filled)
          exact List.count_eq_zero.mp none (last ▸ List.getLast_mem filled)
        rw [fromLine?, ← whole]
        rfl
    | succ count =>
      rw [fromLine?, Option.map_eq_some_iff]
      constructor
      · rintro ⟨⟨inner, left⟩, found, same⟩
        rw [Prod.mk.injEq] at same
        obtain ⟨rfl, rfl⟩ := same
        obtain ⟨lines, rfl, rfl, counted, ended⟩ := ih.mp found
        refine ⟨char :: lines, rfl, byteCount_cons _ _, ?_, ?_⟩
        · rw [List.count_cons, counted]
          by_cases newline : char = '\n' <;> simp [newline]
        · intro last found
          cases lines with
          | nil =>
            obtain rfl : char = last := by simpa using found
            by_contra other
            simp [other] at counted
          | cons => exact ended last (by simpa using found)
      · rintro ⟨lines, whole, rfl, counted, ended⟩
        cases lines with
        | nil => simp at counted
        | cons first lines =>
          obtain ⟨rfl, rfl⟩ := List.cons.inj whole
          refine ⟨(byteCount lines, rest), ih.mpr ⟨lines, rfl, rfl, ?_, ?_⟩, ?_⟩
          · rw [List.count_cons] at counted
            by_cases newline : first = '\n'
            · simpa [newline] using counted
            · simpa [newline] using counted
          · intro last found
            exact ended last (by cases lines <;> simp_all)
          · rw [byteCount_cons]

/-- The characters of the line at which some characters start are those up to the newline. -/
theorem head?_splitOn (chars : List Char) :
    (chars.splitOn '\n')[0]? = some (chars.takeWhile (· != '\n')) := by
  induction chars with
  | nil => rfl
  | cons char chars ih =>
    rw [List.splitOn_cons_eq_if_modifyHead]
    by_cases newline : char = '\n'
    · simp [newline]
    · rw [if_neg (by simpa using newline), List.getElem?_modifyHead, ih,
        List.takeWhile_cons_of_pos (by simpa using newline)]
      rfl

/-- What a line starts with is the line. -/
theorem getElem?_splitOn (found : fromLine? count chars = some (size, rest)) :
    (chars.splitOn '\n')[count]? = some (rest.takeWhile (· != '\n')) := by
  obtain ⟨lines, rfl, -, counted, ended⟩ := fromLine?_eq_some.mp found
  clear found
  induction lines generalizing count with
  | nil =>
    obtain rfl : 0 = count := counted
    exact head?_splitOn rest
  | cons char lines ih =>
    have ended' : ∀ last ∈ lines.getLast?, last = '\n' := fun last found =>
      ended last (by cases lines <;> simp_all)
    rw [List.cons_append, List.splitOn_cons_eq_if_modifyHead]
    by_cases newline : char = '\n'
    · obtain ⟨earlier, rfl⟩ : ∃ earlier, count = earlier + 1 := ⟨lines.count '\n', by
        simp [← counted, newline]⟩
      rw [if_pos (by simpa using newline), List.getElem?_cons_succ]
      exact ih (by simpa [newline] using counted) ended'
    · obtain ⟨earlier, rfl⟩ : ∃ earlier, count = earlier + 1 := by
        refine Nat.exists_eq_succ_of_ne_zero fun none => ?_
        have last := ended _ (List.getLast?_eq_some_getLast (List.cons_ne_nil _ _))
        exact List.count_eq_zero.mp (counted.trans none) (last ▸ List.getLast_mem _)
      rw [if_neg (by simpa using newline), List.getElem?_modifyHead,
        ih (by simpa [newline] using counted) ended']
      rfl

/-- A line has a start if the newlines before it are there. -/
theorem fromLine?_isSome : (fromLine? count chars).isSome = true ↔ count ≤ chars.count '\n' := by
  induction chars generalizing count with
  | nil => cases count <;> simp [fromLine?]
  | cons char chars ih =>
    cases count with
    | zero => simp [fromLine?]
    | succ count =>
      rw [fromLine?, Option.isSome_map, ih, List.count_cons]
      by_cases newline : char = '\n' <;> simp [newline]

/-! ## Positions in a line -/

/-- The first characters of a text are those before one of its positions. -/
theorem bytesOfFirst?_eq_some : bytesOfFirst? count chars = some size ↔
    ∃ before after, before ++ after = chars ∧ before.length = count ∧ byteCount before = size := by
  unfold bytesOfFirst?
  constructor
  · intro found
    split at found
    · next enough =>
      exact ⟨chars.take count, chars.drop count, List.take_append_drop _ _,
        List.length_take_of_le enough, Option.some.inj found⟩
    · contradiction
  · rintro ⟨before, after, rfl, rfl, rfl⟩
    rw [if_pos (by simp), List.take_left]

/-- The line that starts some characters has none of them after its carriage returns. -/
theorem lineText_eq (chars : List Char) :
    lineText chars = (chars.takeWhile (· != '\n')).rdropWhile (· == '\r') := rfl

/-- The line that starts some characters is a prefix of them. -/
theorem lineText_starts (chars : List Char) : lineText chars <+: chars :=
  (List.rdropWhile_prefix _ _).trans (List.takeWhile_prefix _)

/-- Without a newline in between, a position is in the text of the line unless it stands after a
carriage return that ends the line. -/
theorem le_length_lineText (single : '\n' ∉ inLine) (after : List Char) :
    inLine.length ≤ (lineText (inLine ++ after)).length ↔ ¬ AfterReturn inLine after := by
  have own : ∀ char ∈ inLine, (char != '\n') = true := by
    intro char inside
    have other : char ≠ '\n' := fun same => single (same ▸ inside)
    simpa using other
  rw [lineText_eq, List.takeWhile_append_of_pos own, List.rdropWhile, List.reverse_append,
    List.dropWhile_append]
  by_cases returns : ∀ char ∈ after.takeWhile (· != '\n'), char = '\r'
  · -- All that follows is dropped, and what is left of the rest of the line may be as well.
    have dropped : ((after.takeWhile (· != '\n')).reverse.dropWhile (· == '\r')) = [] := by
      simpa using returns
    rw [dropped, List.isEmpty_nil, if_pos rfl, ← List.rdropWhile, AfterReturn,
      and_iff_left returns]
    have shorter := (List.rdropWhile_prefix (· == '\r') inLine).length_le
    have kept : inLine.length ≤ (inLine.rdropWhile (· == '\r')).length ↔
        inLine.rdropWhile (· == '\r') = inLine := by
      constructor
      · intro long
        exact (List.rdropWhile_prefix _ _).eq_of_length (by omega)
      · intro same
        rw [same]
    rw [kept, List.rdropWhile_eq_self_iff]
    cases inLine using List.reverseRecOn with
    | nil => simp
    | append_singleton earlier char _ => simp
  · have some_left : ((after.takeWhile (· != '\n')).reverse.dropWhile (· == '\r')).isEmpty =
        false := by
      rw [List.isEmpty_eq_false_iff]
      simpa using returns
    rw [some_left, if_neg Bool.false_ne_true]
    simp [AfterReturn, returns]

/-! ## What carets tell -/

namespace Caret

/-- A caret by characters is at the position after so many of them. -/
theorem byte_offset_eq_ok : (offset count).byte source = .ok byte ↔
    ∃ before after, before ++ after = source ∧ before.length = count ∧ byteCount before = byte := by
  rw [← bytesOfFirst?_eq_some, Caret.byte]
  cases bytesOfFirst? count source <;> simp

/-- A caret by line and column is converted in the line that starts after enough newlines. -/
theorem byte_lineColumn_eq_ok_iff : (lineColumn line column).byte source = .ok byte ↔
    line ≠ 0 ∧ column ≠ 0 ∧ ∃ start rest within, fromLine? (line - 1) source = some (start, rest) ∧
      bytesOfFirst? (column - 1) (lineText rest) = some within ∧ start + within = byte := by
  rw [Caret.byte]
  by_cases zero : line = 0 ∨ column = 0
  · rw [if_pos (by simpa using zero)]
    constructor
    · intro found
      contradiction
    · rintro ⟨someLine, someColumn, -⟩
      exact absurd zero (by simp [someLine, someColumn])
  · rw [if_neg (by simpa using zero)]
    rw [not_or] at zero
    cases start : fromLine? (line - 1) source with
    | none => simp
    | some found =>
      obtain ⟨start, rest⟩ := found
      cases within : bytesOfFirst? (column - 1) (lineText rest) with
      | none => simp [within]
      | some within => simp [within, zero]

/-- A caret by line and column is at the position that has this line and column, unless it stands
after a carriage return at the end of the line. -/
theorem byte_lineColumn_eq_ok : (lineColumn line column).byte source = .ok byte ↔
    ∃ before after, before ++ after = source ∧ lineAfter before = line ∧
      columnAfter before = column ∧ ¬ AfterReturn before after ∧ byteCount before = byte := by
  rw [byte_lineColumn_eq_ok_iff]
  constructor
  · rintro ⟨someLine, someColumn, start, rest, within, found, first, rfl⟩
    obtain ⟨lines, rfl, rfl, counted, ended⟩ := fromLine?_eq_some.mp found
    obtain ⟨inLine, others, text, length, rfl⟩ := bytesOfFirst?_eq_some.mp first
    obtain ⟨after, rfl⟩ := (show inLine <+: rest from
      (text ▸ List.prefix_append inLine others).trans (lineText_starts rest))
    have single : '\n' ∉ inLine := by
      intro inside
      have among : '\n' ∈ lineText (inLine ++ after) := text ▸ List.mem_append_left _ inside
      have kept := (List.rdropWhile_prefix _ _).subset (lineText_eq _ ▸ among)
      simpa using List.mem_takeWhile_imp kept
    have parted : Parted (lines ++ inLine) lines inLine := ⟨rfl, ended, single⟩
    refine ⟨lines ++ inLine, after, by simp, ?_, ?_, ?_, byteCount_append _ _⟩
    · rw [parted.lineAfter_eq]
      omega
    · rw [parted.columnAfter_eq]
      omega
    · rw [AfterReturn, parted.getLast?_eq]
      exact (le_length_lineText single after).mp (by simp [← text])
  · rintro ⟨before, after, rfl, rfl, rfl, kept, rfl⟩
    obtain ⟨lines, inLine, parted⟩ := exists_parted before
    rw [parted.lineAfter_eq, parted.columnAfter_eq, Nat.add_sub_cancel, Nat.add_sub_cancel]
    rw [AfterReturn, parted.getLast?_eq] at kept
    have long := (le_length_lineText parted.single after).mpr kept
    -- The position is inside the text of its line, which starts as the rest of the source does.
    have front : inLine <+: lineText (inLine ++ after) :=
      List.prefix_of_prefix_length_le (List.prefix_append _ _) (lineText_starts _) long
    obtain ⟨others, text⟩ := front
    refine ⟨by omega, by omega, byteCount lines, inLine ++ after, byteCount inLine, ?_, ?_, ?_⟩
    · refine fromLine?_eq_some.mpr ⟨lines, ?_, rfl, rfl, parted.ended⟩
      rw [← parted.whole, List.append_assoc]
    · exact bytesOfFirst?_eq_some.mpr ⟨inLine, others, text, rfl, rfl⟩
    · rw [← parted.whole, byteCount_append]

/-! ## The order of positions -/

end Caret

/-- Going on from a position leads to a later line, or further into the same line. -/
theorem position_lt (before : List Char) {more : List Char} (further : more ≠ []) :
    lineAfter before < lineAfter (before ++ more) ∨
      lineAfter before = lineAfter (before ++ more) ∧
        columnAfter before < columnAfter (before ++ more) := by
  by_cases newline : '\n' ∈ more
  · left
    have some := List.count_pos_iff.mpr newline
    rw [lineAfter, lineAfter, List.count_append]
    omega
  · right
    obtain ⟨lines, inLine, parted⟩ := exists_parted before
    have longer : Parted (before ++ more) lines (inLine ++ more) :=
      ⟨by rw [← parted.whole, List.append_assoc], parted.ended, by simp [parted.single, newline]⟩
    have length := List.length_pos_iff.mpr further
    rw [parted.lineAfter_eq, longer.lineAfter_eq, parted.columnAfter_eq, longer.columnAfter_eq,
      List.length_append]
    omega

/-- Of two positions of a source one is reached by going on from the other. -/
theorem position_cases {before' after' : List Char} (whole : before ++ after = source)
    (whole' : before' ++ after' = source) : before = before' ∨
      (∃ more, more ≠ [] ∧ before ++ more = before') ∨
        ∃ more, more ≠ [] ∧ before' ++ more = before := by
  have either := List.prefix_or_prefix_of_prefix
    (whole ▸ List.prefix_append before after) (whole' ▸ List.prefix_append before' after')
  by_cases same : before = before'
  · exact .inl same
  · refine .inr (either.imp ?_ ?_)
    · rintro ⟨more, rfl⟩
      exact ⟨more, fun none => same (by simp [none]), rfl⟩
    · rintro ⟨more, rfl⟩
      exact ⟨more, fun none => same (by simp [none]), rfl⟩

/-- Positions further on have more bytes before them. -/
theorem byteCount_lt (before : List Char) {more : List Char} (further : more ≠ []) :
    byteCount before < byteCount (before ++ more) := by
  have some := byteCount_pos further
  rw [byteCount_append]
  omega

namespace Caret

/-- Carets by line and column stand at bytes in the order of the lines, and of the columns in one
line. -/
theorem byte_lt_iff {line' column' byte' : Nat}
    (accepted : (lineColumn line column).byte source = .ok byte)
    (accepted' : (lineColumn line' column').byte source = .ok byte') :
    byte < byte' ↔ line < line' ∨ line = line' ∧ column < column' := by
  obtain ⟨before, after, whole, rfl, rfl, -, rfl⟩ := byte_lineColumn_eq_ok.mp accepted
  obtain ⟨before', after', whole', rfl, rfl, -, rfl⟩ := byte_lineColumn_eq_ok.mp accepted'
  rcases position_cases whole whole' with rfl | ⟨more, further, rfl⟩ | ⟨more, further, rfl⟩
  · simp
  · exact iff_of_true (byteCount_lt before further) (position_lt before further)
  · have later := position_lt before' further
    exact iff_of_false (Nat.not_lt.mpr (byteCount_lt before' further).le) (by omega)

/-! ## Carets that are refused -/

/-- A caret is at no position of a source, for the reason that the error gives. -/
inductive Refused (source : List Char) : Caret → CaretError → Prop
  /-- The source has fewer characters. -/
  | offset {count : Nat} (past : source.length < count) :
    Refused source (.offset count) (.offsetPastEnd count source.length)
  /-- No line and no column has the number zero. -/
  | zero {line column : Nat} (zero : line = 0 ∨ column = 0) :
    Refused source (.lineColumn line column) .zeroBased
  /-- The source has fewer lines. -/
  | line {line column : Nat} (someLine : 1 ≤ line) (someColumn : 1 ≤ column)
    (past : source.count '\n' < line - 1) :
    Refused source (.lineColumn line column) (.linePastEnd line)
  /-- The line has fewer characters in front of its end. -/
  | column {line column : Nat} (someLine : 1 ≤ line) (someColumn : 1 ≤ column)
    (known : line - 1 ≤ source.count '\n')
    (past : (lineWithoutReturns source line).length < column - 1) :
    Refused source (.lineColumn line column) (.columnPastEnd column line)

/-- What is left of a line without the carriage returns at its end. -/
theorem lineText_of_fromLine? (found : fromLine? (line - 1) source = some (size, rest)) :
    lineText rest = lineWithoutReturns source line := by
  rw [lineWithoutReturns, List.getD_eq_getElem?_getD, getElem?_splitOn found]
  rfl

/-- A caret by line and column is converted if the source has the line and the line has the
characters in front of the column. -/
theorem exists_byte_lineColumn : (∃ byte, (lineColumn line column).byte source = .ok byte) ↔
    1 ≤ line ∧ 1 ≤ column ∧ line - 1 ≤ source.count '\n' ∧
      column - 1 ≤ (lineWithoutReturns source line).length := by
  constructor
  · rintro ⟨byte, accepted⟩
    obtain ⟨someLine, someColumn, start, rest, within, found, first, -⟩ :=
      byte_lineColumn_eq_ok_iff.mp accepted
    obtain ⟨inLine, others, text, length, -⟩ := bytesOfFirst?_eq_some.mp first
    refine ⟨by omega, by omega, fromLine?_isSome.mp (by rw [found]; rfl), ?_⟩
    rw [← lineText_of_fromLine? found, ← text, List.length_append]
    omega
  · rintro ⟨someLine, someColumn, known, enough⟩
    obtain ⟨⟨start, rest⟩, found⟩ := Option.isSome_iff_exists.mp (fromLine?_isSome.mpr known)
    rw [← lineText_of_fromLine? found] at enough
    have first : bytesOfFirst? (column - 1) (lineText rest) =
        some (byteCount ((lineText rest).take (column - 1))) := if_pos enough
    exact ⟨_, byte_lineColumn_eq_ok_iff.mpr
      ⟨by omega, by omega, start, rest, _, found, first, rfl⟩⟩

/-- A caret that is at no position is refused with the reason. -/
theorem Refused.byte_eq {caret : Caret} {error : CaretError}
    (refused : Refused source caret error) :
    caret.byte source = .error error := by
  cases refused with
  | @offset count past =>
    rw [Caret.byte, bytesOfFirst?, if_neg (by omega)]
  | zero zero =>
    rw [Caret.byte, if_pos (by simpa using zero)]
  | @line line column someLine someColumn past =>
    have none : fromLine? (line - 1) source = none := by
      rw [← Option.not_isSome_iff_eq_none, fromLine?_isSome]
      omega
    rw [Caret.byte, if_neg (by simp; omega), none]
  | @column line column someLine someColumn known past =>
    obtain ⟨⟨start, rest⟩, found⟩ := Option.isSome_iff_exists.mp (fromLine?_isSome.mpr known)
    rw [Caret.byte, if_neg (by simp; omega), found]
    dsimp only
    rw [lineText_of_fromLine? found, bytesOfFirst?, if_neg (by omega)]

/-- Every caret is converted, or there is a reason to refuse it. -/
theorem exists_byte_or_refused (source : List Char) (caret : Caret) :
    (∃ byte, caret.byte source = .ok byte) ∨ ∃ error, Refused source caret error := by
  cases caret with
  | offset count =>
    by_cases enough : count ≤ source.length
    · exact .inl ⟨_, byte_offset_eq_ok.mpr ⟨source.take count, source.drop count,
        List.take_append_drop _ _, List.length_take_of_le enough, rfl⟩⟩
    · exact .inr ⟨_, .offset (by omega)⟩
  | lineColumn line column =>
    by_cases zero : line = 0 ∨ column = 0
    · exact .inr ⟨_, .zero zero⟩
    by_cases known : line - 1 ≤ source.count '\n'
    · by_cases enough : column - 1 ≤ (lineWithoutReturns source line).length
      · exact .inl (exists_byte_lineColumn.mpr ⟨by omega, by omega, known, enough⟩)
      · exact .inr ⟨_, .column (by omega) (by omega) known (by omega)⟩
    · exact .inr ⟨_, .line (by omega) (by omega) (by omega)⟩

/-- A caret is refused exactly for the reason that the error gives. -/
theorem byte_eq_error {caret : Caret} {error : CaretError} :
    caret.byte source = .error error ↔ Refused source caret error := by
  refine ⟨fun failed => ?_, Refused.byte_eq⟩
  rcases exists_byte_or_refused source caret with ⟨byte, converted⟩ | ⟨reason, refused⟩
  · rw [converted] at failed
    contradiction
  · obtain rfl : reason = error := Except.error.inj (refused.byte_eq.symm.trans failed)
    exact refused

/-! ## The conversion -/

/-- Carets are converted to the positions that they tell. One by characters has as many characters
before it. One by line and column has so many newlines and then so many characters before it, and
the caret by characters is at the same byte; conversely a position is told by its line and column
unless it stands after a carriage return at the end of its line. Bytes follow the order of lines
and columns, and every caret that is refused is refused for its reason; one with a zero is refused
before anything is counted. -/
theorem conversion (source : String) :
    (∀ count byte, (offset count).byte source.toList = .ok byte ↔
      count ≤ source.length ∧
        byte = (String.ofList (source.toList.take count)).utf8ByteSize) ∧
    (∀ line column, (∃ byte, (lineColumn line column).byte source.toList = .ok byte) ↔
      1 ≤ line ∧ 1 ≤ column ∧ line - 1 ≤ source.toList.count '\n' ∧
        column - 1 ≤ (lineWithoutReturns source.toList line).length) ∧
    (∀ caret error, caret.byte source.toList = .error error ↔
      Refused source.toList caret error) ∧
    (∀ line column byte, (lineColumn line column).byte source.toList = .ok byte →
      String.Pos.Raw.IsValid source ⟨byte⟩ ∧ ∃ before after, before ++ after = source.toList ∧
        byteCount before = byte ∧ lineAfter before = line ∧ columnAfter before = column ∧
          (offset before.length).byte source.toList = .ok byte) ∧
    (∀ before after, before ++ after = source.toList →
      ((lineColumn (lineAfter before) (columnAfter before)).byte source.toList =
          (offset before.length).byte source.toList ↔ ¬ AfterReturn before after)) ∧
    (∀ line column byte line' column' byte',
      (lineColumn line column).byte source.toList = .ok byte →
      (lineColumn line' column').byte source.toList = .ok byte' →
        ((byte < byte' ↔ line < line' ∨ line = line' ∧ column < column') ∧
          (byte = byte' ↔ line = line' ∧ column = column'))) := by
  refine ⟨fun count byte => ?_, fun line column => exists_byte_lineColumn,
    fun caret error => byte_eq_error, fun line column byte accepted => ?_,
    fun before after whole => ?_, fun line column byte line' column' byte' accepted accepted' => ?_⟩
  · rw [utf8ByteSize_ofList, ← String.length_toList, byte_offset_eq_ok]
    constructor
    · rintro ⟨before, after, whole, rfl, rfl⟩
      rw [← whole, List.take_left, List.length_append]
      exact ⟨Nat.le_add_right _ _, rfl⟩
    · rintro ⟨enough, rfl⟩
      exact ⟨_, _, List.take_append_drop count source.toList, List.length_take_of_le enough, rfl⟩
  · obtain ⟨before, after, whole, isLine, isColumn, -, rfl⟩ := byte_lineColumn_eq_ok.mp accepted
    refine ⟨?_, before, after, whole, rfl, isLine, isColumn,
      byte_offset_eq_ok.mpr ⟨before, after, whole, rfl, rfl⟩⟩
    refine String.Pos.Raw.isValid_iff_exists_append.mpr
      ⟨String.ofList before, String.ofList after, ?_, ?_⟩
    · rw [← String.ofList_append, whole, String.ofList_toList]
    · rw [← utf8ByteSize_ofList]
      rfl
  · have position := byte_offset_eq_ok.mpr ⟨before, after, whole, rfl, rfl⟩
    rw [position, byte_lineColumn_eq_ok]
    constructor
    · rintro ⟨other, others, whole', -, -, kept, same⟩
      rcases position_cases whole whole' with rfl | ⟨more, further, rfl⟩ | ⟨more, further, rfl⟩
      · obtain rfl := List.append_cancel_left (whole.trans whole'.symm)
        exact kept
      · exact absurd same (byteCount_lt before further).ne'
      · exact absurd same (byteCount_lt other further).ne
    · intro kept
      exact ⟨before, after, whole, rfl, rfl, kept, rfl⟩
  · have ordered := byte_lt_iff accepted accepted'
    have ordered' := byte_lt_iff accepted' accepted
    exact ⟨ordered, by omega⟩

/-- A source of two lines with letters of two bytes, the first ended by a carriage return. -/
def twoLines : String := "é\r\nÜ"

/-- The second line of the source starts at its fourth byte, after three characters, and its end is
two bytes further on. Between the carriage return and the newline no column stands. -/
theorem conversion_twoLines :
    (lineColumn 2 1).byte twoLines.toList = .ok 4 ∧ (lineColumn 2 2).byte twoLines.toList = .ok 6 ∧
      (∃ before after, before ++ after = twoLines.toList ∧ byteCount before = 4 ∧
        lineAfter before = 2 ∧ columnAfter before = 1 ∧
          (offset before.length).byte twoLines.toList = .ok 4) ∧
      (4 < 6 ↔ 2 < 2 ∨ 2 = 2 ∧ 1 < 2) ∧
      (lineColumn 1 3).byte twoLines.toList = .error (.columnPastEnd 3 1) ∧
      (lineColumn 1 3).byte twoLines.toList ≠ (offset 2).byte twoLines.toList := by
  obtain ⟨-, -, refused, positions, conversely, order⟩ := conversion twoLines
  have start : (lineColumn 2 1).byte twoLines.toList = .ok 4 := by decide +kernel
  have stop : (lineColumn 2 2).byte twoLines.toList = .ok 6 := by decide +kernel
  have long : lineWithoutReturns twoLines.toList 1 = ['é'] := by decide +kernel
  have past : Refused twoLines.toList (.lineColumn 1 3) (.columnPastEnd 3 1) :=
    .column (by omega) (by omega) (by omega) (by rw [long]; decide)
  have told : lineAfter ['é', '\r'] = 1 ∧ columnAfter ['é', '\r'] = 3 := by decide
  have untold := (conversely ['é', '\r'] ['\n', 'Ü'] (by decide +kernel)).not.mpr
    (not_not.mpr ⟨rfl, by simp⟩)
  rw [told.1, told.2] at untold
  exact ⟨start, stop, (positions 2 1 4 start).2, (order 2 1 4 2 2 6 start stop).1,
    (refused _ _).mpr past, untold⟩

end Caret

end CaretName
