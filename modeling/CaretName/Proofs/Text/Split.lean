import Mathlib.Data.List.TakeDrop
import Mathlib.Data.String.Basic

/-!
# Texts taken apart

The standard library takes a text apart by offsets into it. `splitOn_singleton` says that for one
character this is the same as taking the list of its characters apart. `span_eq` is about a run of
characters that is cut off.
-/
namespace CaretName

/-- A run of characters of a class ends in front of one that is not of it. -/
theorem span_eq {holds : Char → Bool} {body rest : List Char}
    (inside : ∀ char ∈ body, holds char = true)
    (ends : ∀ char ∈ rest.head?, holds char = false) : (body ++ rest).span holds = (body, rest) := by
  have none : rest.takeWhile holds = [] ∧ rest.dropWhile holds = rest := by
    cases rest with
    | nil => exact ⟨rfl, rfl⟩
    | cons char rest => simp [ends char rfl]
  rw [List.span_eq_takeWhile_dropWhile, List.takeWhile_append_of_pos inside,
    List.dropWhile_append_of_pos inside, none.1, none.2, List.append_nil]

open String

/-- The loop that takes a text apart, at the end of the current piece. -/
theorem splitOnAux_singleton (mark : Char) (before piece rest : List Char) (done : List String) :
    String.splitOnAux (String.ofList (before ++ (piece ++ rest))) (String.singleton mark)
        ⟨utf8Len before⟩ ⟨utf8Len before + utf8Len piece⟩ 0 done =
      done.reverse ++ (List.splitOnPPrepend (· == mark) rest piece.reverse).map String.ofList := by
  induction rest generalizing before piece done with
  | nil =>
    have cut := extract_of_valid before piece []
    have ended : (⟨utf8Len before + utf8Len piece⟩ : Pos.Raw).atEnd
        (String.ofList (before ++ (piece ++ []))) = true := by
      simp [atEnd_iff, -ofList_append]
    simp only [List.append_assoc] at cut
    rw [String.splitOnAux, ended, if_pos rfl, cut]
    simp
  | cons char rest ih =>
    have size := Char.utf8Size_pos char
    have cut := extract_of_valid before piece (char :: rest)
    have here : Pos.Raw.get (String.ofList (before ++ (piece ++ char :: rest)))
        ⟨utf8Len before + utf8Len piece⟩ = char := by
      simpa [-ofList_append] using get_of_valid (before ++ piece) (char :: rest)
    have next : Pos.Raw.next (String.ofList (before ++ (piece ++ char :: rest)))
        ⟨utf8Len before + utf8Len piece⟩ =
          ⟨utf8Len before + (utf8Len piece + char.utf8Size)⟩ := by
      simpa [-ofList_append, Nat.add_assoc] using next_of_valid (before ++ piece) char rest
    have going : (⟨utf8Len before + utf8Len piece⟩ : Pos.Raw).atEnd
        (String.ofList (before ++ (piece ++ char :: rest))) = false := by
      rw [Bool.eq_false_iff, ne_eq, atEnd_iff, rawEndPos_ofList, Pos.Raw.le_iff]
      simp only [utf8Len_append, utf8Len_cons]
      omega
    have first : Pos.Raw.get (String.singleton mark) 0 = mark := by
      simpa using get_of_valid [] [mark]
    have second : Pos.Raw.next (String.singleton mark) 0 = ⟨mark.utf8Size⟩ := by
      simpa using next_of_valid [] mark []
    have last : (⟨mark.utf8Size⟩ : Pos.Raw).atEnd (String.singleton mark) = true := by
      have marked : String.singleton mark = String.ofList [mark] := by simp
      rw [marked, atEnd_iff, rawEndPos_ofList, Pos.Raw.le_iff]
      simp
    simp only [List.append_assoc] at cut
    rw [String.splitOnAux, going, here, first, List.splitOnPPrepend_cons_eq_if]
    simp only [Bool.false_eq_true, if_false, next, second, last]
    by_cases same : char = mark
    · subst same
      have back : (⟨utf8Len before + (utf8Len piece + char.utf8Size)⟩ : Pos.Raw).unoffsetBy
          ⟨char.utf8Size⟩ = ⟨utf8Len before + utf8Len piece⟩ := by
        simp [Pos.Raw.unoffsetBy, ← Nat.add_assoc]
      have later := ih (before ++ (piece ++ [char])) [] (ofList piece :: done)
      simp only [List.append_assoc, List.cons_append, List.nil_append, utf8Len_append,
        utf8Len_cons, utf8Len_nil, Nat.zero_add, Nat.add_zero] at later
      simp [-ofList_append, back, cut, later]
    · have later := ih before (piece ++ [char]) done
      simp only [List.append_assoc, List.cons_append, List.nil_append, utf8Len_append,
        utf8Len_cons, utf8Len_nil, Nat.zero_add, List.reverse_append, List.reverse_singleton]
        at later
      have stay : (⟨utf8Len before + utf8Len piece⟩ : Pos.Raw).unoffsetBy 0 =
          ⟨utf8Len before + utf8Len piece⟩ := rfl
      simp [-ofList_append, same, stay, next, later]

/-- A text is taken apart at a character like the list of its characters. -/
theorem splitOn_singleton (text : String) (mark : Char) :
    text.splitOn (String.singleton mark) = (text.toList.splitOn mark).map String.ofList := by
  have pieces := splitOnAux_singleton mark [] [] text.toList []
  have filled : (String.singleton mark == "") = false := by simp
  rw [String.splitOn, filled]
  simpa [List.splitOn] using pieces

end CaretName
