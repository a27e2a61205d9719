import CaretName.Proofs.Text.Compact

/-!
# Texts without white space

What is written does not depend on white space as far as the other characters go: `solid` keeps
these. The solid characters of pieces are those of their texts, and compacting a type keeps all of
them.
-/
namespace CaretName

/-- The characters of a text that are no white space. -/
def solid (text : String) : List Char := text.toList.filter fun char => !isBlank char

/-- A text without its white space has the solid characters. -/
theorem toList_withoutBlanks (text : String) : (withoutBlanks text).toList = solid text := by
  simp [withoutBlanks, solid]

/-- The solid characters of pieces are those of their texts. -/
theorem solid_joined {pieces : List Piece}
    (blank : ∀ piece ∈ pieces.tail, ∀ char ∈ piece.gap.toList, isBlank char = true) :
    solid (Piece.joined pieces) = pieces.flatMap fun piece => solid piece.text := by
  have spaced : ∀ pieces : List Piece, (∀ piece ∈ pieces, ∀ char ∈ piece.gap.toList,
      isBlank char = true) →
      solid (Piece.spaced pieces) = pieces.flatMap fun piece => solid piece.text := by
    intro pieces blank
    induction pieces with
    | nil => rfl
    | cons piece rest ih =>
      obtain ⟨here, later⟩ := List.forall_mem_cons.mp blank
      have none : solid piece.gap = [] := List.filter_eq_nil_iff.mpr fun char inside => by
        simp [here char inside]
      have others := ih later
      simp only [solid] at none others ⊢
      simp only [Piece.spaced, String.toList_append, List.filter_append, none, others,
        List.flatMap_cons, List.nil_append]
  cases pieces with
  | nil => rfl
  | cons first rest =>
    have others := spaced rest blank
    simp only [solid] at others ⊢
    simp only [Piece.joined, String.toList_append, List.filter_append, others, List.flatMap_cons]

/-- Compacting a type changes nothing but its white space. -/
theorem solid_compactType (text : String) : solid (compactType text) = solid text := by
  rw [solid, solid, compactType, String.toList_ofList, compact, filter_compactAfter]

end CaretName
