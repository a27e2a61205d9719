import CaretName.Proofs.SourceFile.Caret
import CaretName.SourceFile.Analysis

/-!
# Carets around a name

A caret may stand anywhere in a name, also between two bytes of one character, and just after
it. All of these carets mean the name, unless the token after the name has an element of its own.
Only the layout of the tree matters here: what stands in it need not follow the grammar.
-/
namespace CaretName

open Grammar

namespace Place

/-- Whether the place is a token with an element of its own: a name, the `new` of the creation
of an object, or the keyword that calls another constructor. -/
def isClassified (token : Place) : Bool :=
  token.isName ||
    token.isMark "new" && token.parent?.any (·.is .objectCreationExpression) ||
    token.isAny [.thisWord, .superWord] && token.parent?.any (·.is .explicitConstructorInvocation)

end Place

namespace SourceFile

variable {file : SourceFile} {token name parent : Place}

/-- A name inside a construct has the element that the name means. -/
theorem tokenElement?_of_isName (around : token.parent? = some parent)
    (isName : token.isName = true) :
    file.tokenElement? token = some (file.nameElement token) := by
  rw [tokenElement?, around, Option.bind_some, if_pos isName]

/-- The tokens with an element are the classified ones that stand inside a construct. -/
theorem tokenElement?_isSome :
    (file.tokenElement? token).isSome = (token.parent?.isSome && token.isClassified) := by
  rw [tokenElement?, Place.isClassified]
  cases token.parent? with
  | none => rfl
  | some parent =>
    rw [Option.bind_some]
    simp only [Option.any_some, Option.isSome_some, Bool.true_and]
    split
    · next isName => simp [isName]
    · next noName =>
      rw [Bool.not_eq_true] at noName
      split
      · next isNew => simp [isNew]
      · next notNew =>
        rw [Bool.not_eq_true] at notNew
        split
        · next calls => simp [calls]
        · next callsNot =>
          rw [Bool.not_eq_true] at callsNot
          rw [noName, notNew, callsNot]
          rfl

/-- Any other token has no element of its own. -/
theorem tokenElement?_eq_none (unclassified : token.isClassified = false) :
    file.tokenElement? token = none := by
  rw [← Option.not_isSome_iff_eq_none, tokenElement?_isSome, unclassified]
  simp

/-- A name of a laid out file is the one that ends at its end. -/
theorem nameEndingAt?_eq (laid : file.root.Laid) (held : file.root.Holds name)
    (childless : name.node.children = []) (isName : name.isName = true)
    (visible : name.start < name.stop) : file.nameEndingAt? name.stop = some name := by
  have positive : (name.stop == 0) = false := by
    rw [beq_eq_false_iff_ne]
    omega
  have found : file.root.placeAt ⟨name.stop - 1, name.stop⟩ = name :=
    held.placeAt_token laid childless (by omega) (by omega) (Nat.le_refl _)
  rw [nameEndingAt?, positive]
  simp [found, isName]

/-- All carets in a name give one and the same element, and so does the caret just after it,
unless it stands on a token with an element of its own. -/
theorem elementAt?_around_name (laid : file.root.Laid) (held : file.root.Holds name)
    (childless : name.node.children = []) (isName : name.isName = true)
    (visible : name.start < name.stop) (around : name.parent? = some parent) :
    file.Shows name (file.nameElement name) ∧
      ((file.tokenAt name.stop).isClassified = false →
        file.elementAt? name.stop = some (file.nameElement name)) := by
  have means : file.tokenElement? name = some (file.nameElement name) :=
    tokenElement?_of_isName around isName
  refine ⟨⟨visible, fun byte after before => ?_⟩, fun unclassified => ?_⟩
  · rw [elementAt?, tokenAt_eq laid held childless after before, means]
    rfl
  · have behind := nameEndingAt?_eq laid held childless isName visible
    rw [elementAt?, tokenElement?_eq_none unclassified, behind, Option.bind_some, means]
    rfl

/-- A class whose name is one character of two bytes. -/
def wideName : String := "class Ü{}"

/-- The three carets around the name of a class give the class, although one of them stands
inside a character and one on the brace. -/
theorem elementAt?_around_wideName : accepts wideName = true ∧
    ∃ name : Place, (parse wideName).Holds name ∧ name.start = 6 ∧ name.stop = 8 ∧
      (ofSource wideName).elementAt? 6 = some (.type "Ü") ∧
      (ofSource wideName).elementAt? 7 = some (.type "Ü") ∧
      (ofSource wideName).elementAt? 8 = some (.type "Ü") := by
  have used : (accepts wideName && ((parse wideName).places []).any fun name =>
      name.isName && name.start == 6 && name.stop == 8 && name.parent?.isSome &&
        !((ofSource wideName).tokenAt 8).isClassified &&
        (ofSource wideName).nameElement name == .type "Ü") = true := by decide +kernel
  obtain ⟨accepted, name, held, used⟩ := exists_held_of_search used
  simp only [Bool.and_eq_true, beq_iff_eq, Bool.not_eq_true', Option.isSome_iff_exists] at used
  obtain ⟨⟨⟨⟨⟨isName, starts⟩, stops⟩, parent, around⟩, unclassified⟩, means⟩ := used
  have wf := wellFormed_parse accepted
  obtain ⟨childless, visible, _⟩ := wf.name_token held isName
  have laid : (ofSource wideName).root.Laid := wf.laid
  obtain ⟨shown, behind⟩ := elementAt?_around_name laid held childless isName visible around
  rw [means] at shown behind
  refine ⟨accepted, name, held, starts, stops, shown.everywhere 6 (by omega) (by omega),
    shown.everywhere 7 (by omega) (by omega), ?_⟩
  rw [stops] at behind
  exact behind unclassified

end SourceFile

end CaretName
