import CaretName.Proofs.Grammar.WellFormed
import CaretName.SourceFile.Locate

/-!
# Carets on tokens

In a tree without errors a caret on a token gives the element of the token, wherever it stands
in it. What is shown about the elements of names and keywords is thereby shown about carets.
-/
namespace CaretName

open Grammar

namespace SourceFile

/-- Every caret on a token, which takes up room, gives an element. -/
structure Shows (file : SourceFile) (token : Place) (element : Element) : Prop where
  visible : token.start < token.stop
  everywhere : ∀ byte, token.start ≤ byte → byte < token.stop →
    file.elementAt? byte = some element

variable {file : SourceFile} {root : Node} {token name : Place} {element : Element}

/-- A token of a laid out file is the one at each of its bytes. -/
theorem tokenAt_eq (laid : file.root.Laid) (held : file.root.Holds token)
    (childless : token.node.children = []) {byte : Nat} (after : token.start ≤ byte)
    (before : byte < token.stop) : file.tokenAt byte = token := by
  have inside := (held.within laid).2
  have more : byte < file.root.stop := Nat.lt_of_lt_of_le before inside
  rw [tokenAt, if_pos more]
  exact held.placeAt_token laid childless after (Nat.lt_succ_self byte) before

/-- A token with an element of its own shows it. -/
theorem shows_of_token (wf : WellFormed root) (held : root.Holds token)
    (childless : token.node.children = []) (visible : token.start < token.stop)
    (means : (ofRoot root).tokenElement? token = some element) :
    (ofRoot root).Shows token element where
  visible := visible
  everywhere := by
    intro byte after before
    have found : (ofRoot root).tokenAt byte = token :=
      tokenAt_eq wf.laid held childless after before
    rw [elementAt?, found, means]
    rfl

/-- An identifier is a name. -/
theorem isName_of_identifier (isIdentifier : name.is .identifier = true) : name.isName = true :=
  Place.isAny_of_is isIdentifier List.mem_cons_self

/-- A name in a tree stands inside a construct. -/
theorem exists_parent (wf : WellFormed root) (held : root.Holds name)
    (isName : name.isName = true) : ∃ parent, name.parent? = some parent ∧
      root.Holds parent ∧ name ∈ parent.children := by
  cases held with
  | root =>
    have noName : (Place.root root).isName = false := Place.isAny_eq_false
      (Place.isAny_of_is wf.root_is_program (List.mem_singleton_self _)) (by decide)
    rw [noName] at isName
    contradiction
  | child around below => exact ⟨_, Place.parent?_of_mem_children below, around, below⟩

/-- A name shows what it means. -/
theorem shows_name (wf : WellFormed root) (held : root.Holds name)
    (isName : name.isName = true) :
    (ofRoot root).Shows name ((ofRoot root).nameElement name) := by
  obtain ⟨childless, visible, _⟩ := wf.name_token held isName
  obtain ⟨parent, above, _, _⟩ := exists_parent wf held isName
  refine shows_of_token wf held childless visible ?_
  simp [tokenElement?, above, isName]

/-- A name shows one element only. -/
theorem shows_name_iff (wf : WellFormed root) (held : root.Holds name)
    (isName : name.isName = true) :
    (ofRoot root).Shows name element ↔ (ofRoot root).nameElement name = element := by
  have shown := shows_name wf held isName
  constructor
  · intro other
    exact Option.some.inj <|
      (shown.everywhere name.start (Nat.le_refl _) shown.visible).symm.trans
        (other.everywhere name.start (Nat.le_refl _) shown.visible)
  · rintro rfl
    exact shown

end SourceFile

end CaretName
