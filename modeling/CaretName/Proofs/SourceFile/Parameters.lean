import CaretName.Proofs.Grammar.Apart
import CaretName.Proofs.Grammar.Types
import CaretName.Proofs.SourceFile.Arity
import CaretName.Proofs.Text.Compact

/-!
# How parameters are written

A parameter of one value holds its type, its name and the brackets after the name in roles. One of
any number of values has no roles: its type is what is neither modifiers nor a declarator, and the
name and the brackets stand in the declarator. In a source without errors both forms are complete,
and brackets that are written can be seen in what is shown of the type.
-/
namespace CaretName

open Grammar

/-- Constructs that are parameters. -/
def parameterConstructs : List Construct := [.formalParameter, .spreadParameter]

namespace Place

/-- The type that a parameter is declared with. -/
def parameterType? (parameter : Place) : Option Place :=
  if parameter.is .formalParameter then parameter.child? .type else parameter.spreadType?

/-- What holds the name of a parameter and the brackets after it. -/
def nameHolder? (parameter : Place) : Option Place :=
  if parameter.is .formalParameter then some parameter else parameter.spreadDeclarator?

/-- How a parameter appears among the parameters of its list. -/
def parameterRef? (parameter : Place) : Option TypeRef :=
  if parameter.is .formalParameter then
    (parameter.child? .type).map fun type => type.typeRef parameter.bracketsAfterName false
  else
    parameter.spreadType?.map fun type =>
      type.typeRef ((parameter.spreadDeclarator?.map bracketsAfterName).getD "") true

/-- The types of the parameters in a list are how these appear. -/
theorem parameterTypes_eq (list : Place) :
    list.parameterTypes = list.parameters.filterMap parameterRef? := rfl

/-- A parameter with its type, what holds its name, and the name. -/
structure IsParameter (parameter type holder name : Place) : Prop where
  itself : parameter.isAny parameterConstructs = true
  typed : parameter.parameterType? = some type
  plain : type.isAny (.arrayType :: simpleTypes) = true
  holds : parameter.nameHolder? = some holder
  held : holder.isAny nameHolders = true
  named : holder.child? .name = some name
  spelled : name.isAny [.identifier, .underscorePattern] = true

variable {parameter type holder name : Place}

/-- A parameter of any number of values is one that is not of one value. -/
theorem is_spreadParameter_eq (isParameter : parameter.isAny parameterConstructs = true) :
    parameter.is .spreadParameter = !parameter.is .formalParameter := by
  cases isFormal : parameter.is .formalParameter with
  | true => exact is_eq_false (isAny_of_is isFormal (List.mem_singleton_self _)) (by decide)
  | false =>
    rw [parameterConstructs, isAny_cons, isAny_singleton] at isParameter
    simpa [isFormal] using isParameter

/-- A parameter appears by its type, the brackets after its name, and whether it takes any number of
values. -/
theorem IsParameter.parameterRef? (written : parameter.IsParameter type holder name) :
    parameter.parameterRef? =
      some (type.typeRef holder.bracketsAfterName (parameter.is .spreadParameter)) := by
  have spread := is_spreadParameter_eq written.itself
  obtain ⟨-, typed, -, holds, -⟩ := written
  unfold parameterType? at typed
  unfold nameHolder? at holds
  unfold Place.parameterRef?
  rw [spread]
  cases isFormal : parameter.is .formalParameter with
  | true =>
    simp only [isFormal, ↓reduceIte] at typed holds ⊢
    obtain rfl := Option.some.inj holds
    rw [typed]
    rfl
  | false =>
    simp only [isFormal, Bool.false_eq_true, ↓reduceIte] at typed holds ⊢
    rw [typed, holds]
    rfl

end Place

variable {source : String} {place parameter type holder name : Place}

section Accepted

variable (accepted : accepts source = true)

include accepted

/-- The parts of a parameter of any number of values look as is asked of them. -/
theorem isAny_spreadContents (held : (parse source).Holds place)
    (isSpread : place.is .spreadParameter = true) {part : Place} (inside : part ∈ place.parts) :
    part.isAny spreadContents = true := by
  obtain ⟨below, isPart⟩ := Place.mem_parts.mp inside
  rcases (complete_of_held accepted held (Place.is_iff.mp isSpread) (by decide)).allowed part.node
    (Place.node_mem_of_mem_children below) with ⟨extra, _⟩ | ⟨sight, allowed, look, _⟩
  · rw [(wellFormed_parse accepted).isExtra_of_isPart (held.child below) isPart] at extra
    contradiction
  · have looks := (Bool.and_eq_true_iff.mp allowed).2
    simp only [bne_self_eq_false, Bool.false_or, Bool.or_eq_true, beq_iff_eq,
      List.contains_iff_mem, List.mem_map] at looks
    rcases looks with mark | ⟨own, listed, same⟩
    · rw [mark] at look
      obtain ⟨text, isMark⟩ := look
      rw [Node.isPart_of_mark isMark] at isPart
      contradiction
    · rw [← same] at look
      exact Place.isAny_iff.mpr ⟨own, listed, look⟩

/-- The type of a parameter of any number of values is a plain one. -/
theorem isAny_spreadType (held : (parse source).Holds place)
    (isSpread : place.is .spreadParameter = true) (found : place.spreadType? = some type) :
    type.isAny (.arrayType :: simpleTypes) = true := by
  have inside := isAny_spreadContents accepted held isSpread (List.mem_of_find?_eq_some found)
  have passes := List.find?_some found
  obtain ⟨construct, listed, kind⟩ := Place.isAny_iff.mp inside
  simp only [Bool.and_eq_true, Bool.not_eq_true'] at passes
  have other {constructs : List Construct} (none : type.isAny constructs = false) :
      construct ∉ constructs := fun among => by
    rw [Place.isAny_iff.mpr ⟨construct, among, kind⟩] at none
    contradiction
  have noName := other passes.1
  have noAnnotation := other passes.2
  refine Place.isAny_iff.mpr ⟨construct, ?_, kind⟩
  simp only [spreadContents, annotationConstructs, List.mem_cons, List.mem_append,
    List.not_mem_nil, or_false, not_or] at listed noName noAnnotation ⊢
  tauto

/-- A parameter of any number of values has a declarator. -/
theorem exists_spreadDeclarator? (held : (parse source).Holds place)
    (isSpread : place.is .spreadParameter = true) :
    ∃ declarator, place.spreadDeclarator? = some declarator := by
  obtain ⟨node, among, _, sight, passes, fits⟩ :=
    (complete_of_held accepted held (Place.is_iff.mp isSpread) (by decide)).demanded _
      (List.mem_cons_of_mem _ List.mem_cons_self)
  obtain ⟨child, below, rfl⟩ := Place.exists_mem_children among
  have kind := fits.1
  rw [show sight.look = .construct .variableDeclarator from eq_of_beq passes] at kind
  have isDeclarator : child.is .variableDeclarator = true := Place.is_iff.mpr kind
  have isPart : child.node.isPart = true :=
    Place.isPart_of_isAny (Place.isAny_of_is isDeclarator (List.mem_singleton_self _)) (by decide)
  exact Option.isSome_iff_exists.mp <| List.find?_isSome.mpr
    ⟨child, Place.mem_parts.mpr ⟨below, isPart⟩, isDeclarator⟩

/-- Every parameter has a type, and a name in what holds its name. -/
theorem exists_isParameter (held : (parse source).Holds parameter)
    (isParameter : parameter.isAny parameterConstructs = true) :
    ∃ type holder name, parameter.IsParameter type holder name ∧
      (parse source).Holds type ∧ (parse source).Holds holder ∧
      (holder = parameter ∨ holder ∈ parameter.parts) := by
  have named {holder : Place} (heldHolder : (parse source).Holds holder)
      (isHolder : holder.isAny nameHolders = true) :
      ∃ name, holder.child? .name = some name ∧
        name.isAny [.identifier, .underscorePattern] = true := by
    obtain ⟨name, found⟩ : ∃ name, holder.child? .name = some name :=
      exists_child? accepted heldHolder isHolder (by decide)
    exact ⟨name, found, isAny_roleContents accepted heldHolder isHolder (by decide) found⟩
  cases isFormal : parameter.is .formalParameter with
  | true =>
    have inside : parameter.isAny [.formalParameter] = true :=
      Place.isAny_of_is isFormal (List.mem_singleton_self _)
    obtain ⟨type, found⟩ : ∃ type, parameter.child? .type = some type :=
      exists_child? accepted held inside (by decide)
    have isHolder : parameter.isAny nameHolders = true := Place.isAny_mono inside (by decide)
    obtain ⟨name, hasName, spelled⟩ := named held isHolder
    exact ⟨type, parameter, name,
      ⟨isParameter, by rw [Place.parameterType?, if_pos isFormal, found],
        isAny_roleContents accepted held inside (by decide) found,
        by rw [Place.nameHolder?, if_pos isFormal], isHolder, hasName, spelled⟩,
      held.of_child? found, held, .inl rfl⟩
  | false =>
    have isSpread : parameter.is .spreadParameter = true := by
      rw [Place.is_spreadParameter_eq isParameter, isFormal]
      rfl
    obtain ⟨type, found⟩ := exists_spreadType? accepted held isSpread
    obtain ⟨declarator, declares⟩ := exists_spreadDeclarator? accepted held isSpread
    have listed := List.mem_of_find?_eq_some declares
    have heldDeclarator := held.of_part listed
    have isDeclarator : declarator.is .variableDeclarator = true := by
      simpa using List.find?_some declares
    have isHolder : declarator.isAny nameHolders = true :=
      Place.isAny_of_is isDeclarator (by decide)
    obtain ⟨name, hasName, spelled⟩ := named heldDeclarator isHolder
    have noFormal : ¬ parameter.is .formalParameter = true := by simp [isFormal]
    exact ⟨type, declarator, name,
      ⟨isParameter, by rw [Place.parameterType?, if_neg noFormal, found],
        isAny_spreadType accepted held isSpread found,
        by rw [Place.nameHolder?, if_neg noFormal, declares], isHolder, hasName, spelled⟩,
      held.of_part (List.mem_of_find?_eq_some found), heldDeclarator, .inr listed⟩

/-- Something is shown of the brackets after a name exactly if there are some. -/
theorem bracketsAfterName_eq_empty_iff (held : (parse source).Holds holder)
    (isHolder : holder.isAny nameHolders = true) :
    holder.bracketsAfterName = "" ↔ holder.child? .dimensions = none := by
  cases found : holder.child? .dimensions with
  | none => simp [Place.bracketsAfterName, found]
  | some brackets =>
    have isDimensions : brackets.isAny [.dimensions] = true :=
      isAny_roleContents accepted held isHolder (by decide) found
    rw [Place.isAny_singleton] at isDimensions
    have below := (Place.mem_children_of_child? found).1
    obtain ⟨child, inside, gap, seen⟩ := (origin_at accepted held below).here.dimensions isDimensions
    have listed : (⟨gap, "["⟩ : Piece) ∈ brackets.node.pieces := by
      rw [Node.pieces_of_children (List.ne_nil_of_mem inside), Node.piecesAll_eq]
      exact List.mem_flatMap.mpr ⟨child, inside, by simp [seen]⟩
    have shown : '[' ∈ brackets.text.toList := by
      rw [Place.text, Node.text_eq ((spelled_parse accepted).child held below).1]
      exact Piece.mem_joined listed (show '[' ∈ "[".toList by decide)
    have kept : '[' ∈ (compact brackets.text.toList).filter (!isBlank ·) := by
      rw [compact, filter_compactAfter]
      exact List.mem_filter.mpr ⟨shown, by decide⟩
    have some : holder.bracketsAfterName ≠ "" := by
      intro empty
      have none : compact brackets.text.toList = [] := by
        simpa [Place.bracketsAfterName, found, compactType] using empty
      simp [none] at kept
    simpa using some

end Accepted

end CaretName
