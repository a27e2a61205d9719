import CaretName.Proofs.Grammar.Contents
import CaretName.Proofs.Grammar.Required
import CaretName.SourceFile.Callable

/-!
# Counting parameters and arguments

Overloads are told apart by numbers: of the parameters that a declaration has, of the types that
are shown for them, and of the arguments that a call gives. The three are counted in different
ways. In a source without errors they agree, whatever comments stand between: every parameter has
a type to show, and there is one argument more than there are commas.
-/
namespace CaretName

namespace Place

/-- Whether the last parameter of a list takes any number of values. -/
def isVariadic (list : Place) : Bool := list.parameters.getLast?.any (·.is .spreadParameter)

/-- The commas in a list. -/
def commas (list : Place) : Nat := list.children.countP (·.isMark ",")

variable {list : Place} {count : Nat}

/-- A list whose last parameter takes any number of values takes as many arguments as it has other
parameters, or more. -/
theorem takes_of_isVariadic (variadic : list.isVariadic = true) :
    list.takes count = true ↔ list.parameters.length ≤ count + 1 := by
  rw [takes, show list.parameters.getLast?.any (·.is .spreadParameter) = true from variadic,
    if_pos rfl, decide_eq_true_iff]

/-- Any other list takes as many arguments as it has parameters. -/
theorem takes_of_not_isVariadic (fixed : list.isVariadic = false) :
    list.takes count = true ↔ list.parameters.length = count := by
  rw [takes, show list.parameters.getLast?.any (·.is .spreadParameter) = false from fixed,
    if_neg Bool.false_ne_true, beq_iff_eq]
  exact eq_comm

end Place

open Grammar

variable {source : String} {place list call : Place}

/-- What holds only of nodes that are no extras is counted alike with and without these. -/
theorem Place.countP_essentials {test : Node → Bool}
    (meant : ∀ child ∈ place.children, test child.node = true → child.node.isExtra = false) :
    (Node.essentials place.node.children).countP test =
      place.children.countP fun child => test child.node := by
  rw [Node.essentials, ← Place.map_node_children, List.countP_filter, List.countP_map]
  refine List.countP_congr fun child below => ?_
  simp only [Function.comp_apply, Bool.and_eq_true, Bool.not_eq_true', and_iff_left_iff_imp]
  exact meant child below

section Accepted

variable (accepted : accepts source = true)

include accepted

/-- Every construct of a source other than the whole file has an origin. -/
theorem origin_of_held {construct : Construct} (held : (parse source).Holds place)
    (kind : place.kind = .construct construct) (other : construct ≠ .program) :
    Rule.Origin rules place.node := by
  cases held with
  | root =>
    have isProgram := Place.is_iff.mp (wellFormed_parse accepted).root_is_program
    exact absurd (Kind.construct.inj (kind.symm.trans isProgram)) other
  | child held below => exact (origin_at accepted held below).here

/-- Every construct of a source other than the whole file holds what it must. -/
theorem complete_of_held {construct : Construct} (held : (parse source).Holds place)
    (kind : place.kind = .construct construct) (other : construct ≠ .program) :
    place.node.Complete construct := (origin_of_held accepted held kind other).complete kind

/-- A construct has a child in each role that it requires. -/
theorem exists_child? {constructs : List Construct} {role : Role}
    (held : (parse source).Holds place) (inside : place.isAny constructs = true)
    (required : ∀ construct ∈ constructs, role ∈ requiredRoles construct) :
    ∃ child, place.child? role = some child := by
  obtain ⟨construct, listed, kind⟩ := Place.isAny_iff.mp inside
  have asked := required construct listed
  have other : construct ≠ .program := by
    rintro rfl
    contradiction
  obtain ⟨node, among, _, sight, passes, fits⟩ :=
    (complete_of_held accepted held kind other).demanded _
      (List.mem_append_left _ (List.mem_map_of_mem asked))
  obtain ⟨child, below, rfl⟩ := Place.exists_mem_children among
  have roled : child.node.role = some role := fits.2.trans (eq_of_beq passes)
  exact Option.isSome_iff_exists.mp (List.find?_isSome.mpr ⟨child, below, by simp [roled]⟩)

/-- The child of a construct in a role is one of those that may stand there. -/
theorem isAny_roleContents {constructs contents : List Construct} {role : Role}
    (held : (parse source).Holds place) (inside : place.isAny constructs = true)
    (table : ∀ construct ∈ constructs, roleContents construct role = some contents)
    {child : Place} (found : place.child? role = some child) : child.isAny contents = true := by
  obtain ⟨construct, listed, kind⟩ := Place.isAny_iff.mp inside
  have expected := table construct listed
  have other : construct ≠ .program := by
    rintro rfl
    cases role <;> contradiction
  obtain ⟨below, roled⟩ := Place.mem_children_of_child? found
  rcases (complete_of_held accepted held kind other).allowed child.node
    (Place.node_mem_of_mem_children below) with ⟨_, free⟩ | ⟨sight, allowed, fits⟩
  · rw [roled] at free
    contradiction
  · have looks : sight.look ∈ contents.map Look.construct := by
      simpa [allows, ← fits.2, roled, expected] using (Bool.and_eq_true_iff.mp allowed).1
    obtain ⟨own, among, same⟩ := List.mem_map.mp looks
    have itself := fits.1
    rw [← same] at itself
    exact Place.isAny_iff.mpr ⟨own, among, itself⟩

/-- The declaration of a type that is no record has no parameters. -/
theorem child?_parameters_eq_none (held : (parse source).Holds place)
    (inside : place.isAny parameterless = true) : place.child? .parameters = none := by
  cases found : place.child? .parameters with
  | none => rfl
  | some list =>
    have none : list.isAny [] = true :=
      isAny_roleContents accepted held inside (by decide) found
    contradiction

/-- What a call gives its arguments in is a list of them. -/
theorem is_argumentList (held : (parse source).Holds call)
    (isCall : call.isAny callConstructs = true) (found : call.child? .arguments = some list) :
    list.is .argumentList = true := by
  have isList : list.isAny [.argumentList] = true :=
    isAny_roleContents accepted held isCall (by decide) found
  rwa [Place.isAny_singleton] at isList

/-- A parameter of any number of values has a type. -/
theorem exists_spreadType? (held : (parse source).Holds place)
    (isSpread : place.is .spreadParameter = true) : ∃ type, place.spreadType? = some type := by
  obtain ⟨node, among, _, sight, passes, fits⟩ :=
    (complete_of_held accepted held (Place.is_iff.mp isSpread) (by decide)).demanded _
      List.mem_cons_self
  obtain ⟨child, below, rfl⟩ := Place.exists_mem_children among
  have isType : child.isAny (.arrayType :: simpleTypes) = true := by
    have looks : sight.look ∈ (.arrayType :: simpleTypes).map Look.construct :=
      List.contains_iff_mem.mp passes
    obtain ⟨construct, listed, look⟩ := List.mem_map.mp looks
    have kind := fits.1
    rw [← look] at kind
    exact Place.isAny_iff.mpr ⟨construct, listed, kind⟩
  have isPart : child.node.isPart = true := Place.isPart_of_isAny isType (by decide)
  have noName : child.isAny [.modifiers, .variableDeclarator] = false :=
    Place.isAny_eq_false isType (by decide)
  have noAnnotation : child.annotates = false := Place.isAny_eq_false isType (by decide)
  exact Option.isSome_iff_exists.mp <| List.find?_isSome.mpr
    ⟨child, Place.mem_parts.mpr ⟨below, isPart⟩, by simp [noName, noAnnotation]⟩

/-- As many types are shown as there are parameters. -/
theorem length_parameterTypes (held : (parse source).Holds list) :
    list.parameterTypes.length = list.parameters.length := by
  refine List.filterMap_length_eq_length.mpr fun parameter listed => ?_
  obtain ⟨inside, kinds⟩ := List.mem_filter.mp listed
  have heldParameter := held.of_part inside
  cases isFormal : parameter.is .formalParameter with
  | true =>
    obtain ⟨type, found⟩ : ∃ type, parameter.child? .type = some type :=
      exists_child? accepted heldParameter
        (Place.isAny_of_is isFormal (List.mem_singleton_self _)) (by decide)
    simp [found]
  | false =>
    have isSpread : parameter.is .spreadParameter = true := by
      rw [Place.isAny_cons, isFormal, Place.isAny_singleton] at kinds
      simpa using kinds
    obtain ⟨type, found⟩ := exists_spreadType? accepted heldParameter isSpread
    simp [found]

/-- Arguments are counted by the commas between them: there are none, or one more. -/
theorem argumentCount_eq (held : (parse source).Holds call)
    (isCall : call.isAny callConstructs = true) : ∃ list, call.child? .arguments = some list ∧
      (call.argumentCount = 0 ∧ list.commas = 0 ∨ call.argumentCount = list.commas + 1) := by
  obtain ⟨list, found⟩ : ∃ list, call.child? .arguments = some list :=
    exists_child? accepted held isCall (by decide)
  refine ⟨list, found, ?_⟩
  have heldList := held.of_child? found
  have isList := is_argumentList accepted held isCall found
  have counted := (complete_of_held accepted heldList (Place.is_iff.mp isList) (by decide)).arguments
    rfl
  have parts : (Node.essentials list.node.children).countP Node.isPart = call.argumentCount := by
    rw [Place.countP_essentials fun child below => (wellFormed_parse accepted).isExtra_of_isPart
      (heldList.child below), Place.argumentCount, found, Option.map_some, Option.getD_some,
      Place.parts, List.countP_eq_length_filter]
  have commas : (Node.essentials list.node.children).countP (·.kind == .mark ",") =
      list.commas := by
    refine Place.countP_essentials fun child _ isComma => ?_
    have kind : child.node.kind = .mark "," := eq_of_beq isComma
    simp [Node.isExtra, Node.isComment, Node.isAny, Node.is, kind]
  rwa [Node.CommaSeparated, parts, commas] at counted

end Accepted

end CaretName
