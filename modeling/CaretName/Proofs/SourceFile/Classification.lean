import CaretName.Proofs.Grammar.Types
import CaretName.Proofs.SourceFile.Dotted
import CaretName.Proofs.SourceFile.Parameters

/-!
# Kinds of parameters

Among the parameters of a method a type appears as an array, as a primitive type, as a type variable
or as a declared type with its simple name. The simple name is found from the outside, going into
the type that arguments are given to, and the segments of a dotted name are collected from all of
it; both end in the same name (`Place.simpleTypeName?_eq_some`). Whether a simple name is a type
variable depends on all type parameters around it.
-/
namespace CaretName

open Grammar Grammar.WellFormed

namespace Place

/-- Whether a parameter with a type is an array: it takes any number of values, has brackets after
its name, or is declared so. -/
def WrittenAsArray (parameter type holder : Place) : Prop :=
  parameter.is .spreadParameter = true ∨ (holder.child? .dimensions).isSome ∨
    type.is .arrayType = true

/-- Whether a type is a single name, and one that a declaration around it gives to a parameter for
types. -/
def NamesTypeParameter (type : Place) : Prop :=
  type.is .typeIdentifier = true ∧ ∃ declaration ∈ type.ancestors,
    declaration.isAny genericDeclarations = true ∧ ∃ list, declaration.child? .typeParameters = some list ∧
      ∃ parameter ∈ list.parts, parameter.is .typeParameter = true ∧
        ∃ name ∈ parameter.parts, name.is .typeIdentifier = true ∧ name.text = type.text

/-- How a parameter is classified by its type and by what holds its name. -/
structure Classified (parameter type holder : Place) (shown : TypeRef) : Prop where
  array : (∃ text, shown = .array text) ↔ parameter.WrittenAsArray type holder
  primitive : ¬ parameter.WrittenAsArray type holder →
    ((∃ text, shown = .primitive text) ↔ type.isAny primitiveTypes = true)
  typeVariable : ¬ parameter.WrittenAsArray type holder → type.isAny primitiveTypes = false →
    ((∃ text, shown = .typeVariable text) ↔ type.NamesTypeParameter)
  declared : ¬ parameter.WrittenAsArray type holder → type.isAny primitiveTypes = false →
    ¬ type.NamesTypeParameter → ∃ segment, type.segments.getLast? = some segment ∧
      segment.is .typeIdentifier = true ∧
      shown = .declared segment.text (compactType type.text) ∧
      ∀ char ∈ segment.text.toList, isBlank char = false ∧ char ∉ ".,<>[]@".toList

namespace Classified

variable {parameter type holder : Place} {text : String}

/-- An array. -/
theorem ofArray (written : parameter.WrittenAsArray type holder) :
    parameter.Classified type holder (.array text) where
  array := by simp [written]
  primitive none := absurd written none
  typeVariable none := absurd written none
  declared none := absurd written none

/-- A primitive type. -/
theorem ofPrimitive (noArray : ¬ parameter.WrittenAsArray type holder)
    (isPrimitive : type.isAny primitiveTypes = true) :
    parameter.Classified type holder (.primitive text) where
  array := by simp [noArray]
  primitive _ := by simp [isPrimitive]
  typeVariable _ none := by simp [isPrimitive] at none
  declared _ none := by simp [isPrimitive] at none

/-- A type variable. -/
theorem ofTypeVariable (noArray : ¬ parameter.WrittenAsArray type holder)
    (noPrimitive : type.isAny primitiveTypes = false) (names : type.NamesTypeParameter) :
    parameter.Classified type holder (.typeVariable text) where
  array := by simp [noArray]
  primitive _ := by simp [noPrimitive]
  typeVariable _ _ := by simp [names]
  declared _ _ none := absurd names none

/-- A declared type. -/
theorem ofDeclared {segment : Place} (noArray : ¬ parameter.WrittenAsArray type holder)
    (noPrimitive : type.isAny primitiveTypes = false) (noName : ¬ type.NamesTypeParameter)
    (last : type.segments.getLast? = some segment) (isName : segment.is .typeIdentifier = true)
    (plain : ∀ char ∈ segment.text.toList, isBlank char = false ∧ char ∉ ".,<>[]@".toList) :
    parameter.Classified type holder (.declared segment.text (compactType type.text)) where
  array := by simp [noArray]
  primitive _ := by simp [noPrimitive]
  typeVariable _ _ := by simp [noName]
  declared _ _ _ := ⟨segment, last, isName, rfl, plain⟩

end Classified

variable {root : Node} {place type segment : Place}

/-! ## Words -/

/-- A word has neither white space nor signs of types in it. -/
theorem plain_of_isWord {text : String} (word : IsWord text) :
    ∀ char ∈ text.toList, isBlank char = false ∧ char ∉ ".,<>[]@".toList := by
  intro char inside
  have continues := word.2 char inside
  refine ⟨?_, fun sign => ?_⟩
  · rw [Bool.eq_false_iff]
    intro blank
    rw [continuesIdentifier_of_isBlank blank] at continues
    contradiction
  · have apart : ".,<>[]@".toList.all (!continuesIdentifier ·) = true := by decide
    have stops := List.all_eq_true.mp apart char sign
    rw [continues] at stops
    contradiction

/-! ## Parts in order -/

/-- The nodes of the parts are the parts among the essential children. -/
theorem map_node_parts (wf : WellFormed root) (held : root.Holds place) :
    place.parts.map node = (Node.essentials place.node.children).filter Node.isPart := by
  have filtered : place.parts.map node = place.node.children.filter Node.isPart := by
    rw [parts, ← map_node_children, List.filter_map]
    rfl
  rw [filtered, Node.essentials, List.filter_filter]
  refine List.filter_congr fun child inside => ?_
  obtain ⟨child, below, rfl⟩ := exists_mem_children inside
  cases isPart : child.node.isPart with
  | true => simp [wf.isExtra_of_isPart (held.child below) isPart]
  | false => rfl

/-- A name is a part. -/
theorem isPart_of_is_typeIdentifier {node : Node} (isName : node.is .typeIdentifier = true) :
    node.isPart = true :=
  isPart_of_isAny (isAny_of_is (show (Place.root node).is .typeIdentifier = true from isName)
    (List.mem_singleton_self _)) (by decide)

/-! ## The last segment -/

/-- A type that no annotations stand in front of is the type itself. -/
theorem unannotated_eq (plain : type.isAny (.arrayType :: simpleTypes) = true) :
    type.unannotated = type := by
  have noAnnotations : type.is .annotatedType = false := is_eq_false plain (by decide)
  rw [unannotated, noAnnotations]
  rfl

/-- What ends in the name of a type has this name for its last part. -/
theorem getLast?_parts (wf : WellFormed root) (held : root.Holds place) {front : List Node}
    {name : Node} (children : Node.essentials place.node.children = front ++ [name])
    (isName : name.is .typeIdentifier = true) :
    ∃ before last, place.parts = before ++ [last] ∧ last.is .typeIdentifier = true := by
  have parts := map_node_parts wf held
  rw [children, List.filter_append, List.filter_singleton, isPart_of_is_typeIdentifier isName,
    cond_true] at parts
  obtain ⟨before, rest, split, -, single⟩ := List.map_eq_append_iff.mp parts
  obtain ⟨last, _, rfl, rfl, none⟩ := List.map_eq_cons_iff.mp single
  obtain rfl := List.map_eq_nil_iff.mp none
  exact ⟨before, last, split, isName⟩

end Place

variable {source : String} {place type parameter holder : Place}

section Accepted

variable (accepted : accepts source = true)

include accepted

/-- The simple name of a type without type arguments is its last segment. -/
theorem rawTypeName?_eq_some (held : (parse source).Holds type)
    (isRaw : type.isAny rawTypes = true) :
    ∃ segment, type.segments.getLast? = some segment ∧ segment.is .typeIdentifier = true ∧
      type.rawTypeName? = some segment.text := by
  have wf := wellFormed_parse accepted
  have same := Place.unannotated_eq (Place.isAny_mono isRaw (by decide))
  cases isName : type.is .typeIdentifier with
  | true =>
    have named : type.isName = true := Place.isAny_of_is isName (by decide)
    exact ⟨type, by rw [Place.segments_of_isName named]; rfl, isName,
      by simp [Place.rawTypeName?, same, isName]⟩
  | false =>
    have isScoped : type.is .scopedTypeIdentifier = true := by
      rw [rawTypes, Place.isAny_cons, isName, Place.isAny_singleton] at isRaw
      simpa using isRaw
    have dotted : type.isAny dottedNames = true := Place.isAny_of_is isScoped (by decide)
    have origin := origin_of_held accepted held (Place.is_iff.mp isScoped) (by decide)
    obtain ⟨front, name, children, isLast⟩ := origin.scopedTypeIdentifier isScoped
    obtain ⟨before, last, split, isLast⟩ := Place.getLast?_parts wf held children isLast
    have named : last.isName = true := Place.isAny_of_is isLast (by decide)
    refine ⟨last, ?_, isLast, ?_⟩
    · rw [Place.segments_of_dotted dotted, split, List.flatMap_append, List.flatMap_singleton,
        Place.segments_of_isName named, List.getLast?_concat]
    · simp [Place.rawTypeName?, same, isName, isScoped, split, isLast]

/-- The parts of a generic type are a type without type arguments, which is its first construct, and
type arguments. -/
theorem parts_genericType (held : (parse source).Holds type)
    (isGeneric : type.is .genericType = true) :
    ∃ raw arguments, type.parts = [raw, arguments] ∧ type.constructs.head? = some raw ∧
      raw.isAny rawTypes = true ∧ arguments.is .typeArguments = true := by
  have wf := wellFormed_parse accepted
  have origin := origin_of_held accepted held (Place.is_iff.mp isGeneric) (by decide)
  obtain ⟨rawNode, argumentsNode, children, head, isRaw, isArguments⟩ :=
    origin.genericType isGeneric
  have rawPart : rawNode.isPart = true := 
    Place.isPart_of_isAny (show (Place.root rawNode).isAny rawTypes = true from isRaw) (by decide)
  have argumentsPart : argumentsNode.isPart = true := Place.isPart_of_isAny (Place.isAny_of_is
    (show (Place.root argumentsNode).is .typeArguments = true from isArguments)
      (List.mem_singleton_self _)) (by decide)
  have parts := Place.map_node_parts wf held
  rw [children, List.filter_cons_of_pos rawPart, List.filter_cons_of_pos argumentsPart] at parts
  obtain ⟨raw, rest, split, rfl, others⟩ := List.map_eq_cons_iff.mp parts
  obtain ⟨arguments, _, rfl, rfl, none⟩ := List.map_eq_cons_iff.mp others
  obtain rfl := List.map_eq_nil_iff.mp none
  exact ⟨raw, arguments, split, head?_constructs split head, isRaw, isArguments⟩

/-- The simple name of a class type is its last segment. Type arguments have none. -/
theorem simpleTypeName?_eq_some (held : (parse source).Holds type)
    (isClass : type.isAny (.typeIdentifier :: typePaths) = true) :
    ∃ segment, type.segments.getLast? = some segment ∧ segment.is .typeIdentifier = true ∧
      type.simpleTypeName? = some segment.text := by
  have wf := wellFormed_parse accepted
  have same := Place.unannotated_eq (Place.isAny_mono isClass (by decide))
  cases isGeneric : type.is .genericType with
  | false =>
    have isRaw : type.isAny rawTypes = true := by
      obtain ⟨construct, listed, kind⟩ := Place.isAny_iff.mp isClass
      refine Place.isAny_iff.mpr ⟨construct, ?_, kind⟩
      simp only [typePaths, List.mem_cons, List.not_mem_nil, or_false] at listed
      rcases listed with rfl | rfl | rfl
      · decide
      · decide
      · rw [Place.is_iff.mpr kind] at isGeneric
        contradiction
    obtain ⟨segment, last, isName, name⟩ := rawTypeName?_eq_some accepted held isRaw
    exact ⟨segment, last, isName, by simp [Place.simpleTypeName?, same, isGeneric, name]⟩
  | true =>
    have dotted : type.isAny dottedNames = true := Place.isAny_of_is isGeneric (by decide)
    obtain ⟨raw, arguments, split, first, isRaw, isArguments⟩ :=
      parts_genericType accepted held isGeneric
    have heldRaw := held.of_part (split ▸ List.mem_cons_self)
    obtain ⟨segment, last, isName, name⟩ := rawTypeName?_eq_some accepted heldRaw isRaw
    have itself : arguments.isAny [.typeArguments] = true := by rwa [Place.isAny_singleton]
    have noSegments : arguments.segments = [] :=
      Place.segments_eq_nil (Place.isAny_eq_false itself (by decide))
        (Place.isAny_eq_false itself (by decide))
    refine ⟨segment, ?_, isName, by simp [Place.simpleTypeName?, same, isGeneric, first, name]⟩
    rw [Place.segments_of_dotted dotted, split]
    simpa [noSegments] using last

/-! ## Names of type parameters -/

/-- A type parameter is known by the one name among its parts. -/
theorem exists_typeParameterName (held : (parse source).Holds parameter)
    (isParameter : parameter.is .typeParameter = true) :
    ∃ name, parameter.parts.find? (·.isAny [.typeIdentifier, .identifier]) = some name ∧
      name.is .typeIdentifier = true ∧
      ∀ other ∈ parameter.parts, other.is .typeIdentifier = true → other.text = name.text := by
  have wf := wellFormed_parse accepted
  obtain ⟨front, node, back, children, isName, others⟩ :=
    (origin_of_held accepted held (Place.is_iff.mp isParameter) (by decide)).typeParameter isParameter
  have inside : node ∈ Node.essentials parameter.node.children := by simp [children]
  obtain ⟨child, below, rfl⟩ := Place.exists_mem_children (Node.mem_essentials.mp inside).1
  have listed : child ∈ parameter.parts :=
    Place.mem_parts.mpr ⟨below, Place.isPart_of_is_typeIdentifier isName⟩
  have same : ∀ part ∈ parameter.parts, part.isAny nameConstructs = true →
      part.node = child.node := by
    intro part among named
    obtain ⟨below, isPart⟩ := Place.mem_parts.mp among
    have essential : part.node ∈ Node.essentials parameter.node.children :=
      Node.mem_essentials.mpr ⟨Place.node_mem_of_mem_children below,
        wf.isExtra_of_isPart (held.child below) isPart⟩
    rw [children] at essential
    by_contra different
    have outside : part.node ∈ front ++ back := by
      simpa [different] using essential
    rw [show part.isAny nameConstructs = false from others part.node outside] at named
    contradiction
  have passes : child.isAny [.typeIdentifier, .identifier] = true :=
    Place.isAny_of_is isName List.mem_cons_self
  have isSome : (parameter.parts.find? (·.isAny [.typeIdentifier, .identifier])).isSome :=
    List.find?_isSome.mpr ⟨child, listed, passes⟩
  obtain ⟨name, found⟩ := Option.isSome_iff_exists.mp isSome
  have first := same name (List.mem_of_find?_eq_some found)
    (Place.isAny_mono (by simpa using List.find?_some found) (by decide))
  refine ⟨name, found, ?_, fun other among named => ?_⟩
  · rw [Place.is, first]
    exact isName
  · have second := same other among (Place.isAny_of_is named (by decide))
    rw [Place.text, Place.text, first, second]

/-- The type parameters of a declaration are known by the names of types in them. -/
theorem mem_typeParameterNames (held : (parse source).Holds place) {text : String} :
    text ∈ place.typeParameterNames ↔ ∃ list, place.child? .typeParameters = some list ∧
      ∃ parameter ∈ list.parts, parameter.is .typeParameter = true ∧
        ∃ name ∈ parameter.parts, name.is .typeIdentifier = true ∧ name.text = text := by
  rw [Place.typeParameterNames, List.mem_filterMap]
  cases found : place.child? .typeParameters with
  | none => simp
  | some list =>
    have heldList := held.of_child? found
    simp only [Option.map_some, Option.getD_some, Option.some.injEq, exists_eq_left']
    refine exists_congr fun parameter => and_congr_right fun listed => ?_
    cases isParameter : parameter.is .typeParameter with
    | false => simp
    | true =>
      obtain ⟨name, first, isName, only⟩ :=
        exists_typeParameterName accepted (heldList.of_part listed) isParameter
      simp only [if_true, first, Option.map_some, Option.some.injEq, true_and]
      refine ⟨fun spelled => ⟨name, List.mem_of_find?_eq_some first, isName, spelled⟩, ?_⟩
      rintro ⟨other, among, named, rfl⟩
      exact (only other among named).symm

/-- A single name is a type variable exactly if a declaration around it gives it to a parameter for
types. -/
theorem seesTypeVariable_iff (held : (parse source).Holds type)
    (isName : type.is .typeIdentifier = true) :
    Place.seesTypeVariable type.text type = true ↔ type.NamesTypeParameter := by
  have itself : type.isAny genericDeclarations = false :=
    Place.isAny_eq_false (Place.isAny_of_is isName (List.mem_singleton_self _)) (by decide)
  rw [Place.seesTypeVariable, Place.outward, List.any_cons, itself, Bool.false_and, Bool.false_or,
    List.any_eq_true, Place.NamesTypeParameter]
  simp only [isName, true_and]
  refine exists_congr fun declaration => and_congr_right fun around => ?_
  rw [Bool.and_eq_true, List.contains_iff_mem,
    mem_typeParameterNames accepted (held.of_ancestor around)]

/-! ## Kinds of parameters -/

/-- How a type that is no array appears without brackets. The cases are those of
`Place.typeRef`. -/
theorem classified_of_simple (heldType : (parse source).Holds type)
    (simple : type.isAny simpleTypes = true)
    (noArray : ¬ parameter.WrittenAsArray type holder) :
    parameter.Classified type holder (type.typeRef "" false) := by
  have same := Place.unannotated_eq (Place.isAny_mono simple (by decide))
  have noArrayType : type.is .arrayType = false := Place.is_eq_false simple (by decide)
  simp only [Place.typeRef, same, noArrayType, bne_self_eq_false, Bool.false_eq_true, if_false]
  cases isPrimitive : type.isAny primitiveTypes with
  | true => exact .ofPrimitive noArray isPrimitive
  | false =>
    have isClass : type.isAny (.typeIdentifier :: typePaths) = true := by
      obtain ⟨construct, listed, kind⟩ := Place.isAny_iff.mp simple
      have apart : construct ∉ primitiveTypes := fun among => by
        rw [Place.isAny_iff.mpr ⟨construct, among, kind⟩] at isPrimitive
        contradiction
      refine Place.isAny_iff.mpr ⟨construct, ?_, kind⟩
      have parted : ∀ construct ∈ simpleTypes,
          construct ∈ primitiveTypes ∨ construct ∈ .typeIdentifier :: typePaths := by decide
      exact (parted construct listed).resolve_left apart
    by_cases names : type.NamesTypeParameter
    · have sees := (seesTypeVariable_iff accepted heldType names.1).mpr names
      simp only [names.1, sees, Bool.and_self, if_true, Bool.false_eq_true, if_false]
      exact .ofTypeVariable noArray isPrimitive names
    · have notSeen : (type.is .typeIdentifier && Place.seesTypeVariable type.text type) = false := by
        rw [Bool.eq_false_iff, ne_eq, Bool.and_eq_true]
        exact fun both => names ((seesTypeVariable_iff accepted heldType both.1).mp both.2)
      obtain ⟨segment, last, isName, simpleName⟩ :=
        simpleTypeName?_eq_some accepted heldType isClass
      have word := ((wellFormed_parse accepted).name_token
        (Place.held_of_mem_segments heldType (List.mem_of_getLast? last))
        (Place.isAny_of_is isName (by decide))).2.2
      simp only [notSeen, simpleName, Option.getD_some, Bool.false_eq_true, if_false]
      exact .ofDeclared noArray isPrimitive names last isName (Place.plain_of_isWord word)

/-- How the parameters of a source are classified. -/
theorem parameter_classified (held : (parse source).Holds parameter)
    (isParameter : parameter.isAny parameterConstructs = true) :
    ∃ type holder name, parameter.IsParameter type holder name ∧
      parameter.parameterRef? =
        some (type.typeRef holder.bracketsAfterName (parameter.is .spreadParameter)) ∧
      parameter.Classified type holder
        (type.typeRef holder.bracketsAfterName (parameter.is .spreadParameter)) := by
  obtain ⟨type, holder, name, written, heldType, heldHolder, _⟩ :=
    exists_isParameter accepted held isParameter
  refine ⟨type, holder, name, written, written.parameterRef?, ?_⟩
  have brackets := bracketsAfterName_eq_empty_iff accepted heldHolder written.held
  cases isSpread : parameter.is .spreadParameter with
  | true => exact .ofArray (.inl isSpread)
  | false =>
    cases found : holder.child? .dimensions with
    | some dimensions =>
      have some : holder.bracketsAfterName ≠ "" := by simp [brackets, found]
      rw [Place.typeRef, if_neg (by simp), if_pos (bne_iff_ne.mpr some)]
      exact .ofArray (.inr (.inl (by simp [found])))
    | none =>
      rw [brackets.mpr found]
      rcases Place.isAny_cons.mp written.plain with isArray | simple
      · have same := Place.unannotated_eq written.plain
        have noPrimitive : type.isAny primitiveTypes = false :=
          Place.isAny_eq_false (Place.isAny_of_is isArray (List.mem_singleton_self _)) (by decide)
        simp only [Place.typeRef, same, isArray, noPrimitive, bne_self_eq_false,
          Bool.false_eq_true, if_false, if_true]
        exact .ofArray (.inr (.inr isArray))
      · refine classified_of_simple accepted heldType simple ?_
        have noArray : type.is .arrayType = false := Place.is_eq_false simple (by decide)
        simp [Place.WrittenAsArray, isSpread, found, noArray]

end Accepted

/-- A method of a class with a type parameter that takes a value of a nested type. -/
def takesEntry : String := "class A<T> { void f(java.util.Map<T, int[]>.Entry<T> e) { } }"

/-- The type of the parameter is a declared one with the last name in it for its simple name. -/
theorem parameter_classified_takesEntry :
    ∃ parameter type segment : Place, (parse takesEntry).Holds parameter ∧
      parameter.parameterType? = some type ∧ type.segments.getLast? = some segment ∧
      segment.text = "Entry" ∧ parameter.parameterRef? =
        some (.declared segment.text "java.util.Map<T, int[]>.Entry<T>") := by
  have used : (accepts takesEntry && ((parse takesEntry).places []).any fun parameter =>
      parameter.isAny parameterConstructs && parameter.parameterRef? ==
        some (.declared "Entry" "java.util.Map<T, int[]>.Entry<T>")) = true := by
    decide +kernel
  obtain ⟨accepted, parameter, held, used⟩ := exists_held_of_search used
  simp only [Bool.and_eq_true, beq_iff_eq] at used
  obtain ⟨isParameter, shown⟩ := used
  obtain ⟨type, holder, name, written, appears, classified⟩ :=
    parameter_classified accepted held isParameter
  obtain same := Option.some.inj (appears.symm.trans shown)
  rw [same] at classified
  have noArray : ¬ parameter.WrittenAsArray type holder := by simp [← classified.array]
  have noPrimitive : type.isAny primitiveTypes = false := by
    simpa using classified.primitive noArray
  have noVariable : ¬ type.NamesTypeParameter := by
    simp [← classified.typeVariable noArray noPrimitive]
  obtain ⟨segment, last, -, declared, -⟩ := classified.declared noArray noPrimitive noVariable
  obtain ⟨simple, text⟩ := TypeRef.declared.inj declared
  exact ⟨parameter, type, segment, held, written.typed, last, simple.symm,
    by rw [shown, simple]⟩

end CaretName
