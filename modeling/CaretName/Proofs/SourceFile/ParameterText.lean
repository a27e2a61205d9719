import CaretName.Proofs.Grammar.Words
import CaretName.Proofs.SourceFile.Constructors
import CaretName.Proofs.SourceFile.Inference
import CaretName.Proofs.SourceFile.Parameters
import CaretName.Proofs.SourceFile.Shown
import CaretName.Proofs.SourceFile.Stability

/-!
# Parameters seen from both sides

The type of a parameter is shown twice: among the types of its method or constructor, which are
read off the list of parameters, and at a caret on its name, where the declaration is looked up
from the name. `parameter_texts` says that both have the same text, for every parameter of a list
and in its order. A parameter may be called `_`, which is no name: what a caret on it shows is the
declaration that it stands in, provided that no name ends there.
-/
namespace CaretName

open Grammar

namespace Place

variable {parameter type holder name : Place}

/-- The name of a parameter declares it, with a type that is written out. -/
theorem IsParameter.takesAsWritten (written : parameter.IsParameter type holder name) :
    TakesAsWritten name type
      (holder.bracketsAfterName ++ if parameter.is .spreadParameter then "..." else "") := by
  have above := parent?_of_mem_children (mem_children_of_child? written.named).1
  have spread := is_spreadParameter_eq written.itself
  have typed := written.typed
  have holds := written.holds
  unfold parameterType? at typed
  unfold nameHolder? at holds
  rw [spread]
  cases isFormal : parameter.is .formalParameter with
  | true =>
    rw [if_pos isFormal] at typed holds
    obtain rfl := Option.some.inj holds
    simpa using TakesAsWritten.parameter above isFormal typed
  | false =>
    rw [isFormal, if_neg Bool.false_ne_true] at typed holds
    rw [isFormal] at spread
    have inside := List.mem_of_find?_eq_some holds
    have isDeclarator : holder.is .variableDeclarator = true := by simpa using List.find?_some holds
    have around := parent?_of_mem_children (mem_children_of_mem_parts inside)
    exact .spread above isDeclarator around spread typed

/-- The element of a parameter has the text that is shown among the types of the list. -/
theorem IsParameter.variableElement (written : parameter.IsParameter type holder name)
    {shown : TypeRef} (listed : parameter.parameterRef? = some shown) :
    name.variableElement = .variable shown.text name.text := by
  have declares : name.declaresVariable = true :=
    declaresVariable_of_child? (isAny_mono written.held (by decide)) written.named
  rw [written.parameterRef?] at listed
  rw [variableElement_eq_variable_iff declares, ← Option.some.inj listed, text_typeRef]
  exact ⟨.written written.takesAsWritten, rfl⟩

end Place

namespace SourceFile

variable {source : String} {parameter type holder name token list : Place}

/-! ## Carets on the names of parameters -/

/-- Just before a token that could continue a name, and anywhere in it, no name ends, unless the
token itself is one. -/
theorem nameEndingAt?_eq_none (accepted : accepts source = true)
    (held : (parse source).Holds token) (childless : token.node.children = [])
    (noName : token.isName = false) (goes : GoesOn token.text.toList) {byte : Nat}
    (after : token.start ≤ byte) (before : byte < token.stop) :
    (ofRoot (parse source)).nameEndingAt? byte = none := by
  have laid := (wellFormed_parse accepted).laid
  have heldRoot : (parse source).Holds (.root (parse source)) := .root
  rw [nameEndingAt?]
  split
  · rfl
  · next later =>
    have positive : byte ≠ 0 := by simpa using later
    refine if_neg fun ends => ?_
    simp only [Bool.and_eq_true, beq_iff_eq] at ends
    rcases Nat.lt_or_ge (byte - 1) token.start with front | inside
    · have same : byte = token.start := by omega
      exact stop_ne_start accepted (heldRoot.narrow ⟨byte - 1, byte⟩) ends.2 held childless goes
        (ends.1.trans same)
    · have itself := held.placeAt_token laid childless inside (by omega) (Nat.le_of_lt before)
      have isName : ((parse source).placeAt ⟨byte - 1, byte⟩).isName = true := ends.2
      rw [itself, noName] at isName
      contradiction

/-- The name of a parameter that is no word means what the place around it declares. -/
theorem enclosingElement?_underscore (file : SourceFile)
    (isUnderscore : name.is .underscorePattern = true) (around : List Place) :
    file.enclosingElement? (name :: around) = file.enclosingElement? around := by
  have kinds := Place.isAny_of_is isUnderscore (List.mem_singleton_self _)
  have noFile : name.is .program = false := Place.is_eq_false kinds (by decide)
  have noType : name.isTypeDeclaration = false := Place.isAny_eq_false kinds (by decide)
  have noBody : name.isAnonymousBody = false := by
    simp [Place.isAnonymousBody, show name.is .classBody = false from
      Place.is_eq_false kinds (by decide)]
  have noCode : name.isAny codeConstructs = false := Place.isAny_eq_false kinds (by decide)
  have others (constructs : List Construct) (apart : .underscorePattern ∉ constructs) :
      name.isAny constructs = false := Place.isAny_eq_false kinds (by simpa using apart)
  rw [enclosingElement?]
  simp [noFile, noType, noBody, noCode, others]

/-- The place around the name of a parameter declares the parameter. -/
theorem enclosingElement?_nameHolder (file : SourceFile)
    (isHolder : holder.isAny nameHolders = true) (named : holder.child? .name = some name)
    (around : List Place) :
    file.enclosingElement? (holder :: around) = some name.variableElement := by
  have noFile : holder.is .program = false := Place.is_eq_false isHolder (by decide)
  have noType : holder.isTypeDeclaration = false := Place.isAny_eq_false isHolder (by decide)
  have noMethod : holder.isAny [.methodDeclaration, .annotationTypeElementDeclaration] = false :=
    Place.isAny_eq_false isHolder (by decide)
  have noConstructor :
      holder.isAny [.constructorDeclaration, .compactConstructorDeclaration] = false :=
    Place.isAny_eq_false isHolder (by decide)
  have noSeveral :
      holder.isAny [.fieldDeclaration, .constantDeclaration, .localVariableDeclaration] = false :=
    Place.isAny_eq_false isHolder (by decide)
  have declares : holder.isAny [.variableDeclarator, .formalParameter, .catchFormalParameter,
    .enumConstant] = true := Place.isAny_mono isHolder (by decide)
  rw [enclosingElement?]
  simp [noFile, noType, noMethod, noConstructor, noSeveral, declares, named]

/-- A name that is a keyword shows the variable that it declares. -/
theorem shows_underscore (accepted : accepts source = true)
    (held : (parse source).Holds holder) (isHolder : holder.isAny nameHolders = true)
    (named : holder.child? .name = some name) (isUnderscore : name.is .underscorePattern = true) :
    (ofRoot (parse source)).Shows name name.variableElement := by
  have wf := wellFormed_parse accepted
  have below := (Place.mem_children_of_child? named).1
  have heldName := held.child below
  have above := Place.parent?_of_mem_children below
  have kinds := Place.isAny_of_is isUnderscore (List.mem_singleton_self _)
  obtain ⟨childless, visible⟩ := wf.keyword_token heldName (Place.isAny_mono kinds (by decide))
  have noName : name.isName = false := Place.isAny_eq_false kinds (by decide)
  have spelled := text_of_keyword? accepted held below isUnderscore rfl
  have goes : GoesOn name.text.toList := by
    rw [spelled]
    exact ⟨'_', rfl, by decide⟩
  have unclassified : name.isClassified = false := by
    have noKeyword : name.isAny [.thisWord, .superWord] = false :=
      Place.isAny_eq_false kinds (by decide)
    have noMark : name.isMark "new" = false := by
      simp [Place.isMark, Place.is_iff.mp isUnderscore]
    simp [Place.isClassified, noName, noKeyword, noMark]
  refine ⟨visible, fun byte after before => ?_⟩
  have found : (ofRoot (parse source)).tokenAt byte = name :=
    tokenAt_eq wf.laid heldName childless after before
  have noEnd := nameEndingAt?_eq_none accepted heldName childless noName goes after before
  rw [elementAt?, found, tokenElement?_eq_none unclassified, noEnd, Place.outward,
    Place.ancestors_of_mem_children below, enclosingElement?_underscore _ isUnderscore,
    Place.outward, enclosingElement?_nameHolder _ isHolder named]
  rfl

/-- The name of a parameter shows the variable that it declares. -/
theorem shows_parameterName (accepted : accepts source = true)
    (held : (parse source).Holds holder) (written : parameter.IsParameter type holder name) :
    (ofRoot (parse source)).Shows name name.variableElement := by
  have named := written.named
  obtain ⟨construct, listed, kind⟩ := Place.isAny_iff.mp written.spelled
  simp only [List.mem_cons, List.not_mem_nil, or_false] at listed
  rcases listed with rfl | rfl
  · have isName := isName_of_identifier (Place.is_iff.mpr kind)
    have declares : name.declaresVariable = true :=
      Place.declaresVariable_of_child? (Place.isAny_mono written.held (by decide)) named
    rw [shows_name_iff (wellFormed_parse accepted) (held.of_child? named) isName]
    exact nameElement_of_declaresVariable _ declares
  · exact shows_underscore accepted held written.held named (Place.is_iff.mpr kind)

/-! ## Lists of parameters -/

/-- A type among those of a list is that of a parameter: a caret on the name of the parameter shows
a variable of this type, wherever it stands in the name. -/
def ShowsParameter (file : SourceFile) (parameter : Place) (shown : TypeRef) : Prop :=
  ∃ type holder name, parameter.IsParameter type holder name ∧
    file.Shows name (.variable shown.text name.text)

/-- Types are those of the parameters in a list, one for each and in their order. -/
def ShowsParameters (file : SourceFile) (list : Place) (types : List TypeRef) : Prop :=
  List.Forall₂ file.ShowsParameter list.parameters types

section Accepted

variable (accepted : accepts source = true)

include accepted

/-- The types of a list are those of its parameters. -/
theorem showsParameters_parameterTypes (held : (parse source).Holds list) :
    (ofRoot (parse source)).ShowsParameters list list.parameterTypes := by
  rw [ShowsParameters, Place.parameterTypes_eq]
  have kinds : ∀ parameter ∈ list.parameters, (parse source).Holds parameter ∧
      parameter.isAny parameterConstructs = true := fun parameter listed =>
    ⟨held.of_part (List.mem_filter.mp listed).1, (List.mem_filter.mp listed).2⟩
  generalize list.parameters = parameters at kinds ⊢
  induction parameters with
  | nil => exact .nil
  | cons parameter rest ih =>
    obtain ⟨⟨heldParameter, isParameter⟩, others⟩ := List.forall_mem_cons.mp kinds
    obtain ⟨type, holder, name, written, _, heldHolder, _⟩ :=
      exists_isParameter accepted heldParameter isParameter
    have listed := written.parameterRef?
    rw [List.filterMap_cons_some listed]
    have shown := shows_parameterName accepted heldHolder written
    rw [written.variableElement listed] at shown
    exact .cons ⟨type, holder, name, written, shown⟩ (ih others)

/-- What is declared with a list of parameters has a name and the list. -/
theorem exists_name_and_parameters {callable : Place} (held : (parse source).Holds callable)
    (kinds : callable.isAny [.methodDeclaration, .constructorDeclaration] = true) :
    ∃ own list, callable.child? .name = some own ∧ own.isName = true ∧
      callable.child? .parameters = some list ∧
      (ofRoot (parse source)).ShowsParameters list list.parameterTypes := by
  obtain ⟨own, named, isIdentifier⟩ :=
    (wellFormed_parse accepted).exists_name held (Place.isAny_mono kinds (by decide))
  obtain ⟨list, found⟩ : ∃ list, callable.child? .parameters = some list :=
    exists_child? accepted held kinds (by decide)
  exact ⟨own, list, named, isName_of_identifier isIdentifier, found,
    showsParameters_parameterTypes accepted (held.of_child? found)⟩

/-- The types that a method shows are those of its parameters. -/
theorem shows_methodParameters {method : Place} (held : (parse source).Holds method)
    (isMethod : method.is .methodDeclaration = true) :
    ∃ own list scope types, method.child? .name = some own ∧
      method.child? .parameters = some list ∧
      (ofRoot (parse source)).Shows own (.method scope own.text types) ∧
      (ofRoot (parse source)).ShowsParameters list types := by
  obtain ⟨own, list, named, isName, found, listed⟩ :=
    exists_name_and_parameters accepted held (Place.isAny_of_is isMethod (by decide))
  have shown := shows_methodName (wellFormed_parse accepted) held
    (Place.isAny_of_is isMethod (by decide)) named isName
  rw [methodElement, Place.declaredName?, named, found] at shown
  exact ⟨own, list, _, _, named, found, shown, listed⟩

/-- The types that a constructor with parameters of its own shows are those of them. -/
theorem shows_constructorParameters {constructor : Place} (held : (parse source).Holds constructor)
    (isConstructor : constructor.is .constructorDeclaration = true) :
    ∃ own list scope types, constructor.child? .name = some own ∧
      constructor.child? .parameters = some list ∧
      (ofRoot (parse source)).Shows own (.constructor scope types) ∧
      (ofRoot (parse source)).ShowsParameters list types := by
  obtain ⟨own, list, named, isName, found, listed⟩ :=
    exists_name_and_parameters accepted held (Place.isAny_of_is isConstructor (by decide))
  have noCompact : constructor.is .compactConstructorDeclaration = false :=
    Place.is_eq_false (Place.isAny_of_is isConstructor (List.mem_singleton_self _)) (by decide)
  have shown := shows_constructorName (wellFormed_parse accepted) held
    (Place.isAny_of_is isConstructor (by decide)) named isName
  simp only [constructorElement, noCompact, Bool.false_eq_true, ↓reduceIte, found] at shown
  exact ⟨own, list, _, _, named, found, shown, listed⟩

/-- The types that a compact constructor of a record shows are those of the components. -/
theorem shows_components {record list constructor : Place}
    (heldRecord : (parse source).Holds record) (declares : record.isTypeDeclaration = true)
    (found : record.child? .parameters = some list)
    (held : (parse source).Holds constructor)
    (isCompact : constructor.is .compactConstructorDeclaration = true)
    (scope : constructor.enclosingScope? = some record) :
    ∃ own types, constructor.child? .name = some own ∧
      (ofRoot (parse source)).Shows own
        (.constructor ((ofRoot (parse source)).qualifiedName record) types) ∧
      (ofRoot (parse source)).ShowsParameters list types := by
  have wf := wellFormed_parse accepted
  have kinds := Place.isAny_of_is isCompact (List.mem_singleton_self _)
  obtain ⟨own, named, isIdentifier⟩ := wf.exists_name held (Place.isAny_mono kinds (by decide))
  have shown := shows_constructorName wf held (Place.isAny_mono kinds (by decide)) named
    (isName_of_identifier isIdentifier)
  simp only [constructorElement, isCompact, ↓reduceIte, scope, Option.bind_some, found,
    Option.map_some, Option.getD_some, scopeName_eq _ declares] at shown
  exact ⟨own, _, named, shown, showsParameters_parameterTypes accepted (heldRecord.of_child? found)⟩

/-- The types that methods and constructors show are those of their parameters, one for each and in
their order, and each has the text that carets on the name of the parameter show. A record shows its
components so: in its compact constructors, and in the constructor that it has without declaring
it. -/
theorem parameter_texts :
    (∀ method : Place, (parse source).Holds method → method.is .methodDeclaration = true →
      ∃ own list scope types, method.child? .name = some own ∧
        method.child? .parameters = some list ∧
        (ofRoot (parse source)).Shows own (.method scope own.text types) ∧
        (ofRoot (parse source)).ShowsParameters list types) ∧
    (∀ constructor : Place, (parse source).Holds constructor →
      constructor.is .constructorDeclaration = true →
      ∃ own list scope types, constructor.child? .name = some own ∧
        constructor.child? .parameters = some list ∧
        (ofRoot (parse source)).Shows own (.constructor scope types) ∧
        (ofRoot (parse source)).ShowsParameters list types) ∧
    ∀ record : Place, (parse source).Holds record → record.is .recordDeclaration = true →
      ∃ list, record.child? .parameters = some list ∧
        (∀ constructor : Place, (parse source).Holds constructor →
          constructor.is .compactConstructorDeclaration = true →
          constructor.enclosingScope? = some record →
          ∃ own types, constructor.child? .name = some own ∧
            (ofRoot (parse source)).Shows own
              (.constructor ((ofRoot (parse source)).qualifiedName record) types) ∧
            (ofRoot (parse source)).ShowsParameters list types) ∧
        ∀ count, list.takes count = true → (∀ other, ¬ Accepts record count other) →
          ∃ types, (ofRoot (parse source)).constructorOf? record count =
              some (.constructor ((ofRoot (parse source)).qualifiedName record) types) ∧
            (ofRoot (parse source)).ShowsParameters list types := by
  refine ⟨fun method held isMethod => shows_methodParameters accepted held isMethod,
    fun constructor held isConstructor => shows_constructorParameters accepted held isConstructor,
    fun record held isRecord => ?_⟩
  have declares : record.isTypeDeclaration = true := Place.isAny_of_is isRecord (by decide)
  obtain ⟨list, found⟩ : ∃ list, record.child? .parameters = some list :=
    exists_child? accepted held (Place.isAny_of_is isRecord (List.mem_singleton_self _)) (by decide)
  refine ⟨list, found, fun constructor => shows_components accepted held declares found,
    fun count takes unfit => ⟨list.parameterTypes, ?_,
      showsParameters_parameterTypes accepted (held.of_child? found)⟩⟩
  have components : record.components? = some list := by
    rw [Place.components?, if_pos isRecord, found]
  exact (constructorOf?_eq_some_iff accepted held declares count _).mpr
    (.canonical unfit ⟨components, takes⟩)

end Accepted

/-- A method whose parameters are an array with brackets in two places, a value without a name, and
any number of values. -/
def mixedParameters : String := "class C { void f(final int[] a[], int _, @A String... b) { } }"

/-- The method shows three types, and the carets on its parameters show them, too. -/
theorem parameter_texts_mixedParameters : accepts mixedParameters = true ∧
    ∃ own list : Place, list.parameters.length = 3 ∧
      (ofRoot (parse mixedParameters)).Shows own
        (.method "C" "f" [.array "int[][]", .primitive "int", .array "String..."]) ∧
      (ofRoot (parse mixedParameters)).ShowsParameters list
        [.array "int[][]", .primitive "int", .array "String..."] := by
  have used : (accepts mixedParameters && ((parse mixedParameters).places []).any fun method =>
      method.is .methodDeclaration &&
        (method.child? .name).any fun own => own.isName &&
          (ofRoot (parse mixedParameters)).nameElement own ==
            .method "C" "f" [.array "int[][]", .primitive "int", .array "String..."]) = true := by
    decide +kernel
  obtain ⟨accepted, method, held, used⟩ := exists_held_of_search used
  simp only [Bool.and_eq_true, Option.any_eq_true, beq_iff_eq] at used
  obtain ⟨isMethod, name, named, isName, means⟩ := used
  obtain ⟨own, list, scope, types, named', _, shown, listed⟩ :=
    (parameter_texts accepted).1 method held isMethod
  obtain rfl : name = own := Option.some.inj (named.symm.trans named')
  rw [shows_name_iff (wellFormed_parse accepted) (held.of_child? named) isName, means] at shown
  obtain ⟨-, -, rfl⟩ := Element.method.inj shown
  refine ⟨accepted, name, list, listed.length_eq, ?_, listed⟩
  exact (shows_name_iff (wellFormed_parse accepted) (held.of_child? named) isName).mpr means

end SourceFile

end CaretName
