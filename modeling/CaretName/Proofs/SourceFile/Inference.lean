import CaretName.Proofs.SourceFile.Coherence

/-!
# Variables declared with `var`

The word `var` in the place of a type leaves the type of a variable open. Declarations of
variables, loops and resources tell the word from types; parameters, handlers and patterns take
what is written for the type, whatever it is. `inferred_variables` says what is shown for a variable
either way, wherever it is used, and that carets show no other variables.
-/
namespace CaretName

open Grammar

namespace Place

/-! ## The types of variables -/

/-- A variable is declared with a type where `var` is told from types. What follows the name is
shown after the type. -/
inductive RecognisesVar (name : Place) : Place → String → Prop
  /-- In a declaration of variables. -/
  | declaration {declarator declaration type : Place} (above : name.parent? = some declarator)
    (isDeclarator : declarator.is .variableDeclarator = true)
    (around : declarator.parent? = some declaration)
    (declares : declaration.isAny
      [.fieldDeclaration, .constantDeclaration, .localVariableDeclaration] = true)
    (typed : declaration.child? .type = some type) :
    RecognisesVar name type declarator.bracketsAfterName
  /-- For the elements that a loop runs over, or as a resource. -/
  | loop {around type : Place} (above : name.parent? = some around)
    (declares : around.isAny [.enhancedForStatement, .resource] = true)
    (typed : around.child? .type = some type) : RecognisesVar name type around.bracketsAfterName

/-- A variable is declared with a type where any word is taken for one. What is shown after the
type is what follows the name. -/
inductive TakesAsWritten (name : Place) : Place → String → Prop
  /-- As a parameter of any number of values. -/
  | spread {declarator parameter type : Place} (above : name.parent? = some declarator)
    (isDeclarator : declarator.is .variableDeclarator = true)
    (around : declarator.parent? = some parameter)
    (isSpread : parameter.is .spreadParameter = true)
    (typed : parameter.spreadType? = some type) :
    TakesAsWritten name type (declarator.bracketsAfterName ++ "...")
  /-- As any other parameter. -/
  | parameter {parameter type : Place} (above : name.parent? = some parameter)
    (isFormal : parameter.is .formalParameter = true)
    (typed : parameter.child? .type = some type) :
    TakesAsWritten name type parameter.bracketsAfterName
  /-- As what a handler catches. -/
  | handler {parameter type : Place} (above : name.parent? = some parameter)
    (catches : parameter.is .catchFormalParameter = true)
    (typed : parameter.parts.find? (·.is .catchType) = some type) : TakesAsWritten name type ""
  /-- After the type that an expression tests for. -/
  | test {expression type : Place} (above : name.parent? = some expression)
    (tests : expression.is .instanceofExpression = true)
    (typed : expression.child? .right = some type) : TakesAsWritten name type ""
  /-- In a pattern. -/
  | pattern {pattern type : Place} (above : name.parent? = some pattern)
    (isPattern : pattern.is .typePattern = true)
    (typed : pattern.constructs.head? = some type) : TakesAsWritten name type ""

/-- The type of the object that is created for a variable in its declaration. -/
def createdType? (name : Place) : Option Place :=
  name.parent?.bind fun declarator =>
    if declarator.is .variableDeclarator then
      (declarator.child? .value).bind fun value =>
        if value.is .objectCreationExpression then value.child? .type else none
    else none

/-- The type that is shown for a variable. -/
inductive ShowsType (name : Place) : String → Prop
  /-- The type as written where all are taken so. -/
  | written {type : Place} {ending : String} (typed : TakesAsWritten name type ending) :
    ShowsType name (compactType type.text ++ ending)
  /-- The type as written where it is not left open. -/
  | known {type : Place} {ending : String} (typed : RecognisesVar name type ending)
    (known : type.text ≠ "var") : ShowsType name (compactType type.text ++ ending)
  /-- The type of the object that is created where the type is left open. -/
  | created {type created : Place} {ending : String} (typed : RecognisesVar name type ending)
    (isOpen : type.text = "var") (creates : name.createdType? = some created) :
    ShowsType name (compactType created.text)
  /-- The name of the enum for one of its constants. -/
  | constant {constant : Place} {enum : String} (above : name.parent? = some constant)
    (isConstant : constant.is .enumConstant = true)
    (belongs : constant.enclosingType?.bind declaredName? = some enum) : ShowsType name enum

variable {name type : Place} {ending shown text : String}

/-- Where `var` is told from types, it is the initial value that tells the type. -/
theorem declaredType?_of_recognisesVar (declares : name.declaresVariable = true)
    (typed : RecognisesVar name type ending) :
    name.declaredType? = if type.text == "var" then name.createdType?.map (·.written "")
      else some (type.written ending) := by
  cases typed with
  | @declaration declarator declaration _ above isDeclarator around kinds typed =>
    have infers : declarator.inferredType? = name.createdType?.map (·.written "") := by
      rw [inferredType?, createdType?, above, Option.bind_some, if_pos isDeclarator]
      cases declarator.child? .value with
      | none => rfl
      | some value =>
        rw [Option.bind_some, Option.bind_some]
        split <;> rfl
    simp [declaredType?, declares, above, isDeclarator, declaratorType?, around, kinds, typed,
      infers]
  | @loop around _ above kinds typed =>
    have noDeclarator : around.is .variableDeclarator = false := is_eq_false kinds (by decide)
    have noFormal : around.is .formalParameter = false := is_eq_false kinds (by decide)
    have noHandler : around.is .catchFormalParameter = false := is_eq_false kinds (by decide)
    have creates : name.createdType? = none := by
      rw [createdType?, above, Option.bind_some, if_neg (by simp [noDeclarator])]
    simp [declaredType?, declares, above, noDeclarator, noFormal, noHandler, kinds, typed,
      creates]

/-- In what is no declarator, no parameter and no loop the type stands before the name, or there is
none but the enum. -/
theorem declaredType?_of_other (declares : name.declaresVariable = true) {parent : Place}
    (above : name.parent? = some parent) (other : parent.isAny [.variableDeclarator,
      .formalParameter, .catchFormalParameter, .enhancedForStatement, .resource] = false) :
    name.declaredType? =
      if parent.is .instanceofExpression then (parent.child? .right).map (·.written "")
      else if parent.is .typePattern then parent.constructs.head?.map (·.written "")
      else if parent.is .enumConstant then
        (parent.enclosingType?.bind declaredName?).map fun enum => ⟨none, enum⟩
      else none := by
  have noDeclarator : parent.is .variableDeclarator = false :=
    is_eq_false_of_isAny other (by decide)
  have noFormal : parent.is .formalParameter = false := is_eq_false_of_isAny other (by decide)
  have noHandler : parent.is .catchFormalParameter = false :=
    is_eq_false_of_isAny other (by decide)
  have noLoop : parent.isAny [.enhancedForStatement, .resource] = false :=
    isAny_eq_false_mono other (by decide)
  simp [declaredType?, declares, above, noDeclarator, noFormal, noHandler, noLoop]

/-- Elsewhere the type is what is written. -/
theorem text_declaredType?_of_takesAsWritten (declares : name.declaresVariable = true)
    (typed : TakesAsWritten name type ending) :
    name.declaredType?.map DeclaredType.text = some (compactType type.text ++ ending) := by
  cases typed with
  | @spread declarator parameter _ above isDeclarator around isSpread typed =>
    have noDeclaration : parameter.isAny
        [.fieldDeclaration, .constantDeclaration, .localVariableDeclaration] = false :=
      isAny_eq_false (isAny_of_is isSpread (List.mem_singleton_self _)) (by decide)
    simp [declaredType?, declares, above, isDeclarator, declaratorType?, around, noDeclaration,
      isSpread, typed, written]
  | @parameter parameter _ above isFormal typed =>
    have noDeclarator : parameter.is .variableDeclarator = false :=
      is_eq_false (isAny_of_is isFormal (List.mem_singleton_self _)) (by decide)
    simp [declaredType?, declares, above, noDeclarator, isFormal, typed, written]
  | @handler parameter _ above catches typed =>
    have kinds := isAny_of_is catches (List.mem_singleton_self _)
    have noDeclarator : parameter.is .variableDeclarator = false := is_eq_false kinds (by decide)
    have noFormal : parameter.is .formalParameter = false := is_eq_false kinds (by decide)
    simp [declaredType?, declares, above, noDeclarator, noFormal, catches, typed]
  | test above tests typed =>
    have kinds := isAny_of_is tests (List.mem_singleton_self _)
    rw [declaredType?_of_other declares above (isAny_eq_false kinds (by decide)), if_pos tests,
      typed]
    rfl
  | @pattern pattern _ above isPattern typed =>
    have kinds := isAny_of_is isPattern (List.mem_singleton_self _)
    have noTest : pattern.is .instanceofExpression = false := is_eq_false kinds (by decide)
    rw [declaredType?_of_other declares above (isAny_eq_false kinds (by decide)), noTest,
      if_neg Bool.false_ne_true, if_pos isPattern, typed]
    rfl

/-- The constants of an enum are shown with its name. -/
theorem text_declaredType?_of_constant (declares : name.declaresVariable = true) {constant : Place}
    (above : name.parent? = some constant) (isConstant : constant.is .enumConstant = true)
    {enum : String} (belongs : constant.enclosingType?.bind declaredName? = some enum) :
    name.declaredType?.map DeclaredType.text = some enum := by
  have kinds := isAny_of_is isConstant (List.mem_singleton_self _)
  have noTest : constant.is .instanceofExpression = false := is_eq_false kinds (by decide)
  have noPattern : constant.is .typePattern = false := is_eq_false kinds (by decide)
  rw [declaredType?_of_other declares above (isAny_eq_false kinds (by decide)), noTest, noPattern,
    if_neg Bool.false_ne_true, if_neg Bool.false_ne_true, if_pos isConstant, belongs]
  rfl

/-- A declared type is found in one of these forms. -/
theorem exists_form_of_declaredType? {declared : DeclaredType}
    (found : name.declaredType? = some declared) :
    (∃ type ending, RecognisesVar name type ending) ∨
      (∃ type ending, TakesAsWritten name type ending) ∨
      ∃ constant enum, name.parent? = some constant ∧ constant.is .enumConstant = true ∧
        constant.enclosingType?.bind declaredName? = some enum := by
  rw [declaredType?] at found
  split at found
  · contradiction
  obtain ⟨parent, above, found⟩ := Option.bind_eq_some_iff.mp found
  split at found
  · next isDeclarator =>
    obtain ⟨declaration, around, found⟩ := Option.bind_eq_some_iff.mp found
    dsimp only at found
    split at found
    · next kinds =>
      obtain ⟨type, typed, _⟩ := Option.bind_eq_some_iff.mp found
      exact .inl ⟨type, _, .declaration above isDeclarator around kinds typed⟩
    split at found
    · next isSpread =>
      obtain ⟨type, typed, _⟩ := Option.map_eq_some_iff.mp found
      exact .inr (.inl ⟨type, _, .spread above isDeclarator around isSpread typed⟩)
    · contradiction
  split at found
  · next isFormal =>
    obtain ⟨type, typed, _⟩ := Option.map_eq_some_iff.mp found
    exact .inr (.inl ⟨type, _, .parameter above isFormal typed⟩)
  split at found
  · next catches =>
    obtain ⟨type, typed, _⟩ := Option.map_eq_some_iff.mp found
    exact .inr (.inl ⟨type, _, .handler above catches typed⟩)
  split at found
  · next kinds =>
    obtain ⟨type, typed, _⟩ := Option.bind_eq_some_iff.mp found
    exact .inl ⟨type, _, .loop above kinds typed⟩
  split at found
  · next tests =>
    obtain ⟨type, typed, _⟩ := Option.map_eq_some_iff.mp found
    exact .inr (.inl ⟨type, _, .test above tests typed⟩)
  split at found
  · next isPattern =>
    obtain ⟨type, typed, _⟩ := Option.map_eq_some_iff.mp found
    exact .inr (.inl ⟨type, _, .pattern above isPattern typed⟩)
  split at found
  · next isConstant =>
    obtain ⟨enum, belongs, _⟩ := Option.map_eq_some_iff.mp found
    exact .inr (.inr ⟨parent, enum, above, isConstant, belongs⟩)
  · contradiction

/-- The declared type of a variable is the one that is shown for it. -/
theorem text_declaredType?_iff (declares : name.declaresVariable = true) :
    name.declaredType?.map DeclaredType.text = some shown ↔ ShowsType name shown := by
  constructor
  · intro text
    obtain ⟨declared, found, rfl⟩ := Option.map_eq_some_iff.mp text
    -- What was found is in one of the forms, and the form says what must have been found.
    rcases exists_form_of_declaredType? found with ⟨type, ending, typed⟩ | ⟨type, ending, typed⟩ |
      ⟨constant, enum, above, isConstant, belongs⟩
    · rw [declaredType?_of_recognisesVar declares typed] at found
      split at found
      · next isOpen =>
        obtain ⟨created, creates, rfl⟩ := Option.map_eq_some_iff.mp found
        simpa [written] using ShowsType.created typed (eq_of_beq isOpen) creates
      · next known =>
        obtain rfl := Option.some.inj found
        exact .known typed (by simpa using known)
    · rw [text_declaredType?_of_takesAsWritten declares typed] at text
      exact Option.some.inj text ▸ .written typed
    · rw [text_declaredType?_of_constant declares above isConstant belongs] at text
      exact Option.some.inj text ▸ .constant above isConstant belongs
  · intro shows
    cases shows with
    | written typed => exact text_declaredType?_of_takesAsWritten declares typed
    | known typed known =>
      simp [declaredType?_of_recognisesVar declares typed, known, written]
    | created typed isOpen creates =>
      simp [declaredType?_of_recognisesVar declares typed, isOpen, creates, written]
    | constant above isConstant belongs =>
      exact text_declaredType?_of_constant declares above isConstant belongs

/-- The element of a variable has its name and the type that is shown for it. -/
theorem variableElement_eq_variable_iff (declares : name.declaresVariable = true) :
    name.variableElement = .variable shown text ↔ ShowsType name shown ∧ name.text = text := by
  rw [← text_declaredType?_iff declares, variableElement]
  cases name.declaredType? <;> simp

/-- A variable that is declared with `var` where the word is told from types has the type of the
object that is created for it, or is nothing to show. -/
theorem variableElement_of_recognisesVar (declares : name.declaresVariable = true)
    (typed : RecognisesVar name type ending) (isOpen : type.text = "var") :
    name.variableElement = match name.createdType? with
      | some created => .variable (compactType created.text) name.text
      | none => .other := by
  rw [variableElement, declaredType?_of_recognisesVar declares typed, isOpen]
  cases name.createdType? <;> simp [written]

end Place

namespace SourceFile

variable {root : Node} {name : Place} {shown text : String} {element : Element}

/-! ## Carets -/

/-- An element is that of a type or of nothing. -/
def IsPlain (element : Element) : Prop := element.kind = .type ∨ element.kind = .other

/-- A complete dotted name means a type or nothing. -/
theorem isPlain_completeName (names : List String) : IsPlain (completeName names) := by
  unfold completeName
  split
  · exact .inl rfl
  · exact .inr rfl

/-- A dotted name means a type or nothing. -/
theorem isPlain_dottedElement (file : SourceFile) (names : List String) (site : Place) :
    IsPlain (file.dottedElement names site) := by
  unfold dottedElement
  split
  · exact .inr rfl
  · dsimp only
    split
    · exact .inl rfl
    · exact .inr rfl
    · split
      · exact .inl rfl
      · exact isPlain_completeName _

/-- In the header of a file a name means a type or nothing. -/
theorem isPlain_headerElement? (header : name.headerElement? = some element) : IsPlain element := by
  obtain ⟨around, _, means⟩ := List.exists_of_findSome?_eq_some header
  split at means
  · exact Option.some.inj means ▸ .inr rfl
  · split at means
    · exact Option.some.inj means ▸ isPlain_completeName _
    · contradiction

/-- The name of a type means a type or nothing. -/
theorem isPlain_typeElement (file : SourceFile) (name : Place) :
    IsPlain (file.typeElement name) := by
  unfold typeElement
  split
  · exact .inr rfl
  · split
    · exact .inl rfl
    · exact .inr rfl

/-- A field access that is no field of an object names a type. -/
theorem isPlain_accessNamed? (file : SourceFile) {access : Place}
    (named : file.accessNamed? access = some element) : IsPlain element := by
  obtain ⟨names, _, named⟩ := Option.bind_eq_some_iff.mp named
  split at named
  · contradiction
  · split at named
    · obtain ⟨_, _, rfl⟩ := Option.map_eq_some_iff.mp named
      exact .inl rfl
    · contradiction

/-- A name that resolves to no declaration means a type or nothing. -/
theorem isPlain_of_meaning (file : SourceFile) (means : file.meaning name = .plain element) :
    IsPlain element := by
  have resolves := file.resolves_meaning name
  rw [means] at resolves
  cases resolves with
  | nothing => exact .inr rfl
  | declaredType => exact .inl rfl
  | header header => exact isPlain_headerElement? header
  | dotted => exact isPlain_dottedElement file _ _
  | accessed _ _ _ named => exact isPlain_accessNamed? file named
  | type => exact isPlain_typeElement file name

/-- A variable is shown that is declared in a tree. -/
structure DeclaredAs (root : Node) (element : Element) (declaration : Place) : Prop where
  held : root.Holds declaration
  declares : declaration.declaresVariable = true
  shows : declaration.variableElement = element

/-- A name that means a variable means one that is declared. -/
theorem exists_declared_of_nameElement (wf : WellFormed root) (held : root.Holds name)
    (means : (ofRoot root).nameElement name = .variable shown text) :
    ∃ declaration, DeclaredAs root (.variable shown text) declaration := by
  rw [← element_meaning] at means
  cases resolved : (ofRoot root).meaning name with
  | binding declaration =>
    rw [resolved] at means
    rcases isVariable_of_meaning (ofRoot root) held resolved with ⟨declares, rfl⟩ | ⟨_, found⟩
    · exact ⟨_, held, declares, means⟩
    · exact ⟨declaration, found.held, found.declares wf, means⟩
  | method declaration =>
    rw [resolved] at means
    cases means
  | constructor declaration =>
    rw [resolved] at means
    cases means
  | plain element =>
    have plain := isPlain_of_meaning (ofRoot root) resolved
    rw [resolved] at means
    obtain rfl : element = .variable shown text := means
    rcases plain with isType | isOther <;> contradiction

/-- The creation of an object calls a constructor, if anything. -/
theorem constructorOf?_ne_variable (file : SourceFile) {scope : Place} {count : Nat} :
    file.constructorOf? scope count ≠ some (.variable shown text) := by
  intro means
  cases written : writtenConstructor? scope count with
  | some constructor =>
    rw [constructorOf?_of_writtenConstructor? file written] at means
    cases means
  | none =>
    rcases constructorOf?_of_not_written file written means with ⟨_, _, other⟩ | other
    · cases other
    · cases other

/-- A token that means a variable is a name that does. -/
theorem exists_declared_of_tokenElement? (wf : WellFormed root) {token : Place}
    (held : root.Holds token)
    (means : (ofRoot root).tokenElement? token = some (.variable shown text)) :
    ∃ declaration, DeclaredAs root (.variable shown text) declaration := by
  obtain ⟨parent, _, means⟩ := Option.bind_eq_some_iff.mp means
  have noConstructor {found : Option Element} (means : found.getD .other = .variable shown text)
      (calls : found ≠ some (.variable shown text)) : False := by
    cases found with
    | none => cases means
    | some element => exact calls (congrArg some means)
  split at means
  · exact exists_declared_of_nameElement wf held (Option.some.inj means)
  split at means
  · refine (noConstructor (Option.some.inj means) fun calls => ?_).elim
    obtain ⟨scope, _, calls⟩ := Option.bind_eq_some_iff.mp calls
    exact constructorOf?_ne_variable _ calls
  split at means
  · have means := Option.some.inj means
    unfold constructorCallElement at means
    split at means
    · cases means
    · refine (noConstructor means fun calls => ?_).elim
      obtain ⟨scope, _, calls⟩ := Option.bind_eq_some_iff.mp calls
      exact constructorOf?_ne_variable _ calls
  · contradiction

/-- The name of a construct that introduces a variable declares it. -/
theorem declaredAs_of_child? {around : Place} (held : root.Holds around)
    (introduces : around.isAny Place.introducers = true) (found : around.child? .name = some name) :
    DeclaredAs root name.variableElement name :=
  ⟨held.of_child? found, Place.declaresVariable_of_child? introduces found, rfl⟩

/-- A declaration of one variable means it. -/
theorem exists_declared_of_soleVariable (wf : WellFormed root) {around : Place}
    (held : root.Holds around) (means : around.soleVariable = .variable shown text) :
    ∃ declaration, DeclaredAs root (.variable shown text) declaration := by
  unfold Place.soleVariable at means
  split at means
  · next declarator sole =>
    have listed : declarator ∈ around.declarators := by simp [sole]
    obtain ⟨below, role⟩ := List.mem_filter.mp listed
    cases found : declarator.child? .name with
    | none => simp [found] at means
    | some name =>
      rw [found] at means
      have isDeclarator := wf.is_variableDeclarator held below (eq_of_beq role)
      exact ⟨name, means ▸ declaredAs_of_child? (held.child below)
        (Place.isAny_of_is isDeclarator (by decide)) found⟩
  · contradiction

/-- The declaration around a caret is that of a declared variable, if of any. Induction on the
places around it. -/
theorem exists_declared_of_enclosingElement? (wf : WellFormed root) {chain : List Place}
    (held : ∀ place ∈ chain, root.Holds place)
    (means : (ofRoot root).enclosingElement? chain = some (.variable shown text)) :
    ∃ declaration, DeclaredAs root (.variable shown text) declaration := by
  induction chain with
  | nil => contradiction
  | cons place rest ih =>
    have inner := ih (List.forall_mem_cons.mp held).2
    have heldPlace := held place List.mem_cons_self
    rw [enclosingElement?] at means
    -- The walk ends at the file, a type, a method or a constructor, or it comes to a variable.
    split at means
    · contradiction
    split at means
    · cases means
    split at means
    · cases means
    split at means
    · cases means
    split at means
    · exact exists_declared_of_soleVariable wf heldPlace (Option.some.inj means)
    split at means
    · next introduces =>
      split at means
      · next name found =>
        exact ⟨name, Option.some.inj means ▸
          declaredAs_of_child? heldPlace (Place.isAny_mono introduces (by decide)) found⟩
      · exact inner means
    split at means
    · cases means
    split at means
    · cases means
    · exact inner means

/-- A caret shows no variables but those that are declared. -/
theorem exists_declared_of_elementAt? (wf : WellFormed root) {byte : Nat}
    (means : (ofRoot root).elementAt? byte = some (.variable shown text)) :
    ∃ declaration, DeclaredAs root (.variable shown text) declaration := by
  simp only [elementAt?, Option.orElse_eq_orElse, Option.orElse_eq_or,
    Option.or_eq_some_iff] at means
  rcases means with onToken | ⟨_, atEnd | ⟨_, around⟩⟩
  · exact exists_declared_of_tokenElement? wf (Node.Holds.root.narrow _) onToken
  · obtain ⟨token, ends, means⟩ := Option.bind_eq_some_iff.mp atEnd
    have held : root.Holds token := by
      unfold nameEndingAt? at ends
      split at ends
      · contradiction
      · dsimp only at ends
        split at ends
        · exact Option.some.inj ends ▸ Node.Holds.root.narrow _
        · contradiction
    exact exists_declared_of_tokenElement? wf held means
  · refine exists_declared_of_enclosingElement? wf (fun place listed => ?_) around
    exact Node.Holds.of_outward (Node.Holds.root.narrow _) listed

/-! ## What is shown -/

/-- The variable that a name means is declared, has its spelling and decides what it shows. -/
theorem shows_binding (wf : WellFormed root) (held : root.Holds name) (isName : name.isName = true)
    {declaration : Place} (means : (ofRoot root).meaning name = .binding declaration) :
    declaration.declaresVariable = true ∧ declaration.text = name.text ∧
      (ofRoot root).Shows name declaration.variableElement := by
  have shown : (ofRoot root).Shows name declaration.variableElement := by
    rw [shows_name_iff wf held isName, ← element_meaning, means]
    rfl
  rcases isVariable_of_meaning (ofRoot root) held means with ⟨declares, rfl⟩ | ⟨_, found⟩
  · exact ⟨declares, rfl, shown⟩
  · exact ⟨found.declares wf, found.spelled, shown⟩

/-- The types that are shown for variables. Whatever variable a caret shows is declared in the
file, and `Place.ShowsType` says with which type; a name shows the variable it means in the same
way. If the type of a variable is written `var`, a name of it shows the type of the object that is
created for it, or nothing, in declarations of variables, loops and resources; but a parameter, a
handler or a pattern shows it with the type `var`. -/
theorem inferred_variables (wf : WellFormed root) :
    (∀ byte shown text, (ofRoot root).elementAt? byte = some (.variable shown text) →
      ∃ declaration, root.Holds declaration ∧ declaration.declaresVariable = true ∧
        declaration.text = text ∧ declaration.ShowsType shown) ∧
    ∀ name declaration, root.Holds name → name.isName = true →
      (ofRoot root).meaning name = .binding declaration →
      (∀ shown, (ofRoot root).Shows name (.variable shown name.text) ↔
        declaration.ShowsType shown) ∧
      (∀ type ending, declaration.RecognisesVar type ending → type.text = "var" →
        (ofRoot root).Shows name .other ∨ ∃ created, declaration.createdType? = some created ∧
          (ofRoot root).Shows name (.variable (compactType created.text) name.text)) ∧
      ∀ type ending, declaration.TakesAsWritten type ending → type.text = "var" →
        (ofRoot root).Shows name (.variable ("var" ++ ending) name.text) := by
  constructor
  · intro byte shown text means
    obtain ⟨declaration, held, declares, shows⟩ := exists_declared_of_elementAt? wf means
    obtain ⟨shows, spelled⟩ := (Place.variableElement_eq_variable_iff declares).mp shows
    exact ⟨declaration, held, declares, spelled, shows⟩
  · intro name declaration held isName means
    obtain ⟨declares, spelled, own⟩ := shows_binding wf held isName means
    have shows_iff (shown : String) :
        (ofRoot root).Shows name (.variable shown name.text) ↔ declaration.ShowsType shown := by
      rw [shows_name_iff wf held isName, (shows_name_iff wf held isName).mp own,
        Place.variableElement_eq_variable_iff declares, and_iff_left spelled]
    refine ⟨shows_iff, fun type ending typed isOpen => ?_, fun type ending typed isOpen => ?_⟩
    · rw [Place.variableElement_of_recognisesVar declares typed isOpen] at own
      cases creates : declaration.createdType? with
      | none => exact .inl (by simpa [creates] using own)
      | some created => exact .inr ⟨created, rfl, by simpa [creates, spelled] using own⟩
    · have shows := Place.ShowsType.written typed
      rw [isOpen, show compactType "var" = "var" by decide +kernel] at shows
      exact (shows_iff _).mpr shows

/-- A method with a variable and parameters of a lambda expression, all declared with `var`. -/
def openTypes : String := "class A { void f() { var a = new A(); g(a, (var x, var y) -> x); } }"

/-- The variable is shown with the class of its object, and the parameter as a `var`. -/
theorem inferred_variables_openTypes : accepts openTypes = true ∧
    (∃ name declaration type : Place, ∃ ending,
      (ofRoot (parse openTypes)).meaning name = .binding declaration ∧
      declaration.RecognisesVar type ending ∧ type.text = "var" ∧
      (ofRoot (parse openTypes)).Shows name (.variable "A" name.text) ∧
      ¬ (ofRoot (parse openTypes)).Shows name .other) ∧
    ∃ name declaration type : Place,
      (ofRoot (parse openTypes)).meaning name = .binding declaration ∧
      declaration.TakesAsWritten type "" ∧ type.text = "var" ∧
      (ofRoot (parse openTypes)).Shows name (.variable "var" name.text) := by
  have used : (accepts openTypes &&
      (((parse openTypes).places []).any fun name => name.isName &&
        ((ofRoot (parse openTypes)).meaning name).binding?.any fun declaration =>
          declaration.createdType?.any (·.text == "A") &&
            declaration.parent?.any fun declarator => declarator.is .variableDeclarator &&
              declarator.parent?.any fun around => around.isAny
                  [.fieldDeclaration, .constantDeclaration, .localVariableDeclaration] &&
                (around.child? .type).any (·.text == "var")) &&
      ((parse openTypes).places []).any fun name => name.isName &&
        ((ofRoot (parse openTypes)).meaning name).binding?.any fun declaration =>
          declaration.parent?.any fun parameter => parameter.is .formalParameter &&
            parameter.bracketsAfterName == "" &&
              (parameter.child? .type).any (·.text == "var")) = true := by decide +kernel
  simp only [Bool.and_eq_true, List.any_eq_true, Option.any_eq_true, beq_iff_eq] at used
  obtain ⟨⟨accepted, object⟩, parameter⟩ := used
  have wf := wellFormed_parse accepted
  obtain ⟨_, uses⟩ := inferred_variables wf
  refine ⟨accepted, ?object, ?parameter⟩
  case object =>
    obtain ⟨name, listed, isName, declaration, resolved, ⟨created, creates, isA⟩, declarator,
      above, isDeclarator, around, around_declarator, kinds, type, typed, isOpen⟩ := object
    have means := Meaning.binding?_eq_some.mp resolved
    have recognises : declaration.RecognisesVar type declarator.bracketsAfterName :=
      .declaration above isDeclarator around_declarator kinds typed
    have held : (parse openTypes).Holds name := Node.Holds.root.of_mem_places listed
    have shows := Place.ShowsType.created recognises isOpen creates
    rw [isA, show compactType "A" = "A" by decide +kernel] at shows
    obtain ⟨shows_iff, _⟩ := uses name declaration held isName means
    have shown := (shows_iff "A").mpr shows
    refine ⟨name, declaration, type, _, means, recognises, isOpen, shown, fun other => ?_⟩
    rw [shows_name_iff wf held isName] at shown other
    rw [shown] at other
    cases other
  case parameter =>
    obtain ⟨name, listed, isName, declaration, resolved, parameter, above,
      ⟨isFormal, noBrackets⟩, type, typed, isOpen⟩ := parameter
    have means := Meaning.binding?_eq_some.mp resolved
    have takes : declaration.TakesAsWritten type parameter.bracketsAfterName :=
      .parameter above isFormal typed
    rw [noBrackets] at takes
    obtain ⟨_, _, taken⟩ :=
      uses name declaration (Node.Holds.root.of_mem_places listed) isName means
    exact ⟨name, declaration, type, means, takes, isOpen, taken type "" takes isOpen⟩

/-- A lambda expression whose parameters are declared with `var`. -/
def openParameters : String := "class A { Object f = (var x, var y) -> x; }"

/-- A caret on the use of a parameter shows a variable with the type `var`. -/
theorem shows_var_of_parameter : accepts openParameters = true ∧
    (ofRoot (parse openParameters)).elementAt? 39 = some (.variable "var" "x") := by
  have shown : (accepts openParameters &&
      (ofRoot (parse openParameters)).elementAt? 39 == some (.variable "var" "x")) = true := by
    decide +kernel
  simpa using shown

end SourceFile

end CaretName
