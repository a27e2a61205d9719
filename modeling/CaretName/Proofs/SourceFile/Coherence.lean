import CaretName.Proofs.SourceFile.Meaning
import CaretName.Proofs.SourceFile.Naming

/-!
# Uses and declarations

A caret on the use of a variable, a method or a constructor gives the same element as a caret on
the name in its declaration. For variables and constructors this holds wherever the use stands.
A call or a method reference has it, too, unless it stands in the annotations of a package: in
the header of a file a name means a part of the header.
-/
namespace CaretName

open Grammar

namespace SourceFile

variable {root : Node} {name parent declaration : Place}

/-! ## Variables -/

/-- Constructs whose children declare variables. -/
def variableParents : List Construct :=
  Place.introducers ++ [.lambdaExpression, .inferredParameters, .typePattern]

/-- A name that declares a variable stands in one of a few constructs. -/
theorem exists_parent_of_declaresVariable (declares : name.declaresVariable = true) :
    ∃ parent, name.parent? = some parent ∧ parent.isAny variableParents = true := by
  unfold Place.declaresVariable at declares
  split at declares
  · contradiction
  · next parent above =>
    refine ⟨parent, above, ?_⟩
    split at declares
    · next introduces => exact Place.isAny_mono introduces (by decide)
    split at declares
    · next isLambda => exact Place.isAny_of_is isLambda (by decide)
    split at declares
    · next isInferred => exact Place.isAny_of_is isInferred (by decide)
    split at declares
    · next isPattern => exact Place.isAny_of_is isPattern (by decide)
    · contradiction

/-- A name in any other construct declares no variable. -/
theorem declaresVariable_eq_false (above : name.parent? = some parent)
    (other : parent.isAny variableParents = false) : name.declaresVariable = false := by
  rw [Bool.eq_false_iff]
  intro declares
  obtain ⟨around, above', kinds⟩ := exists_parent_of_declaresVariable declares
  obtain rfl : parent = around := Option.some.inj (above.symm.trans above')
  rw [kinds] at other
  contradiction

/-- Constructs whose names are those of what they declare, variables aside. -/
def namingConstructs : List Construct :=
  typeDeclarations ++ [.methodDeclaration, .annotationTypeElementDeclaration,
    .constructorDeclaration, .compactConstructorDeclaration]

/-- In any other construct a name means the variable that it declares, or else what the header,
the dotted name up to it or its part say. -/
theorem nameElement_of_kinds (file : SourceFile) (above : name.parent? = some parent)
    (other : parent.isAny namingConstructs = false) :
    file.nameElement name = if name.declaresVariable then name.variableElement
      else name.headerElement?.getD
        (if parent.isAny dottedNames && 1 < name.pathTo.length then
          file.dottedElement name.pathTo name
        else file.roleElement name parent) := by
  have none {fewer : List Construct} (among : fewer.all namingConstructs.contains = true) :
      parent.isAny fewer = false := Place.isAny_eq_false_mono other among
  have noType : parent.isTypeDeclaration = false := none (by decide)
  have noMethod : parent.isAny [.methodDeclaration, .annotationTypeElementDeclaration] = false :=
    none (by decide)
  have noConstructor :
      parent.isAny [.constructorDeclaration, .compactConstructorDeclaration] = false :=
    none (by decide)
  simp only [nameElement, above, noType, Place.isNameOf, Option.any_some, noMethod, noConstructor,
    Bool.false_and, Bool.false_eq_true, ↓reduceIte]
  cases name.headerElement? <;> rfl

/-- If it stands in no dotted name either, the header and its part are left. -/
theorem nameElement_of_parent (file : SourceFile) (above : name.parent? = some parent)
    {constructs : List Construct} (kinds : parent.isAny constructs = true)
    (apart : constructs.all (!(dottedNames ++ namingConstructs).contains ·) = true) :
    file.nameElement name = if name.declaresVariable then name.variableElement
      else name.headerElement?.getD (file.roleElement name parent) := by
  have other : parent.isAny (dottedNames ++ namingConstructs) = false :=
    Place.isAny_eq_false kinds apart
  have noDots : parent.isAny dottedNames = false := Place.isAny_eq_false_mono other (by decide)
  rw [nameElement_of_kinds file above (Place.isAny_eq_false_mono other (by decide)), noDots]
  rfl

/-- Constructs in which some of the names have a part of their own. -/
def roleConstructs : List Construct :=
  [.fieldAccess, .methodInvocation, .methodReference, .typeParameter, .labeledStatement,
    .breakStatement, .continueStatement, .elementValuePair, .switchLabel]

/-- In any other construct a name has no part of its own. -/
theorem roleElement_eq_plain (file : SourceFile) (other : parent.isAny roleConstructs = false) :
    file.roleElement name parent = file.plainNameElement name := by
  have no (construct : Construct) (listed : construct ∈ roleConstructs) :
      parent.is construct = false := by
    rw [Bool.eq_false_iff] at other ⊢
    exact fun itself => other (Place.isAny_of_is itself listed)
  have noLabel : parent.isAny [.typeParameter, .labeledStatement, .breakStatement,
      .continueStatement] = false := Place.isAny_eq_false_mono other (by decide)
  simp [roleElement, noLabel, no .fieldAccess (by decide), no .methodInvocation (by decide),
    no .methodReference (by decide), no .elementValuePair (by decide), no .switchLabel (by decide)]

/-- A name that declares a variable means the variable. -/
theorem nameElement_of_declaresVariable (file : SourceFile)
    (declares : name.declaresVariable = true) : file.nameElement name = name.variableElement := by
  obtain ⟨parent, above, kinds⟩ := exists_parent_of_declaresVariable declares
  rw [nameElement_of_parent file above kinds (by decide), if_pos declares]

/-- The use of a variable resolves to an identifier of its spelling that declares a variable, and
both show the same element. -/
theorem shows_variable (wf : WellFormed root) (held : root.Holds name)
    (isName : name.isName = true) (use : name.declaresVariable = false)
    (means : (ofRoot root).meaning name = .binding declaration) :
    declaration.is .identifier = true ∧ declaration.text = name.text ∧
      declaration.declaresVariable = true ∧
      ∃ element, (ofRoot root).Shows name element ∧ (ofRoot root).Shows declaration element := by
  have found : Place.IsVariable root name.text declaration := by
    rcases isVariable_of_meaning (ofRoot root) held means with ⟨declares, _⟩ | ⟨_, found⟩
    · rw [use] at declares
      contradiction
    · exact found
  have declares := found.declares wf
  refine ⟨found.identifier, found.spelled, declares, declaration.variableElement, ?_, ?_⟩
  · rw [shows_name_iff wf held isName, ← element_meaning, means]
    rfl
  · rw [shows_name_iff wf found.held (isName_of_identifier found.identifier)]
    exact nameElement_of_declaresVariable _ declares

/-! ## Methods -/

/-- A name calls or refers to a method of the file. -/
inductive Invokes (file : SourceFile) (name : Place) : Place → Prop
  /-- The name of a call. -/
  | call {call method : Place} (above : name.parent? = some call)
    (isCall : call.is .methodInvocation = true) (isName : name.hasRole .name = true)
    (called : file.called? call = some method) : Invokes file name method
  /-- The name in a method reference, after its receiver. -/
  | reference {reference method : Place} (above : name.parent? = some reference)
    (isReference : reference.is .methodReference = true)
    (other : reference.constructs.head?.any name.same = false)
    (refers : file.referencedMethod? reference name = some method) : Invokes file name method

/-- A name that calls or refers to a method stands in the call or the reference, and its part
there means the method. -/
theorem Invokes.roleElement {file : SourceFile} {method : Place}
    (invokes : file.Invokes name method) : ∃ parent, name.parent? = some parent ∧
      parent.isAny [.methodInvocation, .methodReference] = true ∧
      file.roleElement name parent = file.methodElement method := by
  cases invokes with
  | @call call _ above isCall isName called =>
    have others := Place.isAny_of_is isCall (List.mem_singleton_self _)
    have noAccess : call.is .fieldAccess = false := Place.is_eq_false others (by decide)
    refine ⟨call, above, Place.isAny_mono others (by decide), ?_⟩
    simp [SourceFile.roleElement, noAccess, isCall, isName, called]
  | @reference reference _ above isReference other refers =>
    have others := Place.isAny_of_is isReference (List.mem_singleton_self _)
    have noAccess : reference.is .fieldAccess = false := Place.is_eq_false others (by decide)
    have noCall : reference.is .methodInvocation = false := Place.is_eq_false others (by decide)
    refine ⟨reference, above, Place.isAny_mono others (by decide), ?_⟩
    have element : file.referenceElement reference name = file.methodElement method := by
      change (file.referencedMethod? reference name).elim .other file.methodElement = _
      rw [refers]
      rfl
    simp [SourceFile.roleElement, noAccess, noCall, isReference, other, element]

/-- A method that a name calls or refers to belongs to the tree. -/
theorem Invokes.held {file : SourceFile} {method : Place} (heldName : file.root.Holds name)
    (invokes : file.Invokes name method) :
    file.root.Holds method ∧ method.is .methodDeclaration = true := by
  cases invokes with
  | call above isCall isName called =>
    obtain ⟨own, scope, _, heldScope, listed⟩ :=
      called?_eq_some (heldName.parent above).1 called
    obtain ⟨inside, isMethod, _⟩ := Place.mem_methodsNamed listed
    exact ⟨Place.held_of_mem_scopeMembers heldScope inside, isMethod⟩
  | reference above isReference other refers =>
    obtain ⟨scope, receives, first⟩ := Option.bind_eq_some_iff.mp refers
    obtain ⟨receiver, head, receives⟩ := Option.bind_eq_some_iff.mp receives
    have heldReceiver := (heldName.parent above).1.child
      (Place.mem_children_of_mem_constructs (List.mem_of_head? head))
    have heldScope : file.root.Holds scope := by
      split at receives
      · exact held_of_typeDeclaration? receives
      · exact held_of_receiver? heldReceiver receives
    obtain ⟨inside, isMethod, _⟩ := Place.mem_methodsNamed (List.mem_of_head? first)
    exact ⟨Place.held_of_mem_scopeMembers heldScope inside, isMethod⟩

/-- Constructs that make up the header of a file. -/
def headerConstructs : List Construct := [.packageDeclaration, .importDeclaration]

/-- Outside the header of the file a name has no meaning in it. -/
theorem headerElement?_eq_none :
    name.headerElement? = none ↔
      ∀ around ∈ name.ancestors, around.isAny headerConstructs = false := by
  unfold Place.headerElement?
  rw [List.findSome?_eq_none_iff]
  refine forall₂_congr fun around _ => ?_
  have either : around.isAny headerConstructs =
      (around.is .packageDeclaration || around.is .importDeclaration) := by
    simp [headerConstructs, Place.isAny, Node.isAny, Place.is]
  rw [either]
  split
  · next isPackage => simp [isPackage]
  · next noPackage =>
    split
    · next isImport => simp [isImport]
    · next noImport => simp [noPackage, noImport]

/-- In the header of the file no name means a method. -/
theorem headerElement?_ne_method {enclosing simple : String} {parameters : List TypeRef} :
    name.headerElement? ≠ some (.method enclosing simple parameters) := by
  intro header
  obtain ⟨around, _, means⟩ := List.exists_of_findSome?_eq_some header
  split at means
  · simp at means
  · split at means
    · unfold completeName at means
      split at means <;> simp at means
    · contradiction

/-- The name of a call or a reference means the method unless it stands in the header. -/
theorem Invokes.nameElement_iff {file : SourceFile} {method : Place}
    (invokes : file.Invokes name method) :
    file.nameElement name = file.methodElement method ↔
      ∀ around ∈ name.ancestors, around.isAny headerConstructs = false := by
  obtain ⟨parent, above, kinds, role⟩ := invokes.roleElement
  have use := declaresVariable_eq_false above (Place.isAny_eq_false kinds (by decide))
  rw [← headerElement?_eq_none, nameElement_of_parent file above kinds (by decide), use,
    if_neg Bool.false_ne_true, role]
  cases header : name.headerElement? with
  | none => simp
  | some element =>
    simp only [Option.getD_some, reduceCtorEq, iff_false]
    rintro rfl
    exact headerElement?_ne_method header

/-- A name that calls or refers to a method shows what the name of the method shows, unless it
stands in the header of the file. -/
theorem shows_method (wf : WellFormed root) (held : root.Holds name) (isName : name.isName = true)
    {method : Place} (invokes : (ofRoot root).Invokes name method) :
    ∃ own, method.child? .name = some own ∧
      (ofRoot root).Shows own ((ofRoot root).methodElement method) ∧
      ((ofRoot root).Shows name ((ofRoot root).methodElement method) ↔
        ∀ around ∈ name.ancestors, around.isAny headerConstructs = false) := by
  have heldName : (ofRoot root).root.Holds name := held
  obtain ⟨heldMethod, isMethod⟩ := invokes.held heldName
  have declares := Place.isAny_of_is isMethod (List.mem_singleton_self _)
  obtain ⟨own, found, isIdentifier⟩ :=
    wf.exists_name heldMethod (Place.isAny_mono declares (by decide))
  refine ⟨own, found, shows_methodName wf heldMethod (Place.isAny_mono declares (by decide)) found
    (isName_of_identifier isIdentifier), ?_⟩
  rw [shows_name_iff wf held isName]
  exact invokes.nameElement_iff

/-! ## Constructors -/

/-- The constructor of a type that the creation with a number of arguments means, if it is
written in the file. -/
def writtenConstructor? (scope : Place) (count : Nat) : Option Place :=
  scope.typeBody?.bind fun _ =>
    match scope.constructors.find? (constructorTakes scope.components? count) with
    | some constructor => some constructor
    | none =>
      if scope.components?.any (·.takes count) then none
      else if !scope.constructors.any (·.is .constructorDeclaration) && count == 0 &&
          scope.is .classDeclaration then none
      else scope.constructors.head?

/-- A constructor that is written in the file is the one that is meant. -/
theorem constructorOf?_of_writtenConstructor? (file : SourceFile) {scope constructor : Place}
    {count : Nat} (written : writtenConstructor? scope count = some constructor) :
    file.constructorOf? scope count = some (file.constructorElement constructor) := by
  obtain ⟨body, hasBody, written⟩ := Option.bind_eq_some_iff.mp written
  rw [constructorOf?, hasBody, Option.bind_some]
  dsimp only
  cases fits : scope.constructors.find? (constructorTakes scope.components? count) with
  | some first =>
    rw [fits] at written
    exact congrArg _ (congrArg _ (Option.some.inj written))
  | none =>
    rw [fits] at written
    dsimp only at written ⊢
    split at written
    · contradiction
    · next noComponents =>
      rw [if_neg noComponents]
      split at written
      · contradiction
      · next noDefault =>
        rw [if_neg noDefault, written]
        rfl

/-- What is meant and not written in the file takes the components of a record, or nothing. -/
theorem constructorOf?_of_not_written (file : SourceFile) {scope : Place} {count : Nat}
    {element : Element} (implicit : writtenConstructor? scope count = none)
    (selected : file.constructorOf? scope count = some element) :
    (∃ list, scope.components? = some list ∧
      element = .constructor (file.scopeName scope) list.parameterTypes) ∨
    element = .constructor (file.scopeName scope) [] := by
  obtain ⟨body, hasBody, selected⟩ := Option.bind_eq_some_iff.mp selected
  rw [writtenConstructor?, hasBody, Option.bind_some] at implicit
  dsimp only at selected
  cases fits : scope.constructors.find? (constructorTakes scope.components? count) with
  | some first => simp [fits] at implicit
  | none =>
    rw [fits] at implicit selected
    dsimp only at implicit selected
    split at selected
    · obtain ⟨list, components, rfl⟩ := Option.map_eq_some_iff.mp selected
      exact .inl ⟨list, components, rfl⟩
    · next noComponents =>
      rw [if_neg noComponents] at implicit
      split at selected
      · exact .inr (Option.some.inj selected).symm
      · next noDefault =>
        rw [if_neg noDefault] at implicit
        simp [implicit] at selected

/-- A written constructor is a member of the type. -/
theorem mem_of_writtenConstructor? {scope constructor : Place} {count : Nat}
    (written : writtenConstructor? scope count = some constructor) :
    constructor ∈ scope.constructors := by
  obtain ⟨_, _, written⟩ := Option.bind_eq_some_iff.mp written
  split at written
  · next found => exact Option.some.inj written ▸ List.mem_of_find?_eq_some found
  · split at written
    · contradiction
    · split at written
      · contradiction
      · exact List.mem_of_head? written

/-- A keyword calls a constructor that is written in the file. -/
inductive Constructs (file : SourceFile) (keyword : Place) : Place → Prop
  /-- The word that creates an object. -/
  | creation {creation scope constructor : Place} (above : keyword.parent? = some creation)
    (isNew : keyword.isMark "new" = true)
    (isCreation : creation.is .objectCreationExpression = true)
    (created : (creation.child? .type).bind file.typeDeclaration? = some scope)
    (written : writtenConstructor? scope creation.argumentCount = some constructor) :
    Constructs file keyword constructor
  /-- The call of another constructor of the same type. -/
  | own {call scope constructor : Place} (above : keyword.parent? = some call)
    (isThis : keyword.is .thisWord = true)
    (isCall : call.is .explicitConstructorInvocation = true)
    (around : call.enclosingType? = some scope)
    (written : writtenConstructor? scope call.argumentCount = some constructor) :
    Constructs file keyword constructor
  /-- The call of a constructor of the class that is extended. -/
  | inherited {call current scope constructor : Place} (above : keyword.parent? = some call)
    (isSuper : keyword.is .superWord = true)
    (isCall : call.is .explicitConstructorInvocation = true)
    (around : call.enclosingType? = some current)
    (extended : file.superclass? current = some scope)
    (written : writtenConstructor? scope call.argumentCount = some constructor) :
    Constructs file keyword constructor

/-- A constructor that a keyword calls belongs to the tree. -/
theorem Constructs.held {file : SourceFile} {keyword constructor : Place}
    (heldKeyword : file.root.Holds keyword) (constructs : file.Constructs keyword constructor) :
    file.root.Holds constructor ∧
      constructor.isAny [.constructorDeclaration, .compactConstructorDeclaration] = true := by
  have member : ∀ {scope : Place} {count : Nat}, file.root.Holds scope →
      writtenConstructor? scope count = some constructor → file.root.Holds constructor ∧
        constructor.isAny [.constructorDeclaration, .compactConstructorDeclaration] = true := by
    intro scope count heldScope written
    obtain ⟨inside, kind⟩ := List.mem_filter.mp (mem_of_writtenConstructor? written)
    exact ⟨Place.held_of_mem_scopeMembers heldScope inside, kind⟩
  cases constructs with
  | creation above isNew isCreation created written =>
    obtain ⟨type, _, declared⟩ := Option.bind_eq_some_iff.mp created
    exact member (held_of_typeDeclaration? declared) written
  | own above isThis isCall around written =>
    have heldCall := (heldKeyword.parent above).1
    exact member (heldCall.of_ancestor (List.mem_of_find?_eq_some around)) written
  | inherited above isSuper isCall around extended written =>
    exact member (held_of_superclass? extended) written

/-- A keyword that calls a constructor has the element of the constructor. -/
theorem Constructs.tokenElement? {file : SourceFile} {keyword constructor : Place}
    (constructs : file.Constructs keyword constructor) :
    file.tokenElement? keyword = some (file.constructorElement constructor) := by
  cases constructs with
  | creation above isNew isCreation created written =>
    have noName : keyword.isName = false := by
      simp only [Place.isMark, beq_iff_eq] at isNew
      rw [Bool.eq_false_iff]
      intro isName
      obtain ⟨construct, _, kind⟩ := Place.isAny_iff.mp isName
      cases isNew.symm.trans kind
    have element := constructorOf?_of_writtenConstructor? file written
    simp [SourceFile.tokenElement?, above, noName, isNew, isCreation, creationElement, created,
      element]
  | @own call _ _ above isThis isCall around written =>
    have others := Place.isAny_of_is isThis (List.mem_singleton_self _)
    have noName : keyword.isName = false := Place.isAny_eq_false others (by decide)
    have isKeyword : keyword.isAny [.thisWord, .superWord] = true :=
      Place.isAny_mono others (by decide)
    have noCreation : call.is .objectCreationExpression = false :=
      Place.is_eq_false (Place.isAny_of_is isCall (List.mem_singleton_self _)) (by decide)
    have element := constructorOf?_of_writtenConstructor? file written
    simp [SourceFile.tokenElement?, above, noName, isKeyword, isCall, noCreation,
      constructorCallElement, around, isThis, element]
  | @inherited call _ _ _ above isSuper isCall around extended written =>
    have others := Place.isAny_of_is isSuper (List.mem_singleton_self _)
    have noName : keyword.isName = false := Place.isAny_eq_false others (by decide)
    have noThis : keyword.is .thisWord = false := Place.is_eq_false others (by decide)
    have isKeyword : keyword.isAny [.thisWord, .superWord] = true :=
      Place.isAny_mono others (by decide)
    have noCreation : call.is .objectCreationExpression = false :=
      Place.is_eq_false (Place.isAny_of_is isCall (List.mem_singleton_self _)) (by decide)
    have element := constructorOf?_of_writtenConstructor? file written
    simp [SourceFile.tokenElement?, above, noName, isKeyword, isCall, noCreation,
      constructorCallElement, around, noThis, extended, element]

/-- A keyword that calls a constructor is a token. -/
theorem Constructs.token {keyword constructor : Place} {file : SourceFile}
    (wf : WellFormed root) (held : root.Holds keyword)
    (constructs : file.Constructs keyword constructor) :
    keyword.node.children = [] ∧ keyword.start < keyword.stop := by
  cases constructs with
  | creation above isNew => exact wf.mark_token held (by simpa [Place.isMark] using isNew)
  | own above isThis => exact wf.keyword_token held (Place.isAny_of_is isThis (by decide))
  | inherited above isSuper => exact wf.keyword_token held (Place.isAny_of_is isSuper (by decide))

/-- A keyword that calls a written constructor shows what the name of the constructor shows. -/
theorem shows_constructor (wf : WellFormed root) {keyword constructor : Place}
    (held : root.Holds keyword) (constructs : (ofRoot root).Constructs keyword constructor) :
    ∃ own, constructor.child? .name = some own ∧
      (ofRoot root).Shows own ((ofRoot root).constructorElement constructor) ∧
      (ofRoot root).Shows keyword ((ofRoot root).constructorElement constructor) := by
  have heldKeyword : (ofRoot root).root.Holds keyword := held
  obtain ⟨heldConstructor, kinds⟩ := constructs.held heldKeyword
  obtain ⟨own, found, isIdentifier⟩ :=
    wf.exists_name heldConstructor (Place.isAny_mono kinds (by decide))
  obtain ⟨childless, visible⟩ := constructs.token wf held
  exact ⟨own, found,
    shows_constructorName wf heldConstructor kinds found (isName_of_identifier isIdentifier),
    shows_of_token wf held childless visible constructs.tokenElement?⟩

/-! ## All uses -/

/-- Uses and declarations are coherent. The use of a variable shows what the name in its
declaration shows, which is an identifier of its spelling that declares a variable. The name of
a call or a method reference shows what the name of the method shows exactly if it stands
outside the header of the file. A keyword that calls a constructor written in the file shows
what the name of the constructor shows. -/
theorem coherence (wf : WellFormed root) :
    (∀ name declaration, root.Holds name → name.isName = true → name.declaresVariable = false →
      (ofRoot root).meaning name = .binding declaration →
      declaration.is .identifier = true ∧ declaration.text = name.text ∧
        declaration.declaresVariable = true ∧
        ∃ element, (ofRoot root).Shows name element ∧ (ofRoot root).Shows declaration element) ∧
    (∀ name method, root.Holds name → name.isName = true → (ofRoot root).Invokes name method →
      ∃ own, method.child? .name = some own ∧
        (ofRoot root).Shows own ((ofRoot root).methodElement method) ∧
        ((ofRoot root).Shows name ((ofRoot root).methodElement method) ↔
          ∀ around ∈ name.ancestors, around.isAny headerConstructs = false)) ∧
    (∀ keyword constructor, root.Holds keyword →
      (ofRoot root).Constructs keyword constructor →
      ∃ own, constructor.child? .name = some own ∧
        (ofRoot root).Shows own ((ofRoot root).constructorElement constructor) ∧
        (ofRoot root).Shows keyword ((ofRoot root).constructorElement constructor)) :=
  ⟨fun _ _ held isName use means => shows_variable wf held isName use means,
    fun _ _ held isName invokes => shows_method wf held isName invokes,
    fun _ _ held constructs => shows_constructor wf held constructs⟩

/-- A class that uses its parameter, its method and its constructor. -/
def smallClass : String := "class A { A(int a) { m(a); } void m(int b) { new A(b); } }"

/-- In a class that uses all it declares, each use shows what its declaration shows. -/
theorem coherence_smallClass :
    (∃ name declaration element, (ofRoot (parse smallClass)).meaning name = .binding declaration ∧
      name.declaresVariable = false ∧ (ofRoot (parse smallClass)).Shows name element ∧
      (ofRoot (parse smallClass)).Shows declaration element) ∧
    (∃ name method own, (ofRoot (parse smallClass)).Invokes name method ∧
      method.child? .name = some own ∧
      (ofRoot (parse smallClass)).Shows own ((ofRoot (parse smallClass)).methodElement method) ∧
      (ofRoot (parse smallClass)).Shows name ((ofRoot (parse smallClass)).methodElement method)) ∧
    (∃ keyword constructor own, (ofRoot (parse smallClass)).Constructs keyword constructor ∧
      constructor.child? .name = some own ∧
      (ofRoot (parse smallClass)).Shows own
        ((ofRoot (parse smallClass)).constructorElement constructor) ∧
      (ofRoot (parse smallClass)).Shows keyword
        ((ofRoot (parse smallClass)).constructorElement constructor)) := by
  have wf : WellFormed (parse smallClass) := wellFormed_parse (by decide +kernel)
  obtain ⟨bindings, methods, constructors⟩ := coherence wf
  refine ⟨?_, ?_, ?_⟩
  · have used : ((parse smallClass).places []).any (fun name =>
        name.isName && !name.declaresVariable &&
          ((ofRoot (parse smallClass)).meaning name).binding?.isSome) = true := by
      decide +kernel
    obtain ⟨name, held, used⟩ := Node.Holds.exists_held_of_any used
    simp only [Bool.and_eq_true, Bool.not_eq_true', Option.isSome_iff_exists] at used
    obtain ⟨⟨isName, use⟩, declaration, resolved⟩ := used
    have means := Meaning.binding?_eq_some.mp resolved
    obtain ⟨_, _, _, element, shown, declared⟩ :=
      bindings name declaration held isName use means
    exact ⟨name, declaration, element, means, use, shown, declared⟩
  · have used : ((parse smallClass).places []).any (fun name =>
        name.isName && name.hasRole .name && name.headerElement?.isNone &&
          name.parent?.any fun call => call.is .methodInvocation &&
            ((ofRoot (parse smallClass)).called? call).isSome) = true := by decide +kernel
    obtain ⟨name, held, used⟩ := Node.Holds.exists_held_of_any used
    simp only [Bool.and_eq_true, Option.any_eq_true, Option.isNone_iff_eq_none,
      Option.isSome_iff_exists] at used
    obtain ⟨⟨⟨isName, role⟩, outside⟩, call, above, isCall, method, called⟩ := used
    have invokes := Invokes.call above isCall role called
    obtain ⟨own, found, declared, shown⟩ := methods name method held isName invokes
    exact ⟨name, method, own, invokes, found, declared,
      shown.mpr (headerElement?_eq_none.mp outside)⟩
  · have used : ((parse smallClass).places []).any (fun creation =>
        creation.is .objectCreationExpression && creation.children.any (·.isMark "new") &&
          ((creation.child? .type).bind (ofRoot (parse smallClass)).typeDeclaration?).any
            fun scope => (writtenConstructor? scope creation.argumentCount).isSome) = true := by
      decide +kernel
    obtain ⟨creation, heldCreation, used⟩ := Node.Holds.exists_held_of_any used
    simp only [Bool.and_eq_true, Option.any_eq_true, List.any_eq_true,
      Option.isSome_iff_exists] at used
    obtain ⟨⟨isCreation, keyword, below, isNew⟩, scope, created, constructor, written⟩ := used
    have constructs : (ofRoot (parse smallClass)).Constructs keyword constructor :=
      .creation (Place.parent?_of_mem_children below) isNew isCreation created written
    obtain ⟨own, found, declared, shown⟩ := constructors keyword constructor (heldCreation.child below) constructs
    exact ⟨keyword, constructor, own, constructs, found, declared, shown⟩

/-- A call in the annotation of a package. -/
def annotatedPackage : String := "@X(new A().m()) package p; class A { void m() { } }"

/-- The name of a call in the annotation of a package shows nothing of the method it calls. -/
theorem shows_other_in_header :
    accepts annotatedPackage = true ∧ ∃ name method own,
      (parse annotatedPackage).Holds name ∧ name.isName = true ∧
        (ofRoot (parse annotatedPackage)).Invokes name method ∧
        method.child? .name = some own ∧
        (ofRoot (parse annotatedPackage)).Shows own (.method "p.A" "m" []) ∧
        (ofRoot (parse annotatedPackage)).Shows name .other ∧
        ¬ (ofRoot (parse annotatedPackage)).Shows name (.method "p.A" "m" []) := by
  have accepted : accepts annotatedPackage = true := by decide +kernel
  have wf := wellFormed_parse accepted
  have used : ((parse annotatedPackage).places []).any (fun name =>
      name.isName && name.hasRole .name &&
        (ofRoot (parse annotatedPackage)).nameElement name == .other &&
          name.parent?.any fun call => call.is .methodInvocation &&
            ((ofRoot (parse annotatedPackage)).called? call).any fun method =>
              (ofRoot (parse annotatedPackage)).methodElement method ==
                .method "p.A" "m" []) = true := by decide +kernel
  obtain ⟨name, held, used⟩ := Node.Holds.exists_held_of_any used
  simp only [Bool.and_eq_true, Option.any_eq_true, beq_iff_eq] at used
  obtain ⟨⟨⟨isName, role⟩, other⟩, call, above, isCall, method, called, element⟩ := used
  have invokes := Invokes.call above isCall role called
  obtain ⟨own, found, declared, _⟩ := shows_method wf held isName invokes
  refine ⟨accepted, name, method, own, held, isName, invokes, found, element ▸ declared,
    (shows_name_iff wf held isName).mpr other, fun shown => ?_⟩
  rw [shows_name_iff wf held isName, other] at shown
  cases shown

end SourceFile

end CaretName
