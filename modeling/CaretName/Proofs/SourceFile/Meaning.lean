import CaretName.Proofs.SourceFile.Receiver
import CaretName.SourceFile.Locate

/-!
# What names resolve to

The element of a name is made of a declaration that the name resolves to, where there is one.
`SourceFile.meaning` is the same case analysis that stops one step earlier and keeps the
declaration, and `element_meaning` says that nothing is lost: what the declaration makes of
itself is the element of the name.
-/
namespace CaretName

open Grammar

/-- What a name resolves to. -/
inductive Meaning where
  /-- A variable, by its name in its declaration. -/
  | binding (declaration : Place)
  /-- A method or an element of an annotation type. -/
  | method (declaration : Place)
  /-- A constructor. -/
  | constructor (declaration : Place)
  /-- A type or a package, or nothing that has a declaration of its own. -/
  | plain (element : Element)

namespace Meaning

/-- The meaning of what a lookup of a variable has found. -/
def ofVariable? : Option Place → Meaning
  | some declaration => .binding declaration
  | none => .plain .other

/-- The meaning of what a lookup of a method has found. -/
def ofMethod? : Option Place → Meaning
  | some declaration => .method declaration
  | none => .plain .other

/-- The declaration of the variable that a name resolves to. -/
def binding? : Meaning → Option Place
  | .binding declaration => some declaration
  | _ => none

/-- Only the meaning that is a variable has the declaration of one. -/
theorem binding?_eq_some {meaning : Meaning} {declaration : Place} :
    meaning.binding? = some declaration ↔ meaning = .binding declaration := by
  cases meaning <;> simp [binding?]

/-- The element that a meaning stands for. -/
def element (file : SourceFile) : Meaning → Element
  | .binding declaration => declaration.variableElement
  | .method declaration => file.methodElement declaration
  | .constructor declaration => file.constructorElement declaration
  | .plain element => element

end Meaning

namespace SourceFile

variable (file : SourceFile)

/-- The type that a field access names, if it is a dotted name of a type of the file. -/
def accessNamed? (access : Place) : Option Element :=
  access.accessPath?.bind fun names =>
    if access.accessVariable?.isSome then none
    else match file.dottedElement names access with
      | .type name => (file.typeNamed? name).map fun _ => .type name
      | _ => none

/-- The field that a field access means. -/
def accessedField? (access field : Place) : Option Place :=
  ((access.child? .object).bind file.receiver?).bind (Place.fieldNamed? field.text)

/-- The method that a method reference means. -/
def referencedMethod? (reference name : Place) : Option Place :=
  let scope : Option Place :=
    reference.constructs.head?.bind fun receiver =>
      if receiver.isAny [.typeIdentifier, .scopedTypeIdentifier, .genericType] then
        file.typeDeclaration? receiver
      else file.receiver? receiver
  scope.bind fun scope => (scope.methodsNamed name.text).head?

/-- What a name that has no part of its own in the construct around it resolves to. -/
def plainMeaning (name : Place) : Meaning :=
  if name.is .typeIdentifier then .plain (file.typeElement name)
  else match name.variableNamed? name.text with
    | some declaration => .binding declaration
    | none => .plain (if isCapitalised name.text then file.typeElement name else .other)

/-- What a name resolves to by its part in the construct around it. -/
def roleMeaning (name parent : Place) : Meaning :=
  if parent.is .fieldAccess && name.hasRole .field then
    match file.accessNamed? parent with
    | some element => .plain element
    | none => .ofVariable? (file.accessedField? parent name)
  else if parent.is .methodInvocation && name.hasRole .name then .ofMethod? (file.called? parent)
  else if parent.is .methodReference && !parent.constructs.head?.any name.same then
    .ofMethod? (file.referencedMethod? parent name)
  else if parent.isAny [.typeParameter, .labeledStatement, .breakStatement,
      .continueStatement] then .plain .other
  else if parent.is .elementValuePair && name.hasRole .key then .plain .other
  else if parent.is .switchLabel then
    match file.enumConstant? name.text with
    | some constant => .binding constant
    | none => file.plainMeaning name
  else file.plainMeaning name

/-- What a name resolves to. -/
def meaning (name : Place) : Meaning :=
  match name.parent? with
  | none => .plain .other
  | some parent =>
    if parent.isTypeDeclaration && name.hasRole .name then
      .plain (.type (file.qualifiedName parent))
    else if name.isNameOf [.methodDeclaration, .annotationTypeElementDeclaration] then
      .method parent
    else if name.isNameOf [.constructorDeclaration, .compactConstructorDeclaration] then
      .constructor parent
    else if name.declaresVariable then .binding name
    else match name.headerElement? with
      | some element => .plain element
      | none =>
        if parent.isAny dottedNames && 1 < name.pathTo.length then
          .plain (file.dottedElement name.pathTo name)
        else file.roleMeaning name parent

/-- What a found variable stands for. -/
theorem element_ofVariable? (found : Option Place) :
    (Meaning.ofVariable? found).element file = found.elim .other Place.variableElement := by
  cases found <;> rfl

/-- What a found method stands for. -/
theorem element_ofMethod? (found : Option Place) :
    (Meaning.ofMethod? found).element file = found.elim .other file.methodElement := by
  cases found <;> rfl

/-- A name without a part of its own has the element of what it resolves to. -/
theorem element_plainMeaning (name : Place) :
    (file.plainMeaning name).element file = file.plainNameElement name := by
  unfold plainMeaning plainNameElement
  split
  · rfl
  · cases name.variableNamed? name.text <;> rfl

/-- A field access is the dotted name of a type, or means a field of its object. -/
theorem accessElement_eq (access field : Place) :
    file.accessElement access field = match file.accessNamed? access with
      | some element => element
      | none => (file.accessedField? access field).elim .other Place.variableElement := rfl

/-- A name has the element of what it resolves to by its part. -/
theorem element_roleMeaning (name parent : Place) :
    (file.roleMeaning name parent).element file = file.roleElement name parent := by
  unfold roleMeaning roleElement
  split
  · rw [accessElement_eq]
    split
    · rfl
    · exact file.element_ofVariable? _
  split
  · exact file.element_ofMethod? _
  split
  · exact file.element_ofMethod? _
  split
  · rfl
  split
  · rfl
  split
  · cases file.enumConstant? name.text with
    | some constant => rfl
    | none => exact file.element_plainMeaning name
  · exact file.element_plainMeaning name

/-- A name has the element of what it resolves to. -/
theorem element_meaning (name : Place) :
    (file.meaning name).element file = file.nameElement name := by
  unfold meaning nameElement
  cases name.parent? with
  | none => rfl
  | some parent =>
    dsimp only
    split
    · rfl
    split
    · rfl
    split
    · rfl
    split
    · rfl
    cases name.headerElement? with
    | some element => rfl
    | none =>
      dsimp only
      split
      · rfl
      · exact file.element_roleMeaning name parent

/-! ## The ways to resolve -/

variable {file} {name parent declaration : Place}

/-- The ways in which a name comes to mean what it resolves to. -/
inductive Resolves (file : SourceFile) (name : Place) : Meaning → Prop
  /-- By its part it means nothing, or nothing is found. -/
  | nothing : Resolves file name (.plain .other)
  /-- It is the name of a type in its declaration. -/
  | declaredType {parent : Place} (above : name.parent? = some parent)
    (declares : parent.isTypeDeclaration = true) (isName : name.hasRole .name = true) :
    Resolves file name (.plain (.type (file.qualifiedName parent)))
  /-- It is the name of a method in its declaration. -/
  | declaredMethod {parent : Place} (above : name.parent? = some parent)
    (isName : name.isNameOf [.methodDeclaration, .annotationTypeElementDeclaration] = true) :
    Resolves file name (.method parent)
  /-- It is the name of a constructor in its declaration. -/
  | declaredConstructor {parent : Place} (above : name.parent? = some parent)
    (isName : name.isNameOf [.constructorDeclaration, .compactConstructorDeclaration] = true) :
    Resolves file name (.constructor parent)
  /-- It is the name of a variable in its declaration. -/
  | declaredVariable (declares : name.declaresVariable = true) : Resolves file name (.binding name)
  /-- It stands in the header of the file. -/
  | header {element : Element} (means : name.headerElement? = some element) :
    Resolves file name (.plain element)
  /-- It belongs to a dotted name. -/
  | dotted : Resolves file name (.plain (file.dottedElement name.pathTo name))
  /-- It ends a field access that is the dotted name of a type. -/
  | accessed {parent : Place} {element : Element} (above : name.parent? = some parent)
    (isAccess : parent.is .fieldAccess = true) (isField : name.hasRole .field = true)
    (named : file.accessNamed? parent = some element) : Resolves file name (.plain element)
  /-- It is the field of an object. -/
  | field {parent declaration : Place} (above : name.parent? = some parent)
    (use : name.declaresVariable = false)
    (found : file.accessedField? parent name = some declaration) :
    Resolves file name (.binding declaration)
  /-- It is the name of a call. -/
  | call {parent method : Place} (above : name.parent? = some parent)
    (isName : name.hasRole .name = true) (called : file.called? parent = some method) :
    Resolves file name (.method method)
  /-- It stands in a method reference, after the receiver. -/
  | reference {parent method : Place} (above : name.parent? = some parent)
    (refers : file.referencedMethod? parent name = some method) :
    Resolves file name (.method method)
  /-- It is an enum constant in a label. -/
  | constant {declaration : Place} (use : name.declaresVariable = false)
    (found : file.enumConstant? name.text = some declaration) :
    Resolves file name (.binding declaration)
  /-- It is a variable in scope. -/
  | inScope {declaration : Place} (use : name.declaresVariable = false)
    (found : name.variableNamed? name.text = some declaration) :
    Resolves file name (.binding declaration)
  /-- It is the simple name of a type. -/
  | type : Resolves file name (.plain (file.typeElement name))

/-- A name without a part of its own resolves in one of the ways. -/
theorem resolves_plainMeaning (use : name.declaresVariable = false) :
    file.Resolves name (file.plainMeaning name) := by
  unfold plainMeaning
  split
  · exact .type
  · split
    · next found => exact .inScope use found
    · split
      · exact .type
      · exact .nothing

/-- A name resolves by its part in one of the ways. -/
theorem resolves_roleMeaning (above : name.parent? = some parent)
    (use : name.declaresVariable = false) :
    file.Resolves name (file.roleMeaning name parent) := by
  unfold roleMeaning
  split
  · next isField =>
    simp only [Bool.and_eq_true] at isField
    cases named : file.accessNamed? parent with
    | some element => exact .accessed above isField.1 isField.2 named
    | none =>
      cases found : file.accessedField? parent name with
      | some declaration => exact .field above use found
      | none => exact .nothing
  split
  · next isName =>
    simp only [Bool.and_eq_true] at isName
    cases called : file.called? parent with
    | some method => exact .call above isName.2 called
    | none => exact .nothing
  split
  · cases refers : file.referencedMethod? parent name with
    | some method => exact .reference above refers
    | none => exact .nothing
  split
  · exact .nothing
  split
  · exact .nothing
  split
  · cases found : file.enumConstant? name.text with
    | some declaration => exact .constant use found
    | none => exact resolves_plainMeaning use
  · exact resolves_plainMeaning use

/-- A name resolves in one of the ways. -/
theorem resolves_meaning (file : SourceFile) (name : Place) :
    file.Resolves name (file.meaning name) := by
  unfold meaning
  cases above : name.parent? with
  | none => exact .nothing
  | some parent =>
    dsimp only
    split
    · next declares =>
      simp only [Bool.and_eq_true] at declares
      exact .declaredType above declares.1 declares.2
    split
    · next isName => exact .declaredMethod above isName
    split
    · next isName => exact .declaredConstructor above isName
    split
    · next declares => exact .declaredVariable declares
    · next uses =>
      cases means : name.headerElement? with
      | some element => exact .header means
      | none =>
        dsimp only
        split
        · exact .dotted
        · exact resolves_roleMeaning above (Bool.eq_false_iff.mpr uses)

/-! ## The declarations that names resolve to -/

/-- A child in the role of a name is the name that its parent has. -/
theorem child?_eq_of_hasRole (file : SourceFile) {role : Role} (held : file.root.Holds name)
    (above : name.parent? = some parent) (has : name.hasRole role = true) :
    parent.child? role = some name := by
  obtain ⟨around, above', child⟩ := held.child?_of_hasRole has
  obtain rfl : parent = around := Option.some.inj (above.symm.trans above')
  exact child

/-- What is the name of a declaration is the declared name. -/
theorem declaredName?_of_isNameOf {constructs : List Construct} (held : file.root.Holds name)
    (above : name.parent? = some parent) (isName : name.isNameOf constructs = true) :
    parent.isAny constructs = true ∧ parent.child? .name = some name := by
  simp only [Place.isNameOf, above, Option.any_some, Bool.and_eq_true] at isName
  exact ⟨isName.1, child?_eq_of_hasRole file held above isName.2⟩

/-- A name that resolves to a variable declares it or has its spelling. -/
theorem isVariable_of_meaning (file : SourceFile) (held : file.root.Holds name)
    (means : file.meaning name = .binding declaration) :
    name.declaresVariable = true ∧ declaration = name ∨
      name.declaresVariable = false ∧ Place.IsVariable file.root name.text declaration := by
  have resolves := file.resolves_meaning name
  rw [means] at resolves
  cases resolves with
  | declaredVariable declares => exact .inl ⟨declares, rfl⟩
  | field above use found =>
    obtain ⟨scope, receives, named⟩ := Option.bind_eq_some_iff.mp found
    obtain ⟨object, child, receives⟩ := Option.bind_eq_some_iff.mp receives
    have heldObject := (held.parent above).1.of_child? child
    have heldScope := held_of_receiver? heldObject receives
    exact .inr ⟨use, Place.isVariable_of_fieldNamed? heldScope named⟩
  | constant use found => exact .inr ⟨use, isVariable_of_enumConstant? found⟩
  | inScope use found => exact .inr ⟨use, Place.isVariable_of_variableNamed? held found⟩

/-- A name that resolves to a method is the name of the method. -/
theorem declaredName?_of_meaning (file : SourceFile) (held : file.root.Holds name)
    (means : file.meaning name = .method declaration) :
    declaration.declaredName? = some name.text := by
  have resolves := file.resolves_meaning name
  rw [means] at resolves
  cases resolves with
  | declaredMethod above isName =>
    simp [Place.declaredName?, (declaredName?_of_isNameOf held above isName).2]
  | call above isName called =>
    obtain ⟨own, scope, child, _, listed⟩ := called?_eq_some (held.parent above).1 called
    obtain rfl : name = own :=
      Option.some.inj ((child?_eq_of_hasRole file held above isName).symm.trans child)
    exact (Place.mem_methodsNamed listed).2.2
  | reference above refers =>
    obtain ⟨scope, _, first⟩ := Option.bind_eq_some_iff.mp refers
    exact (Place.mem_methodsNamed (List.mem_of_head? first)).2.2

end SourceFile

end CaretName
