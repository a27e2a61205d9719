import CaretName.Proofs.SourceFile.Naming
import CaretName.Proofs.SourceFile.Receiver

/-!
# What is inherited

Both `this` and `super` speak of the type scope around them, but they look for it in different
ways: `this` stops at the body of an anonymous class and `super` passes it. The two agree on the
scope where the nearest one declares a type. Inside the body of an anonymous class `super` means
what it would mean around the body, through as many of them as there are.
-/
namespace CaretName

open Grammar

namespace Place

variable {place scope : Place}

/-- A place that stands where another does has the same places around it. -/
theorem ancestors_of_above {other : Place} (beside : place.above = other.above) :
    place.ancestors = other.ancestors := by
  rw [ancestors, ancestors, beside]

/-- The search for a declaration of a type comes to the nearest scope first, and goes on from it
unless the scope is one. -/
theorem enclosingType?_of_enclosingScope? (nearest : place.enclosingScope? = some scope) :
    place.enclosingType? =
      if scope.isTypeDeclaration then some scope else scope.enclosingType? := by
  obtain ⟨_, before, after, parted, passed⟩ := List.find?_eq_some_iff_append.mp nearest
  obtain rfl := ancestors_eq_append parted
  have silent : before.find? isTypeDeclaration = none := by
    refine List.find?_eq_none.mpr fun other listed declares => ?_
    have noScope := passed other listed
    simp [isTypeScope, declares] at noScope
  rw [enclosingType?, parted, List.find?_append, silent, Option.none_or, List.find?_cons]
  cases scope.isTypeDeclaration <;> rfl

/-- Outside all scopes there is no declaration of a type around a place. -/
theorem enclosingType?_eq_none (outside : place.enclosingScope? = none) :
    place.enclosingType? = none := by
  refine List.find?_eq_none.mpr fun other around declares => ?_
  have noScope := List.find?_eq_none.mp outside other around
  simp [isTypeScope, declares] at noScope

/-- The body of an anonymous class is passed in the search for a declaration of a type. -/
theorem enclosingType?_of_anonymous (nearest : place.enclosingScope? = some scope)
    (anonymous : scope.isAnonymousBody = true) : place.enclosingType? = scope.enclosingType? := by
  have isBody := (Bool.and_eq_true_iff.mp anonymous).1
  have noType : scope.isTypeDeclaration = false :=
    isAny_eq_false (isAny_of_is isBody (List.mem_singleton_self _)) (by decide)
  rw [enclosingType?_of_enclosingScope? nearest, noType, if_neg Bool.false_ne_true]

/-- The nearest scope declares a type if it is no body of an anonymous class. -/
theorem isTypeDeclaration_of_enclosingScope? (nearest : place.enclosingScope? = some scope)
    (named : scope.isAnonymousBody = false) : scope.isTypeDeclaration = true := by
  have isScope := List.find?_some nearest
  rwa [isTypeScope, named, Bool.or_false] at isScope

/-- A chain of field accesses starts from a name or is no chain of names. -/
theorem accessPath?_eq_none {access object : Place} (isAccess : access.is .fieldAccess = true)
    (child : access.child? .object = some object) (noName : object.is .identifier = false)
    (noAccess : object.is .fieldAccess = false) : access.accessPath? = none := by
  have other : access.is .identifier = false :=
    is_eq_false (isAny_of_is isAccess (List.mem_singleton_self _)) (by decide)
  have silent : ∀ fuel, object.accessPathWithin? fuel = none := by
    intro fuel
    cases fuel <;> simp [accessPathWithin?, noName, noAccess]
  rw [accessPath?]
  cases access.node.height with
  | zero => rfl
  | succ fuel =>
    rw [accessPathWithin?, other, isAccess, child]
    cases access.child? .field with
    | none => simp
    | some field => simp [silent fuel]

end Place

namespace SourceFile

variable (file : SourceFile) {word : Place}

/-- The declaration in this file of the class that a type scope inherits from: what its
declaration extends, the created class for the body of an anonymous class, and the enum for the
body of a constant. -/
def inherited? (scope : Place) : Option Place :=
  if scope.isAnonymousBody then
    scope.parent?.bind fun around =>
      if around.is .enumConstant then around.enclosingType?
      else (around.child? .type).bind file.typeDeclaration?
  else file.superclass? scope

/-- The reference to oneself means the nearest scope. -/
theorem receiver?_thisWord (isThis : word.is .thisWord = true) :
    file.receiver? word = word.enclosingScope? := by
  rw [receiver?_eq, receiverStep, Place.is_iff.mp isThis]

/-- The reference to what is inherited means what the nearest declaration of a type extends. -/
theorem receiver?_superWord (isSuper : word.is .superWord = true) :
    file.receiver? word = word.enclosingType?.bind file.superclass? := by
  rw [receiver?_eq, receiverStep, Place.is_iff.mp isSuper]

/-! ## Uses -/

/-- All that is named after a receiver is looked up in the same type scope: a method in a call, a
field, and a method that is referred to. -/
structure LooksIn (receiver : Place) (scope? : Option Place) : Prop where
  call : ∀ call name : Place, call.child? .object = some receiver →
    call.child? .name = some name →
    file.called? call = scope?.bind (Place.method? name.text call.argumentCount)
  field : ∀ access field : Place, access.is .fieldAccess = true →
    access.child? .object = some receiver → file.accessElement access field =
      (scope?.bind (Place.fieldNamed? field.text)).elim .other Place.variableElement
  reference : ∀ reference name : Place, reference.constructs.head? = some receiver →
    file.referenceElement reference name =
      (scope?.bind fun scope => (scope.methodsNamed name.text).head?).elim .other
        file.methodElement

/-- Constructs in front of a dot or two colons that may be the name of a type. -/
def nameLikeConstructs : List Construct :=
  [.identifier, .fieldAccess, .typeIdentifier, .scopedTypeIdentifier, .genericType]

/-- What is named after an expression that is never part of a dotted name is looked up in the type
scope of the expression. -/
theorem looksIn_of_isAny {receiver : Place} {constructs : List Construct}
    (kinds : receiver.isAny constructs = true)
    (apart : constructs.all (!nameLikeConstructs.contains ·) = true) :
    file.LooksIn receiver (file.receiver? receiver) := by
  have noName : receiver.isAny nameLikeConstructs = false := Place.isAny_eq_false kinds apart
  constructor
  case call =>
    intro call name child named
    simp [called?, calledThrough?, child, named]
  case field =>
    intro access field isAccess child
    have noPath := Place.accessPath?_eq_none isAccess child
      (Place.is_eq_false_of_isAny noName (by decide))
      (Place.is_eq_false_of_isAny noName (by decide))
    rw [accessElement, noPath, child]
    rfl
  case reference =>
    intro reference name first
    have noType : receiver.isAny [.typeIdentifier, .scopedTypeIdentifier, .genericType] = false :=
      Place.isAny_eq_false_mono noName (by decide)
    simp [referenceElement, first, noType]

/-- What is named after `super` is looked up in the type that it means: it is never part of a
dotted name. -/
theorem looksIn_superWord (isSuper : word.is .superWord = true) :
    file.LooksIn word (file.receiver? word) :=
  file.looksIn_of_isAny (Place.isAny_of_is isSuper (List.mem_singleton_self _)) (by decide)

/-- Both keywords start from the nearest type scope around them, and all that is named after
`super` is looked up in the type that `super` means. Where the scope declares a type, `super` means
what the type inherits from. Inside the body of an anonymous class it means what it would mean
around the body, so it is the class that the body inherits from only if the two are the same. -/
theorem super_by_scope (isSuper : word.is .superWord = true) :
    (∀ self : Place, self.is .thisWord = true → self.above = word.above →
      file.receiver? self = word.enclosingScope?) ∧
    file.LooksIn word (file.receiver? word) ∧
    (word.enclosingScope? = none → file.receiver? word = none) ∧
    ∀ scope, word.enclosingScope? = some scope →
      (scope.isAnonymousBody = false → file.receiver? word = file.inherited? scope) ∧
      (scope.isAnonymousBody = true →
        (∀ outside : Place, outside.is .superWord = true → outside.above = scope.above →
          file.receiver? word = file.receiver? outside) ∧
        (file.receiver? word = file.inherited? scope ↔
          scope.enclosingType?.bind file.superclass? = file.inherited? scope)) := by
  have means := file.receiver?_superWord isSuper
  refine ⟨fun self isThis beside => ?_, file.looksIn_superWord isSuper, fun outside => ?_,
    fun scope nearest => ⟨fun named => ?_, fun anonymous => ⟨fun other isOther beside => ?_, ?_⟩⟩⟩
  · rw [file.receiver?_thisWord isThis, Place.enclosingScope?, Place.ancestors_of_above beside,
      Place.enclosingScope?]
  · rw [means, Place.enclosingType?_eq_none outside, Option.bind_none]
  · have declares := Place.isTypeDeclaration_of_enclosingScope? nearest named
    rw [means, Place.enclosingType?_of_enclosingScope? nearest, if_pos declares, Option.bind_some,
      inherited?, named, if_neg Bool.false_ne_true]
  · rw [means, file.receiver?_superWord isOther,
      Place.enclosingType?_of_anonymous nearest anonymous, Place.enclosingType?,
      Place.ancestors_of_above beside.symm, ← Place.enclosingType?]
  · rw [means, Place.enclosingType?_of_anonymous nearest anonymous]

/-- A class that calls the method of the class it extends. -/
def callOfInherited : String :=
  "class S { void m() { } } class A extends S { void f() { super.m(); } }"

/-- The method is looked up in the class that is extended. -/
theorem super_in_namedClass : ∃ word scope parent call name : Place,
    word.is .superWord = true ∧ word.enclosingScope? = some scope ∧
    (ofRoot (parse callOfInherited)).inherited? scope = some parent ∧
    (ofRoot (parse callOfInherited)).receiver? word = some parent ∧
    call.child? .object = some word ∧ call.child? .name = some name ∧
    (ofRoot (parse callOfInherited)).called? call =
      parent.method? name.text call.argumentCount := by
  have used : (((parse callOfInherited).places []).any fun call =>
      (call.child? .object).any fun word => word.is .superWord && (call.child? .name).isSome &&
        word.enclosingScope?.any fun scope => !scope.isAnonymousBody &&
          ((ofRoot (parse callOfInherited)).inherited? scope).isSome) = true := by decide +kernel
  obtain ⟨call, _, used⟩ := List.any_eq_true.mp used
  simp only [Bool.and_eq_true, Option.any_eq_true, Bool.not_eq_true', Option.isSome_iff_exists]
    at used
  obtain ⟨word, child, ⟨isSuper, name, named⟩, scope, nearest, declared, parent, inherits⟩ := used
  obtain ⟨_, looks, _, scopes⟩ := super_by_scope (ofRoot (parse callOfInherited)) isSuper
  have means := (scopes scope nearest).1 declared
  have called := looks.call call name child named
  rw [means, inherits, Option.bind_some] at called
  exact ⟨word, scope, parent, call, name, isSuper, nearest, inherits, means.trans inherits, child,
    named, called⟩

/-- An anonymous class inside a class, where the two extend different classes. -/
def anonymousInExtended : String :=
  "class S { void m() { } } class B { void m() { } } " ++
    "class A extends S { void f() { new B() { void g() { super.m(); } }; } }"

/-- In the anonymous class `super` means the class that the class around it extends. -/
theorem super_passes_anonymous : accepts anonymousInExtended = true ∧
    ∃ word scope own other name : Place, (parse anonymousInExtended).Holds word ∧
      word.is .superWord = true ∧ word.enclosingScope? = some scope ∧
      (ofRoot (parse anonymousInExtended)).inherited? scope = some own ∧
      own.declaredName? = some "B" ∧
      (ofRoot (parse anonymousInExtended)).receiver? word = some other ∧
      other.declaredName? = some "S" ∧
      (ofRoot (parse anonymousInExtended)).Shows name (.method "S" "m" []) := by
  have used : (accepts anonymousInExtended && ((parse anonymousInExtended).places []).any
      fun call => (call.child? .object).any (fun word => word.is .superWord &&
        (word.enclosingScope?.any fun scope =>
          ((ofRoot (parse anonymousInExtended)).inherited? scope).any fun own =>
            own.declaredName? == some "B") &&
        ((ofRoot (parse anonymousInExtended)).receiver? word).any fun other =>
          other.declaredName? == some "S") && (call.child? .name).any fun name =>
        name.is .identifier && (ofRoot (parse anonymousInExtended)).nameElement name ==
          .method "S" "m" []) = true := by decide +kernel
  obtain ⟨accepted, call, held, used⟩ := exists_held_of_search used
  simp only [Bool.and_eq_true, Option.any_eq_true, beq_iff_eq] at used
  obtain ⟨⟨word, child, ⟨isSuper, scope, nearest, own, inherits, isOwn⟩, other, receives, isOther⟩,
    name, named, isIdentifier, means⟩ := used
  have shown := (shows_name_iff (wellFormed_parse accepted) (held.of_child? named)
    (isName_of_identifier isIdentifier)).mpr means
  exact ⟨accepted, word, scope, own, other, name, held.of_child? child, isSuper, nearest, inherits,
    isOwn, receives, isOther, shown⟩

end SourceFile

end CaretName
