import CaretName.Proofs.SourceFile.Lookup
import CaretName.SourceFile.Receiver

/-!
# Where lookups of types and methods end

A type is found by its qualified name, so every lookup of one ends at a declaration of the
tree. The scope of a receiver therefore belongs to the tree, and so does the method that a call
means, which has the name of the call. The fuel of the search for it plays no part: the scope of
an expression is one step of the search from the scopes of the expressions in it.
-/
namespace CaretName

namespace Place

variable {root : Node} {name : String} {count : Nat} {scope method : Place}

/-- A method with a name is one of the members, and declares it. -/
theorem mem_methodsNamed (listed : method ∈ scope.methodsNamed name) :
    method ∈ scope.scopeMembers ∧ method.is .methodDeclaration = true ∧
      method.declaredName? = some name := by
  obtain ⟨inside, named⟩ := List.mem_filter.mp listed
  simpa using And.intro inside named

/-- The method that a call means has the name. -/
theorem mem_methodsNamed_of_method? (found : scope.method? name count = some method) :
    method ∈ scope.methodsNamed name := by
  unfold method? at found
  simp only [Option.orElse_eq_orElse, Option.orElse_eq_or, Option.or_eq_some_iff] at found
  rcases found with fits | ⟨_, first⟩
  · exact List.mem_of_find?_eq_some fits
  · exact List.mem_of_mem_head? first

end Place

namespace SourceFile

variable {file : SourceFile} {name : String} {place found : Place}

/-- The declaration with a qualified name is one of the tree that has it. -/
theorem typeNamed?_eq_some (named : file.typeNamed? name = some found) :
    file.root.Holds found ∧ found.isTypeDeclaration = true ∧
      file.qualifiedName found = name := by
  obtain ⟨held, declares⟩ := held_of_mem_allTypes (List.mem_of_find?_eq_some named)
  exact ⟨held, declares, by simpa using List.find?_some named⟩

/-- The declaration of a class type without type arguments is found by a qualified name. -/
theorem typeNamed?_of_rawTypeDeclaration? (declared : file.rawTypeDeclaration? place = some found) :
    ∃ name, file.typeNamed? name = some found := by
  unfold rawTypeDeclaration? at declared
  dsimp only at declared
  split at declared
  · split at declared
    · exact ⟨_, declared⟩
    · contradiction
  · split at declared
    · split at declared
      · exact ⟨_, declared⟩
      · contradiction
    · contradiction

/-- The declaration of a class type is found by a qualified name. -/
theorem typeNamed?_of_typeDeclaration? (declared : file.typeDeclaration? place = some found) :
    ∃ name, file.typeNamed? name = some found := by
  unfold typeDeclaration? at declared
  dsimp only at declared
  split at declared
  · obtain ⟨_, _, declared⟩ := Option.bind_eq_some_iff.mp declared
    exact typeNamed?_of_rawTypeDeclaration? declared
  · exact typeNamed?_of_rawTypeDeclaration? declared

/-- The declaration of a class type belongs to the tree. -/
theorem held_of_typeDeclaration? (declared : file.typeDeclaration? place = some found) :
    file.root.Holds found := by
  obtain ⟨_, named⟩ := typeNamed?_of_typeDeclaration? declared
  exact (typeNamed?_eq_some named).1

/-- The declaration of the class that a class extends belongs to the tree. -/
theorem held_of_superclass? (declared : file.superclass? place = some found) :
    file.root.Holds found := by
  obtain ⟨_, _, declared⟩ := Option.bind_eq_some_iff.mp declared
  exact held_of_typeDeclaration? declared

/-- The declaration of the type of a variable belongs to the tree. -/
theorem held_of_variableType? (held : file.root.Holds place)
    (declared : file.variableType? place = some found) : file.root.Holds found := by
  obtain ⟨type, _, declared⟩ := Option.bind_eq_some_iff.mp declared
  split at declared
  · exact held_of_typeDeclaration? declared
  · obtain ⟨parent, above, declared⟩ := Option.bind_eq_some_iff.mp declared
    split at declared
    · exact (held.parent above).1.of_ancestor (List.mem_of_find?_eq_some declared)
    · contradiction

/-- The declaration that a chain of names means belongs to the tree. -/
theorem held_of_accessedType? (declared : file.accessedType? place = some found) :
    file.root.Holds found := by
  unfold accessedType? at declared
  split at declared
  · contradiction
  · obtain ⟨_, _, declared⟩ := Option.bind_eq_some_iff.mp declared
    split at declared
    · exact (typeNamed?_eq_some declared).1
    · contradiction

/-- The method that a call means is a method of the name of the call in a scope of the tree, if
the scopes of receivers are. -/
theorem calledThrough?_eq_some {scopeOf : Place → Option Place}
    (scopes : ∀ object scope, file.root.Holds object → scopeOf object = some scope →
      file.root.Holds scope)
    (held : file.root.Holds place) (called : calledThrough? scopeOf place = some found) :
    ∃ own scope, place.child? .name = some own ∧ file.root.Holds scope ∧
      found ∈ scope.methodsNamed own.text := by
  obtain ⟨own, named, called⟩ := Option.bind_eq_some_iff.mp called
  split at called
  · next object child =>
    obtain ⟨scope, receives, called⟩ := Option.bind_eq_some_iff.mp called
    exact ⟨own, scope, named, scopes object scope (held.of_child? child) receives,
      Place.mem_methodsNamed_of_method? called⟩
  · obtain ⟨scope, outward, called⟩ := List.exists_of_findSome?_eq_some called
    exact ⟨own, scope, named, held.of_ancestor (List.mem_filter.mp outward).1,
      Place.mem_methodsNamed_of_method? called⟩

/-- The scope of a receiver belongs to the tree. Induction on the fuel, which receivers inside
receivers use up. -/
theorem held_of_receiverWithin? {fuel : Nat} (held : file.root.Holds place)
    (receives : file.receiverWithin? fuel place = some found) : file.root.Holds found := by
  induction fuel generalizing place found with
  | zero => simp [receiverWithin?] at receives
  | succ fuel ih =>
    rw [receiverWithin?] at receives
    split at receives
    · exact held.of_ancestor (List.mem_of_find?_eq_some receives)
    · obtain ⟨type, _, receives⟩ := Option.bind_eq_some_iff.mp receives
      exact held_of_superclass? receives
    · split at receives
      · next named =>
        exact held_of_variableType? (Place.isVariable_of_variableNamed? held named).held receives
      · split at receives
        · exact (typeNamed?_eq_some receives).1
        · contradiction
    · simp only [Option.orElse_eq_orElse, Option.orElse_eq_or, Option.or_eq_some_iff] at receives
      rcases receives with accessed | ⟨_, member⟩
      · exact held_of_accessedType? accessed
      · obtain ⟨scope, inner, member⟩ := Option.bind_eq_some_iff.mp member
        obtain ⟨object, child, inner⟩ := Option.bind_eq_some_iff.mp inner
        obtain ⟨variable_, named, member⟩ := Option.bind_eq_some_iff.mp member
        obtain ⟨field, _, named⟩ := Option.bind_eq_some_iff.mp named
        have heldScope := ih (held.of_child? child) inner
        exact held_of_variableType? (Place.isVariable_of_fieldNamed? heldScope named).held member
    · obtain ⟨type, _, receives⟩ := Option.bind_eq_some_iff.mp receives
      exact held_of_typeDeclaration? receives
    · obtain ⟨type, _, receives⟩ := Option.bind_eq_some_iff.mp receives
      exact held_of_typeDeclaration? receives
    · obtain ⟨type, _, receives⟩ := Option.bind_eq_some_iff.mp receives
      exact held_of_typeDeclaration? receives
    · obtain ⟨inner, first, receives⟩ := Option.bind_eq_some_iff.mp receives
      exact ih (held.child (Place.mem_children_of_mem_constructs (List.mem_of_head? first)))
        receives
    · contradiction

/-- The scope of a receiver belongs to the tree. -/
theorem held_of_receiver? (held : file.root.Holds place)
    (receives : file.receiver? place = some found) : file.root.Holds found :=
  held_of_receiverWithin? held receives

/-- The method that a call means is a method of the tree, of the name of the call. -/
theorem called?_eq_some (held : file.root.Holds place)
    (called : file.called? place = some found) :
    ∃ own scope, place.child? .name = some own ∧ file.root.Holds scope ∧
      found ∈ scope.methodsNamed own.text :=
  calledThrough?_eq_some (fun _ _ => held_of_receiver?) held called

/-! ## The search without fuel -/

variable {one other : Place → Option Place}

/-- One step of the search for the type scope of an expression, given how the scopes of the
expressions in it are found. -/
def receiverStep (file : SourceFile) (scopeOf : Place → Option Place) (object : Place) :
    Option Place :=
  match object.kind with
  | .construct .thisWord => object.enclosingScope?
  | .construct .superWord => object.enclosingType?.bind file.superclass?
  | .construct .identifier =>
    match object.variableNamed? object.text with
    | some name => file.variableType? name
    | none =>
      match file.lookupType? object.text object with
      | some (.type name) => file.typeNamed? name
      | _ => none
  | .construct .fieldAccess =>
    file.accessedType? object <|>
      ((object.child? .object).bind scopeOf).bind fun scope =>
        ((object.child? .field).bind fun field => scope.fieldNamed? field.text).bind
          file.variableType?
  | .construct .methodInvocation =>
    ((calledThrough? scopeOf object).bind (·.child? .type)).bind file.typeDeclaration?
  | .construct .objectCreationExpression | .construct .castExpression =>
    (object.child? .type).bind file.typeDeclaration?
  | .construct .parenthesizedExpression => object.constructs.head?.bind scopeOf
  | _ => none

/-- With fuel left the search takes a step. -/
theorem receiverWithin?_succ (file : SourceFile) (fuel : Nat) (object : Place) :
    file.receiverWithin? (fuel + 1) object =
      file.receiverStep (file.receiverWithin? fuel) object := rfl

/-- A call asks for the scope of its receiver only. -/
theorem calledThrough?_congr {call : Place}
    (same : ∀ object, call.child? .object = some object → one object = other object) :
    calledThrough? one call = calledThrough? other call := by
  unfold calledThrough?
  cases child : call.child? .object with
  | none => rfl
  | some object => simp only [same object child]

/-- A step asks for the scopes of children only. -/
theorem receiverStep_congr (same : ∀ child ∈ place.children, one child = other child) :
    file.receiverStep one place = file.receiverStep other place := by
  have object : ∀ object, place.child? .object = some object → one object = other object :=
    fun object child => same object (Place.mem_children_of_child? child).1
  unfold receiverStep
  split
  · rfl
  · rfl
  · rfl
  · rw [Option.bind_congr object]
  · rw [calledThrough?_congr object]
  · rfl
  · rfl
  · refine Option.bind_congr fun inner first => same inner ?_
    exact Place.mem_children_of_mem_constructs (List.mem_of_head? first)
  · rfl

/-- More fuel than an expression is high makes no difference. Induction on the expression. -/
theorem receiverWithin?_eq {fuel : Nat} (enough : place.node.height ≤ fuel) :
    file.receiverWithin? fuel place = file.receiver? place := by
  induction place using Place.child_induction generalizing fuel with
  | step place ih =>
    have positive : 0 < place.node.height := by cases place.node <;> exact Nat.succ_pos _
    obtain ⟨height, high⟩ := Nat.exists_eq_succ_of_ne_zero (Nat.ne_of_gt positive)
    obtain ⟨fuel, rfl⟩ := Nat.exists_eq_succ_of_ne_zero (by omega : fuel ≠ 0)
    rw [receiver?, high, Nat.succ_eq_add_one, Nat.succ_eq_add_one, receiverWithin?_succ,
      receiverWithin?_succ]
    refine receiverStep_congr fun child below => ?_
    have less := Node.height_lt_of_mem_children (Place.node_mem_of_mem_children below)
    rw [ih child below (by omega), ih child below (by omega)]

/-- The scope of an expression is found in one step from those of the expressions in it. -/
theorem receiver?_eq (file : SourceFile) (object : Place) :
    file.receiver? object = file.receiverStep file.receiver? object := by
  rw [← receiverWithin?_eq (Nat.le_succ object.node.height), receiverWithin?_succ]
  refine receiverStep_congr fun child below => receiverWithin?_eq ?_
  exact Nat.le_of_lt (Node.height_lt_of_mem_children (Place.node_mem_of_mem_children below))

end SourceFile

end CaretName
