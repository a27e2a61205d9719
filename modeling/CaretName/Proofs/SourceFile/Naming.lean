import CaretName.Proofs.SourceFile.Caret
import CaretName.Proofs.SourceFile.Lookup

/-!
# Qualified names by nesting

The name of a declared type is put together from all that lies around it, up to the first
boundary. It depends only on the nearest declaration or boundary around the type, though: the
name of a member extends the name of its type, a local type goes by its own name, and a type
that nothing encloses is qualified by the package. Every consumer of names sees the same one.
-/
namespace CaretName

open Grammar

/-! ## Paths of names -/

namespace Place

/-- What follows a place among those around another is what lies around it. -/
theorem ancestors_eq_append {place around : Place} {before after : List Place}
    (parted : place.ancestors = before ++ around :: after) : after = around.ancestors := by
  obtain ⟨node, above⟩ := place
  change along above = _ at parted
  induction before generalizing above with
  | nil =>
    cases above with
    | nil => simp [along] at parted
    | cons step above =>
      simp only [along, List.nil_append, List.cons.injEq] at parted
      obtain ⟨rfl, rfl⟩ := parted
      rfl
  | cons first before ih =>
    cases above with
    | nil => simp [along] at parted
    | cons step above =>
      simp only [along, List.cons_append, List.cons.injEq] at parted
      exact ih above parted.2

end Place

namespace Scheme

variable {scheme : Scheme} {place around : Place} {name : String}

/-- A place that gives no name and sets no boundary. -/
def Passes (scheme : Scheme) (place : Place) : Prop :=
  scheme.segment? place = none ∧ scheme.isBoundary place = false

/-- Where nothing around a place gives a name or sets a boundary, its path is its name. -/
theorem path_of_passes (segment : scheme.segment? place = some name)
    (inside : scheme.isBoundary place = false)
    (passes : ∀ other ∈ place.ancestors, scheme.Passes other) :
    scheme.path place = ⟨[name], false, scheme.separator⟩ := by
  have kept : place.ancestors.takeWhile (!scheme.isBoundary ·) = place.ancestors :=
    List.takeWhile_eq_self_iff.mpr fun other around => by simp [(passes other around).2]
  have silent : place.ancestors.filterMap scheme.segment? = [] :=
    List.filterMap_eq_nil_iff.mpr fun other around => (passes other around).1
  have free : place.ancestors.any scheme.isBoundary = false :=
    List.any_eq_false.mpr fun other around => by simp [(passes other around).2]
  simp [path, Place.outward, inside, kept, segment, silent, free]

/-- The path of a place extends the path of the nearest one around it that counts. -/
theorem path_extends (segment : scheme.segment? place = some name)
    (inside : scheme.isBoundary place = false) {before : List Place}
    (parted : place.ancestors = before ++ around.outward)
    (passes : ∀ other ∈ before, scheme.Passes other) :
    scheme.path place =
      { scheme.path around with segments := (scheme.path around).segments ++ [name] } := by
  have kept : ∀ others : List Place, (before ++ others).takeWhile (!scheme.isBoundary ·) =
      before ++ others.takeWhile (!scheme.isBoundary ·) := by
    intro others
    exact List.takeWhile_append_of_pos fun other listed => by simp [(passes other listed).2]
  have silent : before.filterMap scheme.segment? = [] :=
    List.filterMap_eq_nil_iff.mpr fun other listed => (passes other listed).1
  have free : before.any scheme.isBoundary = false :=
    List.any_eq_false.mpr fun other listed => by simp [(passes other listed).2]
  have outward : place.outward = place :: (before ++ around.outward) := by
    rw [Place.outward, parted]
  simp [path, outward, inside, kept, segment, silent, free]

/-- A boundary cuts its own path off. -/
theorem path_of_boundary (boundary : scheme.isBoundary place = true) :
    scheme.path place = ⟨[], true, scheme.separator⟩ := by
  simp [path, Place.outward, boundary]

/-- What gives a name has a path with a name. -/
theorem segments_ne_nil (segment : scheme.segment? place = some name)
    (inside : scheme.isBoundary place = false) : (scheme.path place).segments ≠ [] := by
  simp [path, Place.outward, inside, segment]

end Scheme

/-- A longer path is joined from the shorter one and the last name. -/
theorem ScopePath.joined_append {path : ScopePath} (filled : path.segments ≠ []) (name : String) :
    ScopePath.joined { path with segments := path.segments ++ [name] } =
      path.joined ++ path.separator ++ name := by
  simp only [joined]
  rw [String.intercalate_append_of_ne_nil filled (by simp), String.intercalate_singleton]

/-- The package stands in front of a dotted name. -/
theorem Header.qualify_append (header : Header) (name rest : String) :
    header.qualify (name ++ rest) = header.qualify name ++ rest := by
  unfold qualify
  cases header.package <;> simp [String.append_assoc]

/-! ## Names of types -/

namespace SourceFile

variable {root : Node} {place around name : Place}

/-- The nearest declaration of a type or boundary around a place, which the name of a type
inside starts from. -/
def naming? (place : Place) : Option Place :=
  place.ancestors.find? fun around => around.isTypeDeclaration || scheme.isBoundary around

/-- A declaration of a type gives its name to its path. -/
theorem segment?_eq (declares : place.isTypeDeclaration = true)
    (found : place.child? .name = some name) : scheme.segment? place = some name.text := by
  have named : place.isAny scheme.named = true := declares
  simp [Scheme.segment?, named, found]

/-- A declaration of a type is no boundary. -/
theorem isBoundary_of_isTypeDeclaration (declares : place.isTypeDeclaration = true) :
    scheme.isBoundary place = false := Place.isAny_eq_false declares (by decide)

/-- What declares no type gives no name. -/
theorem segment?_eq_none (other : place.isTypeDeclaration = false) :
    scheme.segment? place = none := by
  have unnamed : place.isAny scheme.named = false := other
  simp [Scheme.segment?, unnamed]

/-- The path of a type that nothing encloses is its name. -/
theorem path_of_naming?_eq_none (declares : place.isTypeDeclaration = true)
    (found : place.child? .name = some name) (alone : naming? place = none) :
    scheme.path place = ⟨[name.text], false, "."⟩ := by
  refine Scheme.path_of_passes (segment?_eq declares found)
    (isBoundary_of_isTypeDeclaration declares) fun other outside => ?_
  have neither := List.find?_eq_none.mp alone other outside
  simp only [Bool.or_eq_true, not_or, Bool.not_eq_true] at neither
  exact ⟨segment?_eq_none neither.1, neither.2⟩

/-- The path of an enclosed type extends that of what encloses it. -/
theorem path_of_naming?_eq_some (declares : place.isTypeDeclaration = true)
    (found : place.child? .name = some name) (nearest : naming? place = some around) :
    scheme.path place =
      { scheme.path around with segments := (scheme.path around).segments ++ [name.text] } := by
  obtain ⟨_, before, after, parted, passed⟩ := List.find?_eq_some_iff_append.mp nearest
  obtain rfl := Place.ancestors_eq_append parted
  refine Scheme.path_extends (segment?_eq declares found)
    (isBoundary_of_isTypeDeclaration declares) parted fun other listed => ?_
  have neither := passed other listed
  simp only [Bool.not_eq_true', Bool.or_eq_false_iff] at neither
  exact ⟨segment?_eq_none neither.1, neither.2⟩

/-- What the nearest enclosure is: a declaration of a type, or a boundary. -/
theorem isTypeDeclaration_or_isBoundary (nearest : naming? place = some around) :
    around.isTypeDeclaration = true ∨ scheme.isBoundary around = true := by
  simpa using List.find?_some nearest

/-- A type that nothing encloses is qualified by the package. -/
theorem qualifiedName_of_naming?_eq_none (file : SourceFile)
    (declares : place.isTypeDeclaration = true) (found : place.child? .name = some name)
    (alone : naming? place = none) : file.qualifiedName place = file.header.qualify name.text := by
  simp [qualifiedName, path_of_naming?_eq_none declares found alone, ScopePath.joined]

/-- A type inside a boundary goes by its own name. -/
theorem qualifiedName_of_boundary (file : SourceFile)
    (declares : place.isTypeDeclaration = true) (found : place.child? .name = some name)
    (nearest : naming? place = some around) (boundary : scheme.isBoundary around = true) :
    file.qualifiedName place = name.text := by
  simp [qualifiedName, path_of_naming?_eq_some declares found nearest,
    Scheme.path_of_boundary boundary, ScopePath.joined]

/-- The name of a type inside another extends the name of that one. -/
theorem qualifiedName_of_enclosing (wf : WellFormed root) (held : root.Holds place)
    (file : SourceFile) (declares : place.isTypeDeclaration = true)
    (found : place.child? .name = some name) (nearest : naming? place = some around)
    (enclosing : around.isTypeDeclaration = true) :
    file.qualifiedName place = file.qualifiedName around ++ "." ++ name.text := by
  have heldAround := held.of_ancestor (List.mem_of_find?_eq_some nearest)
  obtain ⟨outer, outerName, _⟩ := wf.exists_name heldAround (Place.isAny_mono enclosing (by decide))
  have filled := Scheme.segments_ne_nil (segment?_eq enclosing outerName)
    (isBoundary_of_isTypeDeclaration enclosing)
  have joined := ScopePath.joined_append filled name.text
  rw [← path_of_naming?_eq_some declares found nearest] at joined
  have isLocal : (scheme.path place).isLocal = (scheme.path around).isLocal := by
    rw [path_of_naming?_eq_some declares found nearest]
  unfold qualifiedName
  simp only [joined, isLocal]
  split
  · rfl
  · rw [String.append_assoc, String.append_assoc, Header.qualify_append]
    rfl

/-! ## Consumers of names -/

/-- A declaration of a type is no anonymous class. -/
theorem isAnonymousBody_eq_false (declares : place.isTypeDeclaration = true) :
    place.isAnonymousBody = false := by
  have other : place.is .classBody = false := Place.is_eq_false declares (by decide)
  simp [Place.isAnonymousBody, other]

/-- A type scope that declares a type goes by the name of the type. -/
theorem scopeName_eq (file : SourceFile) (declares : place.isTypeDeclaration = true) :
    file.scopeName place = file.qualifiedName place := by
  simp [scopeName, isAnonymousBody_eq_false declares]

/-- Constructs that stand between a type and its members. -/
def betweenMembers : List Construct := .enumBodyDeclarations :: bodyConstructs

/-- Between a type and its members stand only the constructs that hold members, none of which
is the body of an anonymous class. -/
theorem ancestors_of_mem_scopeMembers (wf : WellFormed root) (held : root.Holds place)
    (declares : place.isTypeDeclaration = true) {member : Place}
    (inside : member ∈ place.scopeMembers) :
    root.Holds member ∧ ∃ between, member.ancestors = between ++ place.outward ∧
      ∀ other ∈ between, other.isAny betweenMembers = true ∧ other.isAnonymousBody = false := by
  have noBody : place.is .classBody = false := Place.is_eq_false declares (by decide)
  cases found : place.child? .body with
  | none => simp [Place.scopeMembers, Place.typeBody?, noBody, found] at inside
  | some body =>
    simp only [Place.scopeMembers, Place.typeBody?, noBody, found, Bool.false_eq_true, ↓reduceIte,
      Option.map_some, Option.getD_some, Place.members, List.mem_flatMap] at inside
    have below := (Place.mem_children_of_child? found).1
    have heldBody := held.child below
    have isBody := wf.is_body held declares found
    have bodyPasses : body.isAny betweenMembers = true ∧ body.isAnonymousBody = false := by
      have noAnonymous : place.isAny [.objectCreationExpression, .enumConstant] = false :=
        Place.isAny_eq_false declares (by decide)
      exact ⟨Place.isAny_mono isBody (by decide),
        by simp [Place.isAnonymousBody, noAnonymous, Place.parent?_of_mem_children below]⟩
    obtain ⟨part, listed, chosen⟩ := inside
    have belowBody := Place.mem_children_of_mem_parts listed
    have aroundPart : part.ancestors = body :: place.outward := by
      rw [Place.ancestors_of_mem_children belowBody, Place.outward,
        Place.ancestors_of_mem_children below]
    split at chosen
    · -- The declarations after the constants of an enum lie one construct deeper.
      next isDeclarations =>
      have belowPart := Place.mem_children_of_mem_parts chosen
      have isBetween := Place.isAny_of_is isDeclarations (List.mem_singleton_self _)
      have noBody : part.is .classBody = false := Place.is_eq_false isBetween (by decide)
      refine ⟨(heldBody.child belowBody).child belowPart, [part, body], ?_, ?_⟩
      · rw [Place.ancestors_of_mem_children belowPart, Place.outward, aroundPart]
        rfl
      · refine List.forall_mem_cons.mpr ⟨?_, List.forall_mem_singleton.mpr bodyPasses⟩
        exact ⟨Place.isAny_mono isBetween (by decide), by simp [Place.isAnonymousBody, noBody]⟩
    · obtain rfl := List.mem_singleton.mp chosen
      exact ⟨heldBody.child belowBody, [body], aroundPart, List.forall_mem_singleton.mpr bodyPasses⟩

/-- A member of a type belongs to the tree, and the type is the nearest scope around it. -/
theorem enclosingScope?_of_mem_scopeMembers (wf : WellFormed root) (held : root.Holds place)
    (declares : place.isTypeDeclaration = true) {member : Place}
    (inside : member ∈ place.scopeMembers) :
    root.Holds member ∧ member.enclosingScope? = some place := by
  obtain ⟨heldMember, between, chain, passes⟩ :=
    ancestors_of_mem_scopeMembers wf held declares inside
  have placeScope : place.isTypeScope = true := by simp [Place.isTypeScope, declares]
  have passed : between.find? Place.isTypeScope = none := by
    refine List.find?_eq_none.mpr fun other listed => ?_
    have noType : other.isTypeDeclaration = false :=
      Place.isAny_eq_false (passes other listed).1 (by decide)
    simp [Place.isTypeScope, noType, (passes other listed).2]
  refine ⟨heldMember, ?_⟩
  rw [Place.enclosingScope?, chain, List.find?_append, passed, Place.outward,
    List.find?_cons_of_pos placeScope, Option.none_or]

/-- The nearest declaration or boundary around a member of a type is the type. -/
theorem naming?_of_mem_scopeMembers (wf : WellFormed root) (held : root.Holds place)
    (declares : place.isTypeDeclaration = true) {member : Place}
    (inside : member ∈ place.scopeMembers) : naming? member = some place := by
  obtain ⟨_, between, chain, passes⟩ := ancestors_of_mem_scopeMembers wf held declares inside
  have passed : between.find? (fun around =>
      around.isTypeDeclaration || scheme.isBoundary around) = none := by
    refine List.find?_eq_none.mpr fun other listed => ?_
    have noType : other.isTypeDeclaration = false :=
      Place.isAny_eq_false (passes other listed).1 (by decide)
    have noBoundary : scheme.isBoundary other = false :=
      Place.isAny_eq_false (passes other listed).1 (by decide)
    simp [noType, noBoundary]
  rw [naming?, chain, List.find?_append, passed, Place.outward,
    List.find?_cons_of_pos (by simp [declares]), Option.none_or]

/-- The name of a declared type shows its qualified name. -/
theorem shows_typeName (wf : WellFormed root) (held : root.Holds place)
    (declares : place.isTypeDeclaration = true) (found : place.child? .name = some name)
    (isName : name.isName = true) :
    (ofRoot root).Shows name (.type ((ofRoot root).qualifiedName place)) := by
  have above := Place.parent?_of_mem_children (Place.mem_children_of_child? found).1
  rw [shows_name_iff wf (held.of_child? found) isName]
  simp [nameElement, above, declares, Place.hasRole_of_child? found]

/-- The name of a declared method shows the method. -/
theorem shows_methodName (wf : WellFormed root) (held : root.Holds place)
    (declares : place.isAny [.methodDeclaration, .annotationTypeElementDeclaration] = true)
    (found : place.child? .name = some name) (isName : name.isName = true) :
    (ofRoot root).Shows name ((ofRoot root).methodElement place) := by
  have above := Place.parent?_of_mem_children (Place.mem_children_of_child? found).1
  have noType : place.isTypeDeclaration = false := Place.isAny_eq_false declares (by decide)
  rw [shows_name_iff wf (held.of_child? found) isName]
  simp [nameElement, above, noType, Place.isNameOf, declares, Place.hasRole_of_child? found]

/-- The name of a declared constructor shows the constructor. -/
theorem shows_constructorName (wf : WellFormed root) (held : root.Holds place)
    (declares : place.isAny [.constructorDeclaration, .compactConstructorDeclaration] = true)
    (found : place.child? .name = some name) (isName : name.isName = true) :
    (ofRoot root).Shows name ((ofRoot root).constructorElement place) := by
  have above := Place.parent?_of_mem_children (Place.mem_children_of_child? found).1
  have noType : place.isTypeDeclaration = false := Place.isAny_eq_false declares (by decide)
  have noMethod : place.isAny [.methodDeclaration, .annotationTypeElementDeclaration] = false :=
    Place.isAny_eq_false declares (by decide)
  rw [shows_name_iff wf (held.of_child? found) isName]
  simp [nameElement, above, noType, noMethod, Place.isNameOf, declares,
    Place.hasRole_of_child? found]

/-- A method of a type shows the qualified name of the type. -/
theorem shows_memberMethod (wf : WellFormed root) (held : root.Holds place)
    (declares : place.isTypeDeclaration = true) {member : Place}
    (inside : member ∈ place.scopeMembers)
    (isMethod : member.isAny [.methodDeclaration, .annotationTypeElementDeclaration] = true) :
    ∃ own parameters, member.child? .name = some own ∧ (ofRoot root).Shows own
      (.method ((ofRoot root).qualifiedName place) own.text parameters) := by
  obtain ⟨heldMember, scope⟩ := enclosingScope?_of_mem_scopeMembers wf held declares inside
  obtain ⟨own, found, isIdentifier⟩ :=
    wf.exists_name heldMember (Place.isAny_mono isMethod (by decide))
  have shown := shows_methodName wf heldMember isMethod found (isName_of_identifier isIdentifier)
  rw [methodElement, scope, Option.map_some, Option.getD_some, scopeName_eq _ declares,
    Place.declaredName?, found] at shown
  exact ⟨own, _, found, shown⟩

/-- A constructor of a type shows the qualified name of the type. -/
theorem shows_memberConstructor (wf : WellFormed root) (held : root.Holds place)
    (declares : place.isTypeDeclaration = true) {member : Place}
    (inside : member ∈ place.scopeMembers)
    (isConstructor :
      member.isAny [.constructorDeclaration, .compactConstructorDeclaration] = true) :
    ∃ own parameters, member.child? .name = some own ∧ (ofRoot root).Shows own
      (.constructor ((ofRoot root).qualifiedName place) parameters) := by
  obtain ⟨heldMember, scope⟩ := enclosingScope?_of_mem_scopeMembers wf held declares inside
  obtain ⟨own, found, isIdentifier⟩ :=
    wf.exists_name heldMember (Place.isAny_mono isConstructor (by decide))
  have shown := shows_constructorName wf heldMember isConstructor found
    (isName_of_identifier isIdentifier)
  rw [constructorElement, scope, Option.map_some, Option.getD_some, scopeName_eq _ declares]
    at shown
  exact ⟨own, _, found, shown⟩

/-- The types declared at the top of a file are its children that declare a type, in order. -/
theorem declarations_eq (root : Node) : (ofRoot root).declarations =
    ((Place.root root).children.filter Place.isTypeDeclaration).map fun declaration =>
      ⟨(ofRoot root).qualifiedName declaration, declaration.isPublic⟩ := by
  have same : ((Place.root root).parts.filter Place.isTypeDeclaration) =
      (Place.root root).children.filter Place.isTypeDeclaration := by
    rw [Place.parts, List.filter_filter]
    refine List.filter_congr fun place _ => ?_
    cases declares : place.isTypeDeclaration with
    | false => simp
    | true => simp [Place.isPart_of_isAny declares (by decide)]
  simp only [declarations, place]
  exact congrArg _ same

/-- Qualified names are put together by nesting, and all consumers agree on them. The name of a
type depends on the nearest declaration or boundary around it. The same name is shown by the
name of the type, it is the enclosing type of the methods and constructors that the type
declares, and it is listed for the types at the top of the file, in order. -/
theorem qualifiedName_by_nesting (wf : WellFormed root) :
    (∀ place, root.Holds place → place.isTypeDeclaration = true →
      ∃ name, place.child? .name = some name ∧ name.is .identifier = true ∧
        (ofRoot root).qualifiedName place =
          (match naming? place with
          | none => (ofRoot root).header.qualify name.text
          | some around =>
            if around.isTypeDeclaration then
              (ofRoot root).qualifiedName around ++ "." ++ name.text
            else name.text) ∧
        (ofRoot root).Shows name (.type ((ofRoot root).qualifiedName place)) ∧
        (∀ member ∈ place.scopeMembers,
          member.isAny [.methodDeclaration, .annotationTypeElementDeclaration] = true →
          ∃ own parameters, member.child? .name = some own ∧
            (ofRoot root).Shows own
              (.method ((ofRoot root).qualifiedName place) own.text parameters)) ∧
        (∀ member ∈ place.scopeMembers,
          member.isAny [.constructorDeclaration, .compactConstructorDeclaration] = true →
          ∃ own parameters, member.child? .name = some own ∧
            (ofRoot root).Shows own
              (.constructor ((ofRoot root).qualifiedName place) parameters))) ∧
    (ofRoot root).declarations =
      ((Place.root root).children.filter Place.isTypeDeclaration).map fun declaration =>
        ⟨(ofRoot root).qualifiedName declaration, declaration.isPublic⟩ := by
  refine ⟨fun place held declares => ?_, declarations_eq root⟩
  obtain ⟨name, found, isIdentifier⟩ := wf.exists_name held (Place.isAny_mono declares (by decide))
  refine ⟨name, found, isIdentifier, ?_, ?_, ?_, ?_⟩
  · cases nearest : naming? place with
    | none => exact qualifiedName_of_naming?_eq_none _ declares found nearest
    | some around =>
      rcases isTypeDeclaration_or_isBoundary nearest with enclosing | boundary
      · simp [enclosing, qualifiedName_of_enclosing wf held _ declares found nearest enclosing]
      · have noType : around.isTypeDeclaration = false := Place.isAny_eq_false boundary (by decide)
        simp [noType, qualifiedName_of_boundary _ declares found nearest boundary]
  · exact shows_typeName wf held declares found (isName_of_identifier isIdentifier)
  · exact fun member => shows_memberMethod wf held declares
  · exact fun member => shows_memberConstructor wf held declares

/-- In a class inside a class of a package the name of the inner class shows all three. -/
theorem shows_nested_name :
    accepts "package p; class A { class B { } }" = true ∧
      ∃ name, (ofRoot (parse "package p; class A { class B { } }")).Shows name
        (.type "p.A.B") := by
  have accepted : accepts "package p; class A { class B { } }" = true := by decide +kernel
  have nested : ((ofRoot (parse "package p; class A { class B { } }")).allTypes.any fun place =>
      (ofRoot (parse "package p; class A { class B { } }")).qualifiedName place == "p.A.B") =
        true := by decide +kernel
  obtain ⟨place, listed, same⟩ := List.any_eq_true.mp nested
  obtain ⟨held, declares⟩ := held_of_mem_allTypes listed
  obtain ⟨name, _, _, _, shown, _⟩ :=
    (qualifiedName_by_nesting (wellFormed_parse accepted)).1 place held declares
  exact ⟨accepted, name, eq_of_beq same ▸ shown⟩

/-! ## Local types -/

/-- A name stays as it is only in a file without a package. -/
theorem qualify_eq_iff {header : Header} {name : String} :
    header.qualify name = name ↔ header.package = none := by
  unfold Header.qualify
  cases header.package <;> simp

/-- A type goes by its own name alone exactly if the nearest declaration or boundary around it
is a boundary, or if nothing is around it and the file has no package. -/
theorem qualifiedName_eq_text_iff (wf : WellFormed root) (held : root.Holds place)
    (file : SourceFile) (declares : place.isTypeDeclaration = true)
    (found : place.child? .name = some name) : file.qualifiedName place = name.text ↔
      (naming? place).elim (file.header.package = none) (scheme.isBoundary · = true) := by
  cases nearest : naming? place with
  | none =>
    rw [qualifiedName_of_naming?_eq_none file declares found nearest]
    exact qualify_eq_iff
  | some around =>
    rw [Option.elim_some]
    by_cases enclosing : around.isTypeDeclaration = true
    · have noBoundary := isBoundary_of_isTypeDeclaration enclosing
      rw [qualifiedName_of_enclosing wf held file declares found nearest enclosing, noBoundary]
      have longer : file.qualifiedName around ++ "." ++ name.text ≠ name.text := by simp
      exact iff_of_false longer Bool.false_ne_true
    · have boundary := (isTypeDeclaration_or_isBoundary nearest).resolve_left enclosing
      exact iff_of_true (qualifiedName_of_boundary file declares found nearest boundary) boundary

/-- What stands in a construct that declares no type takes its name from there if the construct
is a boundary, and from what is around the construct otherwise. -/
theorem naming?_of_mem_children (below : place ∈ around.children)
    (other : around.isTypeDeclaration = false) :
    naming? place = if scheme.isBoundary around then some around else naming? around := by
  rw [naming?, Place.ancestors_of_mem_children below, Place.outward, List.find?_cons, other,
    Bool.false_or]
  cases scheme.isBoundary around <;> rfl

/-- A type declared in a statement list has a name. In a block or the body of a constructor the
type goes by this name alone. The statements of a switch are no boundary, so a type among them
does so exactly if the switch itself stands in a boundary, with no declaration of a type between,
or in no declaration at all of a file without a package. -/
theorem qualifiedName_in_statementList (wf : WellFormed root) {list : Place}
    (held : root.Holds list) (isList : list.isAny statementLists = true)
    (below : place ∈ list.children) (declares : place.isTypeDeclaration = true) :
    ∃ name, place.child? .name = some name ∧ name.is .identifier = true ∧
      (list.isAny [.block, .constructorBody] = true →
        (ofRoot root).qualifiedName place = name.text) ∧
      (list.is .switchBlockStatementGroup = true →
        ((ofRoot root).qualifiedName place = name.text ↔
          (naming? list).elim ((ofRoot root).header.package = none)
            (scheme.isBoundary · = true))) := by
  have heldPlace := held.child below
  have noType : list.isTypeDeclaration = false := Place.isAny_eq_false isList (by decide)
  have nearest := naming?_of_mem_children below noType
  obtain ⟨name, found, isIdentifier⟩ :=
    wf.exists_name heldPlace (Place.isAny_mono declares (by decide))
  refine ⟨name, found, isIdentifier, fun closed => ?_, fun isGroup => ?_⟩
  · have boundary : scheme.isBoundary list = true := Place.isAny_mono closed (by decide)
    rw [if_pos boundary] at nearest
    exact qualifiedName_of_boundary _ declares found nearest boundary
  · have noBoundary : scheme.isBoundary list = false :=
      Place.isAny_eq_false (Place.isAny_of_is isGroup (List.mem_singleton_self _)) (by decide)
    rw [if_neg (by simp [noBoundary])] at nearest
    rw [← nearest]
    exact qualifiedName_eq_text_iff wf heldPlace _ declares found

/-- A class in the body of a method, and one among the statements of a switch there. -/
def localClasses : String :=
  "package p; class A { void f() { class L { } switch (1) { case 1: class M { } } } }"

/-- Both classes go by their own names. -/
theorem qualifiedName_localClasses : accepts localClasses = true ∧
    ∃ block group first second own other : Place,
      block.is .block = true ∧ first ∈ block.children ∧ first.child? .name = some own ∧
      own.text = "L" ∧ (ofRoot (parse localClasses)).qualifiedName first = own.text ∧
      group.is .switchBlockStatementGroup = true ∧ second ∈ group.children ∧
      second.child? .name = some other ∧ other.text = "M" ∧
      (ofRoot (parse localClasses)).qualifiedName second = other.text := by
  have used : ((accepts localClasses && ((parse localClasses).places []).any fun list =>
        list.is .block && list.children.any fun place => place.isTypeDeclaration &&
          (place.child? .name).any (·.text == "L")) &&
      (accepts localClasses && ((parse localClasses).places []).any fun list =>
        list.is .switchBlockStatementGroup && (naming? list).any scheme.isBoundary &&
          list.children.any fun place => place.isTypeDeclaration &&
            (place.child? .name).any (·.text == "M"))) = true := by decide +kernel
  obtain ⟨inBlock, inGroup⟩ := Bool.and_eq_true_iff.mp used
  obtain ⟨accepted, block, heldBlock, inBlock⟩ := exists_held_of_search inBlock
  obtain ⟨_, group, heldGroup, inGroup⟩ := exists_held_of_search inGroup
  simp only [Bool.and_eq_true, List.any_eq_true, Option.any_eq_true, beq_iff_eq] at inBlock inGroup
  obtain ⟨isBlock, first, below, declares, own, found, spelled⟩ := inBlock
  obtain ⟨⟨isGroup, around, nearest, boundary⟩, second, below', declares', other, found',
    spelled'⟩ := inGroup
  have wf := wellFormed_parse accepted
  obtain ⟨name, itself, _, closed, _⟩ := qualifiedName_in_statementList wf heldBlock
    (Place.isAny_of_is isBlock (by decide)) below declares
  obtain ⟨name', itself', _, _, inside⟩ := qualifiedName_in_statementList wf heldGroup
    (Place.isAny_of_is isGroup (by decide)) below' declares'
  obtain rfl : own = name := Option.some.inj (found.symm.trans itself)
  obtain rfl : other = name' := Option.some.inj (found'.symm.trans itself')
  have alone := (inside isGroup).mpr (by rw [nearest]; exact boundary)
  exact ⟨accepted, block, group, first, second, own, other, isBlock, below, found, spelled,
    closed (Place.isAny_of_is isBlock (by decide)), isGroup, below', found', spelled', alone⟩

/-- A class among the statements of a switch that gives a field its value. -/
def classInFieldValue : String :=
  "package p; class A { int x = switch (1) { case 1: class L { } yield 2; default: yield 3; }; }"

/-- A local class shows the package and the type around it. -/
theorem shows_local_as_member : accepts classInFieldValue = true ∧
    ∃ list place name : Place, (parse classInFieldValue).Holds list ∧
      list.isAny statementLists = true ∧ place ∈ list.children ∧
      place.isTypeDeclaration = true ∧ place.child? .name = some name ∧ name.text = "L" ∧
      (ofRoot (parse classInFieldValue)).qualifiedName place = "p.A.L" ∧
      (ofRoot (parse classInFieldValue)).Shows name (.type "p.A.L") := by
  have used : (accepts classInFieldValue && ((parse classInFieldValue).places []).any fun list =>
      list.isAny statementLists && list.children.any fun place => place.isTypeDeclaration &&
        (ofRoot (parse classInFieldValue)).qualifiedName place == "p.A.L" &&
          (place.child? .name).any fun name => name.is .identifier && name.text == "L") =
        true := by decide +kernel
  obtain ⟨accepted, list, held, used⟩ := exists_held_of_search used
  simp only [Bool.and_eq_true, List.any_eq_true, Option.any_eq_true, beq_iff_eq] at used
  obtain ⟨isList, place, below, ⟨declares, qualified⟩, name, found, isIdentifier, spelled⟩ := used
  have shown := shows_typeName (wellFormed_parse accepted) (held.child below) declares found
    (isName_of_identifier isIdentifier)
  exact ⟨accepted, list, place, name, held, isList, below, declares, found, spelled, qualified,
    qualified ▸ shown⟩

end SourceFile

end CaretName
