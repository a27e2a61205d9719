import CaretName.Proofs.SourceFile.Fidelity
import CaretName.Proofs.SourceFile.Identity
import CaretName.Proofs.SourceFile.Scope

/-!
# Names change their meaning inside only

Each step outward answers from what is declared in the construct that it leads to. The searches
for variables and for types of a name thus take one of two courses on the way out of a place:
what they find lies inside the place, or they find what they would have found from the place
itself.
-/
namespace CaretName

open Grammar

namespace Place

variable {root : Node} {site inner around part found declaration list scope lambda : Place}
variable {name : String}

/-! ## On the way out -/

/-- A search on the way out finds something inside a place, or what it finds on the way out of the
place. -/
theorem findSome?_outward {α : Type} (search : Place → Option α) (inside : around ∈ site.outward) :
    (∃ inner ∈ site.outward, around ∈ inner.ancestors ∧ ∃ result, search inner = some result ∧
      site.outward.findSome? search = some result) ∨
      site.outward.findSome? search = around.outward.findSome? search := by
  obtain ⟨within, chain, between⟩ := outward_eq_append inside
  have parted : site.outward.findSome? search =
      (within.findSome? search).or (around.outward.findSome? search) := by
    rw [chain, List.findSome?_append]
  cases here : within.findSome? search with
  | none => exact .inr (by rw [parted, here, Option.none_or])
  | some result =>
    obtain ⟨inner, listed, given⟩ := List.exists_of_findSome?_eq_some here
    obtain ⟨inChain, outer⟩ := between inner listed
    exact .inl ⟨inner, inChain, outer, result, given, by rw [parted, here, Option.some_or]⟩

/-- A check on the way out holds inside a place, or comes out as on the way out of the place. -/
theorem any_outward (checks : Place → Bool) (inside : around ∈ site.outward) :
    (∃ inner ∈ site.outward, around ∈ inner.ancestors ∧ checks inner = true) ∨
      site.outward.any checks = around.outward.any checks := by
  obtain ⟨within, chain, between⟩ := outward_eq_append inside
  cases here : within.any checks with
  | false => exact .inr (by rw [chain, List.any_append, here, Bool.false_or])
  | true =>
    obtain ⟨inner, listed, holds⟩ := List.any_eq_true.mp here
    obtain ⟨inChain, outer⟩ := between inner listed
    exact .inl ⟨inner, inChain, outer, holds⟩

/-! ## What lies inside -/

/-- What lies inside a place lies inside all that is around the place. -/
theorem mem_ancestors_trans (outer : around ∈ inner.outward) (inside : inner ∈ found.ancestors) :
    around ∈ found.ancestors := by
  rcases mem_outward.mp outer with rfl | further
  · exact inside
  · exact mem_ancestors_of_outward further (mem_outward.mpr (.inr inside))

/-- A child lies inside. -/
theorem mem_ancestors_of_mem_children (below : part ∈ around.children) : around ∈ part.ancestors :=
  mem_ancestors_of_parent? (parent?_of_mem_children below)

/-- What lies inside a child lies inside the place. -/
theorem mem_ancestors_of_child (below : part ∈ around.children) (inside : part ∈ found.ancestors) :
    around ∈ found.ancestors :=
  mem_ancestors_trans (mem_outward_of_mem_children below) inside

/-- The name of a declaration lies inside it. -/
theorem mem_ancestors_of_nameIs? (named : declaration.nameIs? name = some found) :
    declaration ∈ found.ancestors :=
  mem_ancestors_of_parent? (parent?_of_nameIs? named)

/-- The names of the variables of a declaration lie inside it. -/
theorem mem_ancestors_of_declaratorNamed? (named : declaration.declaratorNamed? name = some found) :
    declaration ∈ found.ancestors := by
  obtain ⟨declarator, listed, named⟩ := List.exists_of_findSome?_eq_some named
  exact mem_ancestors_of_child (List.mem_filter.mp listed).1 (mem_ancestors_of_nameIs? named)

/-- The names of the variables of patterns in a place lie inside the place. -/
theorem mem_ancestors_of_patternNamed? (named : part.patternNamed? name = some found) :
    part ∈ found.ancestors := by
  obtain ⟨parent, above, _, inside⟩ := parent?_of_patternNamed? named
  exact mem_ancestors_trans inside (mem_ancestors_of_parent? above)

/-- The names of the parameters in a list lie inside the list. -/
theorem mem_ancestors_of_parameterNamed? (named : list.parameterNamed? name = some found) :
    list ∈ found.ancestors := by
  obtain ⟨parameter, listed, named⟩ := List.exists_of_findSome?_eq_some named
  have below := mem_children_of_mem_parts (List.mem_filter.mp listed).1
  refine mem_ancestors_of_child below ?_
  unfold parameterIs? at named
  split at named
  · exact mem_ancestors_of_nameIs? named
  · obtain ⟨declarator, spread, named⟩ := Option.bind_eq_some_iff.mp named
    have within := mem_children_of_mem_parts (List.mem_of_find?_eq_some spread)
    exact mem_ancestors_of_child within (mem_ancestors_of_nameIs? named)

/-- The names of the parameters of a lambda expression lie inside it. -/
theorem mem_ancestors_of_lambdaParameterNamed?
    (named : lambda.lambdaParameterNamed? name = some found) : lambda ∈ found.ancestors := by
  obtain ⟨list, child, named⟩ := Option.bind_eq_some_iff.mp named
  have below := (mem_children_of_child? child).1
  split at named
  · obtain ⟨rfl, _, _⟩ := named?_eq_some named
    exact mem_ancestors_of_mem_children below
  split at named
  · exact mem_ancestors_of_child below (mem_ancestors_of_parameterNamed? named)
  split at named
  · obtain ⟨part, listed, named⟩ := List.exists_of_findSome?_eq_some named
    obtain ⟨rfl, _, _⟩ := named?_eq_some named
    have within := mem_ancestors_of_mem_children (mem_children_of_mem_parts listed)
    exact mem_ancestors_of_child below within
  · contradiction

/-- The members of a body lie inside it. -/
theorem mem_ancestors_of_mem_members {body member : Place} (listed : member ∈ body.members) :
    body ∈ member.ancestors := by
  obtain ⟨part, among, chosen⟩ := List.mem_flatMap.mp listed
  have below := mem_children_of_mem_parts among
  split at chosen
  · have within := mem_ancestors_of_mem_children (mem_children_of_mem_parts chosen)
    exact mem_ancestors_of_child below within
  · obtain rfl := List.mem_singleton.mp chosen
    exact mem_ancestors_of_mem_children below

/-- The members of a type scope lie inside it. -/
theorem mem_ancestors_of_mem_scopeMembers {member : Place} (listed : member ∈ scope.scopeMembers) :
    scope ∈ member.ancestors := by
  unfold scopeMembers at listed
  cases found : scope.typeBody? with
  | none => simp [found] at listed
  | some body =>
    simp only [found, Option.map_some, Option.getD_some] at listed
    have inside := mem_ancestors_of_mem_members listed
    unfold typeBody? at found
    split at found
    · exact Option.some.inj found ▸ inside
    · exact mem_ancestors_of_child (mem_children_of_child? found).1 inside

/-- The names of the fields, components and constants of a type scope lie inside it. -/
theorem mem_ancestors_of_fieldNamed? (named : scope.fieldNamed? name = some found) :
    scope ∈ found.ancestors := by
  unfold fieldNamed? at named
  rw [Option.orElse_eq_orElse, Option.orElse_eq_or, Option.or_eq_some_iff] at named
  rcases named with component | ⟨_, member⟩
  · split at component
    · obtain ⟨list, child, named⟩ := Option.bind_eq_some_iff.mp component
      exact mem_ancestors_of_child (mem_children_of_child? child).1
        (mem_ancestors_of_parameterNamed? named)
    · contradiction
  · obtain ⟨member, listed, named⟩ := List.exists_of_findSome?_eq_some member
    have outer : scope ∈ member.outward :=
      mem_outward.mpr (.inr (mem_ancestors_of_mem_scopeMembers listed))
    split at named
    · exact mem_ancestors_trans outer (mem_ancestors_of_declaratorNamed? named)
    split at named
    · exact mem_ancestors_trans outer (mem_ancestors_of_nameIs? named)
    · contradiction

/-! ## Variables -/

/-- Whatever a construct shows lies inside it. -/
theorem Binds.mem_ancestors {form : BindingForm} (binds : Binds name inner around form found) :
    around ∈ found.ancestors := by
  cases binds with
  | earlier isList before isLocal named | initial isLoop before isLocal named =>
    exact mem_ancestors_of_child (mem_partsBefore before).1
      (mem_ancestors_of_declaratorNamed? named)
  | condition isList before isIf child named =>
    have inside := mem_ancestors_of_child (mem_children_of_child? child).1
      (mem_ancestors_of_patternNamed? named)
    exact mem_ancestors_of_child (mem_partsBefore before).1 inside
  | pattern isScope before named =>
    exact mem_ancestors_of_child (mem_partsBefore before).1 (mem_ancestors_of_patternNamed? named)
  | parameter isCallable child named =>
    exact mem_ancestors_of_child (mem_children_of_child? child).1
      (mem_ancestors_of_parameterNamed? named)
  | lambda isLambda named => exact mem_ancestors_of_lambdaParameterNamed? named
  | handler isHandler chosen named =>
    have below := mem_children_of_mem_parts (List.mem_of_find?_eq_some chosen)
    exact mem_ancestors_of_child below (mem_ancestors_of_nameIs? named)
  | loop isLoop named => exact mem_ancestors_of_nameIs? named
  | resource isTry child named =>
    obtain ⟨resource, listed, named⟩ := List.exists_of_findSome?_eq_some named
    have inside := mem_ancestors_of_child (mem_children_of_mem_parts listed)
      (mem_ancestors_of_nameIs? named)
    exact mem_ancestors_of_child (mem_children_of_child? child).1 inside
  | member isScope named => exact mem_ancestors_of_fieldNamed? named

/-- A name of a tree that declares a variable inside a place. -/
structure VariableInside (root : Node) (name : String) (around own : Place) : Prop where
  held : root.Holds own
  inside : around ∈ own.outward
  declares : own.declaresVariable = true
  spelled : own.text = name

/-- A name means a variable that is declared inside, or what it means at the place around. -/
theorem variableNamed?_inside_or_eq (wf : WellFormed root) (held : root.Holds site)
    (inside : around ∈ site.outward) (name : String) :
    (∃ own, VariableInside root name around own ∧ site.variableNamed? name = some own) ∨
      site.variableNamed? name = around.variableNamed? name := by
  rcases findSome?_outward (variableAround? name) inside with
    ⟨inner, inChain, outer, own, shown, named⟩ | same
  · obtain ⟨construct, above, form, binds⟩ := binds_of_variableAround? shown
    -- The construct that shows the variable is the place around or lies inside it.
    have outer : around ∈ construct.outward := ancestors_of_parent? above ▸ outer
    have variable_ := isVariable_of_variableNamed? held named
    refine .inl ⟨own, ⟨variable_.held, ?_, variable_.declares wf, variable_.spelled⟩, named⟩
    exact mem_outward.mpr (.inr (mem_ancestors_trans outer binds.mem_ancestors))
  · exact .inr same

/-! ## Types -/

/-- The name that a type parameter introduces. -/
def typeParameterName? (parameter : Place) : Option String :=
  if parameter.is .typeParameter then
    (parameter.parts.find? (·.isAny [.typeIdentifier, .identifier])).map text
  else none

/-- The type parameters of a declaration lie inside it. -/
theorem exists_of_mem_typeParameterNames (held : root.Holds declaration)
    (listed : name ∈ declaration.typeParameterNames) :
    ∃ parameter, root.Holds parameter ∧ declaration ∈ parameter.ancestors ∧
      parameter.typeParameterName? = some name := by
  obtain ⟨parameter, among, named⟩ := List.mem_filterMap.mp listed
  cases child : declaration.child? .typeParameters with
  | none => simp [child] at among
  | some list =>
    simp only [child, Option.map_some, Option.getD_some] at among
    have below := (mem_children_of_child? child).1
    have within := mem_ancestors_of_mem_children (mem_children_of_mem_parts among)
    exact ⟨parameter, (held.of_child? child).of_part among, mem_ancestors_of_child below within,
      named⟩

/-- A declaration of a type or a type parameter of a tree inside a place. -/
structure TypeInside (root : Node) (name : String) (around declaration : Place) : Prop where
  held : root.Holds declaration
  inside : around ∈ declaration.outward
  introduces : declaration.declaresType name = true ∨ declaration.typeParameterName? = some name

/-- A name means a type parameter that is declared inside, or the place around sees one if the
place itself does. -/
theorem seesTypeVariable_inside_or_eq (held : root.Holds site) (inside : around ∈ site.outward)
    (name : String) :
    (site.seesTypeVariable name = true ∧ ∃ parameter, TypeInside root name around parameter ∧
      parameter.typeParameterName? = some name) ∨
      site.seesTypeVariable name = around.seesTypeVariable name := by
  rcases any_outward (fun place => place.isAny genericDeclarations &&
      place.typeParameterNames.contains name) inside with ⟨inner, inChain, outer, sees⟩ | same
  · have named : name ∈ inner.typeParameterNames :=
      List.contains_iff_mem.mp (Bool.and_eq_true_iff.mp sees).2
    obtain ⟨parameter, held', below, introduces⟩ :=
      exists_of_mem_typeParameterNames (held.of_outward inChain) named
    have outer' : around ∈ parameter.ancestors :=
      mem_ancestors_trans (mem_outward.mpr (.inr outer)) below
    refine .inl ⟨List.any_eq_true.mpr ⟨inner, inChain, sees⟩, parameter, ?_, introduces⟩
    exact ⟨held', mem_outward.mpr (.inr outer'), .inr introduces⟩
  · exact .inr same

/-- A name means a declaration of a type inside, or the one that is visible from the place
around. -/
theorem visibleType?_inside_or_eq (held : root.Holds site) (inside : around ∈ site.outward)
    (name : String) :
    (∃ type, TypeInside root name around type ∧ site.visibleType? name = some type) ∨
      site.visibleType? name = around.visibleType? name := by
  rcases findSome?_outward (typeNamedHere? name) inside with
    ⟨inner, inChain, outer, type, given, visible⟩ | same
  · have lies : inner ∈ type.outward := by
      unfold typeNamedHere? at given
      split at given
      · exact Option.some.inj given ▸ List.mem_cons_self
      split at given
      · have member := List.mem_of_find?_eq_some given
        exact mem_outward.mpr (.inr (mem_ancestors_of_mem_members member))
      · contradiction
    refine .inl ⟨type, ⟨(SourceFile.held_of_visibleType? held visible).1, ?_, ?_⟩, visible⟩
    · exact mem_outward_trans (mem_outward.mpr (.inr outer)) lies
    · exact .inl (SourceFile.declaresType_of_visibleType? visible)
  · exact .inr same

end Place

namespace SourceFile

variable {file : SourceFile} {site around declaration : Place} {name : String}

/-- What a declaration of a type or a type parameter makes its name mean. -/
def introduced (file : SourceFile) (declaration : Place) : TypeMeaning :=
  if declaration.is .typeParameter then .typeVariable
  else .type (file.qualifiedName declaration)

/-- A type parameter makes its name a type variable. -/
theorem introduced_of_typeParameterName? (named : declaration.typeParameterName? = some name) :
    file.introduced declaration = .typeVariable := by
  unfold Place.typeParameterName? at named
  split at named
  · next isParameter => rw [introduced, if_pos isParameter]
  · contradiction

/-- A declared type gives its qualified name to its simple name. -/
theorem introduced_of_declaresType (declares : declaration.declaresType name = true) :
    file.introduced declaration = .type (file.qualifiedName declaration) := by
  have isType : declaration.isTypeDeclaration = true := (Bool.and_eq_true_iff.mp declares).1
  have other : declaration.is .typeParameter = false := Place.is_eq_false isType (by decide)
  rw [introduced, other, if_neg Bool.false_ne_true]

/-- A name means a type or a type parameter that is declared inside, or what it means at the
place around. -/
theorem typeMeaning_inside_or_eq (held : file.root.Holds site) (inside : around ∈ site.outward)
    (name : String) :
    (∃ declaration, Place.TypeInside file.root name around declaration ∧
      file.typeMeaning name site = file.introduced declaration) ∨
      file.typeMeaning name site = file.typeMeaning name around := by
  rcases Place.seesTypeVariable_inside_or_eq held inside name with
    ⟨sees, parameter, declared, named⟩ | parameters
  · refine .inl ⟨parameter, declared, ?_⟩
    rw [introduced_of_typeParameterName? named, typeMeaning, lookupType?, if_pos sees,
      Option.getD_some]
  rcases Place.visibleType?_inside_or_eq held inside name with
    ⟨type, declared, visible⟩ | declarations
  · cases sees : site.seesTypeVariable name with
    | true =>
      -- A type parameter from further out hides the declaration.
      have sees' : around.seesTypeVariable name = true := parameters ▸ sees
      exact .inr (by simp [typeMeaning, lookupType?, sees, sees'])
    | false =>
      have declares := declaresType_of_visibleType? visible
      refine .inl ⟨type, declared, ?_⟩
      simp [introduced_of_declaresType declares, typeMeaning, lookupType?, sees, visible]
  · exact .inr (by simp only [typeMeaning, lookupType?, parameters, declarations])

/-- Where nothing inside a place declares a name, the name means the same in all of the place, as
a variable and as a type. Where it does mean something else, this is what a declaration inside
the place makes it mean. -/
theorem meaning_changes_inside (wf : WellFormed file.root) (held : file.root.Holds site)
    (inside : around ∈ site.outward) (name : String) :
    ((∀ own, ¬ Place.VariableInside file.root name around own) →
      site.variableNamed? name = around.variableNamed? name) ∧
    ((∀ declaration, ¬ Place.TypeInside file.root name around declaration) →
      file.typeMeaning name site = file.typeMeaning name around) ∧
    (site.variableNamed? name ≠ around.variableNamed? name →
      ∃ own, Place.VariableInside file.root name around own ∧
        site.variableNamed? name = some own) ∧
    (file.typeMeaning name site ≠ file.typeMeaning name around →
      ∃ declaration, Place.TypeInside file.root name around declaration ∧
        file.typeMeaning name site = file.introduced declaration) := by
  have bindings := Place.variableNamed?_inside_or_eq wf held inside name
  have types := typeMeaning_inside_or_eq held inside name
  refine ⟨fun undeclared => ?_, fun undeclared => ?_, bindings.resolve_right,
    types.resolve_right⟩
  · exact bindings.resolve_left fun ⟨own, declared, _⟩ => undeclared own declared
  · exact types.resolve_left fun ⟨declaration, declared, _⟩ => undeclared declaration declared

/-- A method that declares a variable and a type parameter called like a field and a class. -/
def redeclaring : String :=
  "class T { } class A { T x; <T> void f() { int x = 1; x++; } }"

/-- In the method the names mean what is declared inside the class. -/
theorem meaning_changes_in_method : accepts redeclaring = true ∧
    ∃ site around own declaration : Place, (parse redeclaring).Holds site ∧
      around ∈ site.outward ∧ around.is .classBody = true ∧
      around.variableNamed? "x" ≠ some own ∧
      Place.VariableInside (parse redeclaring) "x" around own ∧
      site.variableNamed? "x" = some own ∧
      (ofRoot (parse redeclaring)).typeMeaning "T" around = .type "T" ∧
      Place.TypeInside (parse redeclaring) "T" around declaration ∧
      (ofRoot (parse redeclaring)).typeMeaning "T" site = .typeVariable := by
  have used : (accepts redeclaring && ((parse redeclaring).places []).any fun site =>
      site.ancestors.any fun around => around.is .classBody &&
        ((site.variableNamed? "x").any fun own =>
          (around.variableNamed? "x").all fun field => !field.same own) &&
        (ofRoot (parse redeclaring)).typeMeaning "T" around == .type "T" &&
        (ofRoot (parse redeclaring)).typeMeaning "T" site == .typeVariable) = true := by
    decide +kernel
  obtain ⟨accepted, site, held, used⟩ := exists_held_of_search used
  obtain ⟨around, outer, used⟩ := List.any_eq_true.mp used
  simp only [Bool.and_eq_true, Option.any_eq_true, Option.all_eq_true, Bool.not_eq_true',
    beq_iff_eq] at used
  obtain ⟨⟨⟨isBody, own, named, apart⟩, outside⟩, within⟩ := used
  have inside := Place.mem_outward.mpr (.inr outer)
  have other : around.variableNamed? "x" ≠ some own := by
    intro same
    have apart := apart own same
    simp [Place.same] at apart
  have wf : WellFormed (ofRoot (parse redeclaring)).root := wellFormed_parse accepted
  have held' : (ofRoot (parse redeclaring)).root.Holds site := held
  have bindings := (meaning_changes_inside wf held' inside "x").2.2.1
  have types := (meaning_changes_inside wf held' inside "T").2.2.2
  obtain ⟨own', declared, named'⟩ := bindings (by rw [named]; exact other.symm)
  obtain rfl : own = own' := Option.some.inj (named.symm.trans named')
  obtain ⟨declaration, declared', _⟩ := types (by simp [outside, within])
  exact ⟨accepted, site, around, own, declaration, held, inside, isBody, other, declared, named,
    outside, declared', within⟩

end SourceFile

end CaretName
