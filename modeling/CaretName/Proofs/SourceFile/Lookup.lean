import CaretName.Proofs.Grammar.WellFormed
import CaretName.Proofs.Tree.Preorder
import CaretName.SourceFile.Variable

/-!
# Where lookups of variables end

A variable is looked up in a dozen ways, by what stands around its use. All of them end at an
identifier of the tree with the spelling that was asked for, and in a tree without errors at
one that declares a variable. Each lookup has its lemma, and those of the compound lookups rest
on those of their parts.
-/
namespace CaretName

open Grammar

/-- An identifier of a tree with a spelling, which declares a variable if the tree is free of
errors. -/
structure Place.IsVariable (root : Node) (name : String) (variable_ : Place) : Prop where
  held : root.Holds variable_
  identifier : variable_.is .identifier = true
  spelled : variable_.text = name
  declares : WellFormed root → variable_.declaresVariable = true

namespace Place

variable {root : Node} {name : String} {place declaration found list scope : Place}

/-! ## Names of declarations -/

/-- Constructs that declare the variable that is their name. -/
def introducers : List Construct :=
  [.variableDeclarator, .formalParameter, .catchFormalParameter, .enhancedForStatement,
    .resource, .instanceofExpression, .enumConstant]

/-- A name with a given spelling is an identifier and has it. -/
theorem named?_eq_some (named : place.named? name = some found) :
    found = place ∧ place.is .identifier = true ∧ place.text = name := by
  unfold named? at named
  split at named
  · next spells =>
    simp only [Bool.and_eq_true, beq_iff_eq] at spells
    exact ⟨(Option.some.inj named).symm, spells⟩
  · contradiction

/-- The name of a construct that introduces a variable declares it. -/
theorem declaresVariable_of_child? (introduces : declaration.isAny introducers = true)
    (child : declaration.child? .name = some place) : place.declaresVariable = true := by
  have above := parent?_of_mem_children (mem_children_of_child? child).1
  have kinds : declaration.isAny [.variableDeclarator, .formalParameter, .catchFormalParameter,
    .enhancedForStatement, .resource, .instanceofExpression, .enumConstant] = true := introduces
  simp [declaresVariable, above, kinds, hasRole_of_child? child]

/-- The name of a declaration, if it has the given spelling. -/
theorem isVariable_of_nameIs? (held : root.Holds declaration)
    (introduces : WellFormed root → declaration.isAny introducers = true)
    (named : declaration.nameIs? name = some found) : IsVariable root name found := by
  obtain ⟨child, chosen, spells⟩ := Option.bind_eq_some_iff.mp named
  obtain ⟨rfl, identifier, spelled⟩ := named?_eq_some spells
  exact ⟨held.of_child? chosen, identifier, spelled, fun wf =>
    declaresVariable_of_child? (introduces wf) chosen⟩

/-- The name of one of the variables of a declaration. -/
theorem isVariable_of_declaratorNamed? (held : root.Holds declaration)
    (named : declaration.declaratorNamed? name = some found) : IsVariable root name found := by
  obtain ⟨declarator, listed, named⟩ := List.exists_of_findSome?_eq_some named
  obtain ⟨below, role⟩ := List.mem_filter.mp listed
  exact isVariable_of_nameIs? (held.child below) (fun wf => isAny_of_is
    (wf.is_variableDeclarator held below (by simpa using role)) (by decide)) named

/-! ## Parameters -/

/-- The name of a parameter. -/
theorem isVariable_of_parameterIs? (held : root.Holds place)
    (named : place.parameterIs? name = some found) : IsVariable root name found := by
  unfold parameterIs? at named
  split at named
  · next isParameter =>
    exact isVariable_of_nameIs? held (fun _ => isAny_of_is isParameter (by decide)) named
  · obtain ⟨declarator, spread, named⟩ := Option.bind_eq_some_iff.mp named
    unfold spreadDeclarator? at spread
    have isDeclarator := List.find?_some spread
    exact isVariable_of_nameIs? (held.of_part (List.mem_of_find?_eq_some spread))
      (fun _ => isAny_of_is isDeclarator (by decide)) named

/-- The name of a parameter in a list. -/
theorem isVariable_of_parameterNamed? (held : root.Holds list)
    (named : list.parameterNamed? name = some found) : IsVariable root name found := by
  obtain ⟨parameter, listed, named⟩ := List.exists_of_findSome?_eq_some named
  exact isVariable_of_parameterIs? (held.of_part (List.mem_filter.mp listed).1) named

/-- The name of a parameter of a lambda expression. -/
theorem isVariable_of_lambdaParameterNamed? (held : root.Holds place)
    (isLambda : place.is .lambdaExpression = true)
    (named : place.lambdaParameterNamed? name = some found) : IsVariable root name found := by
  obtain ⟨list, child, named⟩ := Option.bind_eq_some_iff.mp named
  have heldList := held.of_child? child
  have noIntroducer : place.isAny introducers = false :=
    isAny_eq_false (isAny_of_is isLambda (List.mem_singleton_self _)) (by decide)
  split at named
  · -- The only parameter, without parentheses.
    obtain ⟨rfl, identifier, spelled⟩ := named?_eq_some named
    have above := parent?_of_mem_children (mem_children_of_child? child).1
    refine ⟨heldList, identifier, spelled, fun _ => ?_⟩
    unfold introducers at noIntroducer
    simp [declaresVariable, above, noIntroducer, isLambda, hasRole_of_child? child]
  · split at named
    · exact isVariable_of_parameterNamed? heldList named
    · split at named
      · next isInferred =>
        obtain ⟨part, listed, named⟩ := List.exists_of_findSome?_eq_some named
        obtain ⟨rfl, identifier, spelled⟩ := named?_eq_some named
        have above := parent?_of_mem_children (mem_children_of_mem_parts listed)
        refine ⟨heldList.of_part listed, identifier, spelled, fun _ => ?_⟩
        have others := isAny_of_is isInferred (List.mem_singleton_self _)
        have noIntroducer : list.isAny introducers = false := isAny_eq_false others (by decide)
        have noLambda : list.is .lambdaExpression = false := is_eq_false others (by decide)
        unfold introducers at noIntroducer
        simp [declaresVariable, above, noIntroducer, noLambda, isInferred]
      · contradiction

/-! ## Members -/

/-- The members of a body belong to the tree. -/
theorem held_of_mem_members {body member : Place} (held : root.Holds body)
    (inside : member ∈ body.members) : root.Holds member := by
  obtain ⟨part, listed, chosen⟩ := List.mem_flatMap.mp inside
  have heldPart := held.of_part listed
  split at chosen
  · exact heldPart.of_part chosen
  · exact List.mem_singleton.mp chosen ▸ heldPart

/-- The body of a type scope belongs to the tree. -/
theorem held_of_typeBody? {body : Place} (held : root.Holds scope)
    (found : scope.typeBody? = some body) : root.Holds body := by
  unfold typeBody? at found
  split at found
  · exact Option.some.inj found ▸ held
  · exact held.of_child? found

/-- The members of a type scope belong to the tree. -/
theorem held_of_mem_scopeMembers (held : root.Holds scope) {member : Place}
    (inside : member ∈ scope.scopeMembers) : root.Holds member := by
  unfold scopeMembers at inside
  cases found : scope.typeBody? with
  | none => simp [found] at inside
  | some body =>
    simp only [found, Option.map_some, Option.getD_some] at inside
    exact held_of_mem_members (held_of_typeBody? held found) inside

/-- The name of a field, a component or a constant of a type scope. -/
theorem isVariable_of_fieldNamed? (held : root.Holds scope)
    (named : scope.fieldNamed? name = some found) : IsVariable root name found := by
  unfold fieldNamed? at named
  simp only [Option.orElse_eq_orElse, Option.orElse_eq_or, Option.or_eq_some_iff] at named
  rcases named with component | ⟨_, member⟩
  · split at component
    · obtain ⟨list, child, named⟩ := Option.bind_eq_some_iff.mp component
      exact isVariable_of_parameterNamed? (held.of_child? child) named
    · contradiction
  · obtain ⟨member, listed, named⟩ := List.exists_of_findSome?_eq_some member
    have heldMember := held_of_mem_scopeMembers held listed
    split at named
    · exact isVariable_of_declaratorNamed? heldMember named
    · split at named
      · next isConstant =>
        exact isVariable_of_nameIs? heldMember
          (fun _ => isAny_of_is isConstant (by decide)) named
      · contradiction

/-! ## Patterns -/

/-- Among children the first pattern in one of the parts counts. -/
theorem patternNamedAmong?_eq (name : String) (around : Place) (index : Nat)
    (nodes : List Node) : patternNamedAmong? name around index nodes =
      ((around.below index nodes).filter (·.node.isPart)).findSome? (patternNamed? name) := by
  induction nodes generalizing index with
  | nil => rfl
  | cons node rest ih =>
    rw [patternNamedAmong?, ih, below]
    cases isPart : node.isPart with
    | false => simp [isPart]
    | true =>
      rw [List.filter_cons_of_pos (by simpa using isPart), List.findSome?_cons]
      rw [if_pos rfl, ← patternNamed?.eq_1 name ⟨node, ⟨around.node, index⟩ :: around.above⟩]
      generalize (patternNamed? name ⟨node, ⟨around.node, index⟩ :: around.above⟩) = here
      cases here <;> rfl

/-- A pattern introduces a variable at a place itself or in the first of its parts that has one.
Bodies of lambda expressions, classes and blocks are not looked into. -/
theorem patternNamed?_eq (name : String) (place : Place) : place.patternNamed? name =
    if place.isAny [.lambdaExpression, .classBody, .block] then none
    else (if place.is .instanceofExpression then place.nameIs? name
      else if place.is .typePattern then place.patternName?.bind (named? name)
      else none).or (place.parts.findSome? (patternNamed? name)) := by
  obtain ⟨node, above⟩ := place
  cases node with
  | leaf kind role span gap text =>
    simp [patternNamed?, Node.patternNamed?, nameIs?, patternName?, child?, parts, children, below,
      Node.children]
  | branch kind role span children =>
    rw [patternNamed?, Node.patternNamed?, patternNamedAmong?_eq, Option.orElse_eq_orElse,
      Option.orElse_eq_or]
    rfl

/-- A variable of a pattern inside a place is introduced there or inside one of its parts. -/
theorem patternNamed?_cases (named : place.patternNamed? name = some found) :
    (place.is .instanceofExpression = true ∧ place.nameIs? name = some found) ∨
    (place.is .typePattern = true ∧ (place.patternName?.bind (named? name)) = some found) ∨
    ∃ part ∈ place.parts, part.patternNamed? name = some found := by
  rw [patternNamed?_eq] at named
  split at named
  · contradiction
  · rcases Option.or_eq_some_iff.mp named with here | ⟨_, inside⟩
    · split at here
      · exact .inl ⟨‹_›, here⟩
      · split at here
        · exact .inr (.inl ⟨‹_›, here⟩)
        · contradiction
    · exact .inr (.inr (List.exists_of_findSome?_eq_some inside))

/-- The name of the variable of a type pattern is a child of the pattern. -/
theorem mem_children_of_patternName? (chosen : place.patternName? = some found) :
    found ∈ place.children := by
  unfold patternName? at chosen
  obtain ⟨candidate, _⟩ := Option.filter_eq_some_iff.mp chosen
  simp only [Option.orElse_eq_orElse, Option.orElse_eq_or, Option.or_eq_some_iff] at candidate
  rcases candidate with child | ⟨_, last⟩
  · exact (mem_children_of_child? child).1
  · exact mem_children_of_mem_parts (List.mem_of_getLast? last)

/-- The name of a variable that a type pattern introduces. -/
theorem isVariable_of_patternName? (held : root.Holds place)
    (isPattern : place.is .typePattern = true)
    (named : (place.patternName?.bind (named? name)) = some found) :
    IsVariable root name found := by
  obtain ⟨pattern, chosen, spells⟩ := Option.bind_eq_some_iff.mp named
  obtain ⟨rfl, identifier, spelled⟩ := named?_eq_some spells
  have below := mem_children_of_patternName? chosen
  refine ⟨held.child below, identifier, spelled, fun _ => ?_⟩
  have others := isAny_of_is isPattern (List.mem_singleton_self _)
  have noIntroducer : place.isAny introducers = false := isAny_eq_false others (by decide)
  have noLambda : place.is .lambdaExpression = false := is_eq_false others (by decide)
  have noParameters : place.is .inferredParameters = false := is_eq_false others (by decide)
  unfold introducers at noIntroducer
  simp [declaresVariable, parent?_of_mem_children below, noIntroducer, noLambda, noParameters,
    isPattern, chosen, same]

/-- The name of a variable of a pattern anywhere inside a place. Induction on the tree below
the place. -/
theorem isVariable_of_patternNamed? (held : root.Holds place)
    (named : place.patternNamed? name = some found) : IsVariable root name found := by
  induction place using Place.child_induction with
  | step place ih =>
    rcases patternNamed?_cases named with ⟨isTest, named⟩ | ⟨isPattern, named⟩ |
      ⟨part, listed, named⟩
    · exact isVariable_of_nameIs? held (fun _ => isAny_of_is isTest (by decide)) named
    · exact isVariable_of_patternName? held isPattern named
    · exact ih part (mem_children_of_mem_parts listed) (held.of_part listed) named

/-! ## Going outward -/

variable {inner around : Place}

/-- The name of a variable that an earlier part introduces. -/
theorem isVariable_of_introducedBefore? (held : root.Holds around)
    (named : introducedBefore? name around inner = some found) : IsVariable root name found := by
  obtain ⟨part, listed, named⟩ := List.exists_of_findSome?_eq_some named
  have heldPart := held.of_part (List.takeWhile_subset _ listed)
  split at named
  · exact isVariable_of_declaratorNamed? heldPart named
  · split at named
    · split at named
      · obtain ⟨condition, child, named⟩ := Option.bind_eq_some_iff.mp named
        exact isVariable_of_patternNamed? (heldPart.of_child? child) named
      · contradiction
    · exact isVariable_of_patternNamed? heldPart named

/-- The name of a local variable that a statement list declares. -/
theorem isVariable_of_localBefore? (held : root.Holds around)
    (named : localBefore? name around inner = some found) : IsVariable root name found := by
  unfold localBefore? at named
  simp only [Option.orElse_eq_orElse, Option.orElse_eq_or, Option.or_eq_some_iff] at named
  rcases named with declared | ⟨_, introduced⟩
  · obtain ⟨statement, listed, named⟩ := List.exists_of_findSome?_eq_some declared
    have before := (List.mem_filter.mp listed).1
    exact isVariable_of_declaratorNamed? (held.of_part (List.takeWhile_subset _ before)) named
  · exact isVariable_of_introducedBefore? held introduced

/-- The name of a variable that a construct declares for one of its children. -/
theorem isVariable_of_declaredFor? (held : root.Holds around)
    (named : declaredFor? name around inner = some found) : IsVariable root name found := by
  unfold declaredFor? at named
  split at named
  · exact isVariable_of_localBefore? held named
  split at named
  · obtain ⟨list, child, named⟩ := Option.bind_eq_some_iff.mp named
    exact isVariable_of_parameterNamed? (held.of_child? child) named
  split at named
  · exact isVariable_of_lambdaParameterNamed? held ‹_› named
  split at named
  · obtain ⟨parameter, chosen, named⟩ := Option.bind_eq_some_iff.mp named
    have isParameter := List.find?_some chosen
    exact isVariable_of_nameIs? (held.of_part (List.mem_of_find?_eq_some chosen))
      (fun _ => isAny_of_is isParameter (by decide)) named
  split at named
  · next isLoop =>
    exact isVariable_of_nameIs? held (fun _ => isAny_of_is isLoop (by decide)) named
  split at named
  · obtain ⟨resources, child, named⟩ := Option.bind_eq_some_iff.mp named
    obtain ⟨part, listed, named⟩ := List.exists_of_findSome?_eq_some named
    exact isVariable_of_nameIs? ((held.of_child? child).of_part listed)
      (fun wf => isAny_of_is (wf.is_resource held child listed) (by decide)) named
  split at named
  · exact isVariable_of_fieldNamed? held named
  · contradiction

/-- The name of a variable that a name means at a place, going outward. -/
theorem isVariable_of_variableNamed? {site : Place} (held : root.Holds site)
    (named : site.variableNamed? name = some found) : IsVariable root name found := by
  obtain ⟨inner, outward, named⟩ := List.exists_of_findSome?_eq_some named
  obtain ⟨around, above, named⟩ := Option.bind_eq_some_iff.mp named
  have heldAround := ((held.of_outward outward).parent above).1
  simp only [Option.orElse_eq_orElse, Option.orElse_eq_or, Option.or_eq_some_iff] at named
  rcases named with declared | ⟨_, introduced⟩
  · exact isVariable_of_declaredFor? heldAround declared
  · split at introduced
    · exact isVariable_of_introducedBefore? heldAround introduced
    · contradiction

end Place

namespace SourceFile

variable {root : Node} {name : String} {found : Place}

/-- The declarations of types are those that the traversal of the tree lists. -/
theorem allTypes_eq (file : SourceFile) :
    file.allTypes = (file.root.places []).filter Place.isTypeDeclaration :=
  Place.search_root file.root Place.isTypeDeclaration

/-- All declarations of types in a file belong to its tree. -/
theorem held_of_mem_allTypes {file : SourceFile} (listed : found ∈ file.allTypes) :
    file.root.Holds found ∧ found.isTypeDeclaration = true := by
  rw [allTypes_eq] at listed
  obtain ⟨listed, declares⟩ := List.mem_filter.mp listed
  exact ⟨Node.Holds.root.of_mem_places listed, declares⟩

/-- The name of a constant of an enum of the file. -/
theorem isVariable_of_enumConstant? {file : SourceFile}
    (named : file.enumConstant? name = some found) : Place.IsVariable file.root name found := by
  obtain ⟨member, listed, named⟩ := List.exists_of_findSome?_eq_some named
  obtain ⟨scope, isEnum, inside⟩ := List.mem_flatMap.mp listed
  have held := (held_of_mem_allTypes (List.mem_filter.mp isEnum).1).1
  split at named
  · next isConstant =>
    exact Place.isVariable_of_nameIs? (Place.held_of_mem_scopeMembers held inside)
      (fun _ => Place.isAny_of_is isConstant (by decide)) named
  · contradiction

end SourceFile

end CaretName
