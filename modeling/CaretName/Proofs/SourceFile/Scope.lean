import CaretName.Proofs.SourceFile.Lookup
import CaretName.Proofs.Tree.Outward

/-!
# How far a variable reaches

The search for a variable goes outward and takes the first declaration that a step shows. Which
declarations one step shows is told by `Place.Binds`, form by form, and every question about the
reach of a variable is a case analysis on it: the kind of construct that the name stands in says
which forms can have found it, and the depth of that construct says at which step.
-/
namespace CaretName

open Grammar

/-- The forms in which one step outward shows a variable. -/
inductive BindingForm where
  /-- A local variable of an earlier statement of a list. -/
  | earlier
  /-- The pattern of an earlier if statement of a list. -/
  | condition
  /-- A variable in the head of a loop. -/
  | initial
  /-- The pattern of an earlier part of a construct. -/
  | pattern
  /-- A parameter of a method or a constructor. -/
  | parameter
  /-- A parameter of a lambda expression. -/
  | lambda
  /-- The parameter of a handler. -/
  | handler
  /-- The variable of a loop over the elements of something. -/
  | loop
  /-- A resource of a try statement. -/
  | resource
  /-- A field, a record component or an enum constant. -/
  | member
  deriving DecidableEq, Repr

namespace BindingForm

/-- The constructs that the name of a variable stands in. -/
def parents : BindingForm → List Construct
  | earlier | initial => [.variableDeclarator]
  | condition | pattern => [.instanceofExpression, .typePattern]
  | parameter => [.formalParameter, .variableDeclarator]
  | lambda => [.lambdaExpression, .inferredParameters, .formalParameter, .variableDeclarator]
  | handler => [.catchFormalParameter]
  | loop => [.enhancedForStatement]
  | resource => [.resource]
  | member => [.variableDeclarator, .formalParameter, .enumConstant]

/-- The constructs that a declarator of a variable stands in. -/
def holders : BindingForm → List Construct
  | earlier | initial => [.localVariableDeclaration]
  | parameter | lambda => [.spreadParameter]
  | member => [.spreadParameter, .fieldDeclaration, .constantDeclaration]
  | _ => []

end BindingForm

namespace Place

/-- What the step from a place to the place around it shows for a name. -/
inductive Binds (name : String) (inner around : Place) : BindingForm → Place → Prop
  | earlier {part found : Place} (isList : around.isAny statementLists = true)
    (before : part ∈ around.partsBefore inner)
    (isLocal : part.is .localVariableDeclaration = true)
    (named : part.declaratorNamed? name = some found) : Binds name inner around .earlier found
  | condition {part condition found : Place} (isList : around.isAny statementLists = true)
    (before : part ∈ around.partsBefore inner) (isIf : part.is .ifStatement = true)
    (child : part.child? .condition = some condition)
    (named : condition.patternNamed? name = some found) : Binds name inner around .condition found
  | initial {part found : Place} (isLoop : around.is .forStatement = true)
    (before : part ∈ around.partsBefore inner)
    (isLocal : part.is .localVariableDeclaration = true)
    (named : part.declaratorNamed? name = some found) : Binds name inner around .initial found
  | pattern {part found : Place} (isScope : around.isAny patternScopes = true)
    (before : part ∈ around.partsBefore inner)
    (named : part.patternNamed? name = some found) : Binds name inner around .pattern found
  | parameter {list found : Place}
    (isCallable : around.isAny [.methodDeclaration, .constructorDeclaration] = true)
    (child : around.child? .parameters = some list)
    (named : list.parameterNamed? name = some found) : Binds name inner around .parameter found
  | lambda {found : Place} (isLambda : around.is .lambdaExpression = true)
    (named : around.lambdaParameterNamed? name = some found) : Binds name inner around .lambda found
  | handler {parameter found : Place} (isHandler : around.is .catchClause = true)
    (chosen : around.parts.find? (·.is .catchFormalParameter) = some parameter)
    (named : parameter.nameIs? name = some found) : Binds name inner around .handler found
  | loop {found : Place} (isLoop : around.is .enhancedForStatement = true)
    (named : around.nameIs? name = some found) : Binds name inner around .loop found
  | resource {list found : Place} (isTry : around.is .tryWithResourcesStatement = true)
    (child : around.child? .resources = some list)
    (named : list.parts.findSome? (nameIs? name) = some found) :
    Binds name inner around .resource found
  | member {found : Place} (isScope : around.isTypeScope = true)
    (named : around.fieldNamed? name = some found) : Binds name inner around .member found

variable {root : Node} {site inner around parent part found own place list : Place} {name : String}

/-! ## One step -/

/-- Earlier parts of a statement list show patterns of conditions. -/
theorem binds_of_introducedBefore?_list (isList : around.isAny statementLists = true)
    (named : introducedBefore? name around inner = some found) :
    Binds name inner around .condition found := by
  obtain ⟨part, before, named⟩ := List.exists_of_findSome?_eq_some named
  have noLoop : around.is .forStatement = false := is_eq_false isList (by decide)
  rw [noLoop, Bool.false_and, if_neg Bool.false_ne_true, if_pos isList] at named
  split at named
  · next isIf =>
    obtain ⟨condition, child, named⟩ := Option.bind_eq_some_iff.mp named
    exact .condition isList before isIf child named
  · contradiction

/-- Earlier parts of a construct show its patterns and the variables in the head of a loop. -/
theorem binds_of_introducedBefore?_scope (isScope : around.isAny patternScopes = true)
    (named : introducedBefore? name around inner = some found) :
    ∃ form, Binds name inner around form found := by
  obtain ⟨part, before, named⟩ := List.exists_of_findSome?_eq_some named
  have noList : around.isAny statementLists = false := isAny_eq_false isScope (by decide)
  split at named
  · next initial =>
    obtain ⟨isLoop, isLocal⟩ := Bool.and_eq_true_iff.mp initial
    exact ⟨_, .initial isLoop before isLocal named⟩
  · rw [if_neg (by simp [noList])] at named
    exact ⟨_, .pattern isScope before named⟩

/-- A construct shows the variables that it declares in one of the forms. -/
theorem binds_of_declaredFor? (named : declaredFor? name around inner = some found) :
    ∃ form, Binds name inner around form found := by
  unfold declaredFor? at named
  split at named
  · next isList =>
    unfold localBefore? at named
    rw [Option.orElse_eq_orElse, Option.orElse_eq_or, Option.or_eq_some_iff] at named
    rcases named with declared | ⟨_, introduced⟩
    · obtain ⟨part, listed, named⟩ := List.exists_of_findSome?_eq_some declared
      obtain ⟨before, isLocal⟩ := List.mem_filter.mp listed
      exact ⟨_, .earlier isList before isLocal named⟩
    · exact ⟨_, binds_of_introducedBefore?_list isList introduced⟩
  split at named
  · next isCallable =>
    obtain ⟨list, child, named⟩ := Option.bind_eq_some_iff.mp named
    exact ⟨_, .parameter isCallable child named⟩
  split at named
  · next isLambda => exact ⟨_, .lambda isLambda named⟩
  split at named
  · next isHandler =>
    obtain ⟨parameter, chosen, named⟩ := Option.bind_eq_some_iff.mp named
    exact ⟨_, .handler isHandler chosen named⟩
  split at named
  · next isLoop => exact ⟨_, .loop isLoop named⟩
  split at named
  · next isTry =>
    obtain ⟨list, child, named⟩ := Option.bind_eq_some_iff.mp named
    exact ⟨_, .resource isTry child named⟩
  split at named
  · next isScope => exact ⟨_, .member isScope named⟩
  · contradiction

/-- One step outward shows a variable in one of the forms. -/
theorem binds_of_variableAround? (named : inner.variableAround? name = some found) :
    ∃ around, inner.parent? = some around ∧ ∃ form, Binds name inner around form found := by
  obtain ⟨around, above, named⟩ := Option.bind_eq_some_iff.mp named
  refine ⟨around, above, ?_⟩
  rw [Option.orElse_eq_orElse, Option.orElse_eq_or, Option.or_eq_some_iff] at named
  rcases named with declared | ⟨_, introduced⟩
  · exact binds_of_declaredFor? declared
  · split at introduced
    · next isScope => exact binds_of_introducedBefore?_scope isScope introduced
    · contradiction

/-- Constructs that may show a variable to what stands in them. -/
def bindingConstructs : List Construct :=
  statementLists ++ patternScopes ++ typeDeclarations ++
    [.methodDeclaration, .constructorDeclaration, .lambdaExpression, .catchClause,
      .enhancedForStatement, .tryWithResourcesStatement, .classBody]

/-- A variable is shown by one of a few constructs. -/
theorem Binds.isAny_bindingConstructs {form : BindingForm}
    (binds : Binds name inner around form found) : around.isAny bindingConstructs = true := by
  cases binds with
  | earlier isList => exact isAny_mono isList (by decide)
  | condition isList => exact isAny_mono isList (by decide)
  | initial isLoop => exact isAny_of_is isLoop (by decide)
  | pattern isScope => exact isAny_mono isScope (by decide)
  | parameter isCallable => exact isAny_mono isCallable (by decide)
  | lambda isLambda => exact isAny_of_is isLambda (by decide)
  | handler isHandler => exact isAny_of_is isHandler (by decide)
  | loop isLoop => exact isAny_of_is isLoop (by decide)
  | resource isTry => exact isAny_of_is isTry (by decide)
  | member isScope =>
    rcases Bool.or_eq_true_iff.mp isScope with declares | anonymous
    · exact isAny_mono declares (by decide)
    · exact isAny_of_is (Bool.and_eq_true_iff.mp anonymous).1 (by decide)

/-- The step to any other construct shows nothing. -/
theorem variableAround?_eq_none {constructs : List Construct}
    (above : inner.parent? = some around) (kinds : around.isAny constructs = true)
    (apart : constructs.all (!bindingConstructs.contains ·) = true) :
    inner.variableAround? name = none := by
  rw [Option.eq_none_iff_forall_ne_some]
  intro found named
  obtain ⟨other, above', form, binds⟩ := binds_of_variableAround? named
  obtain rfl : around = other := Option.some.inj (above.symm.trans above')
  have outside : around.isAny bindingConstructs = false := isAny_eq_false kinds apart
  rw [binds.isAny_bindingConstructs] at outside
  contradiction

/-! ## The construct that a found name stands in -/

/-- The name of a declaration stands in it. -/
theorem parent?_of_nameIs? (named : place.nameIs? name = some found) :
    found.parent? = some place := by
  obtain ⟨child, chosen, spells⟩ := Option.bind_eq_some_iff.mp named
  obtain ⟨rfl, _, _⟩ := named?_eq_some spells
  exact parent?_of_mem_children (mem_children_of_child? chosen).1

/-- The name of one of several variables stands in its declarator. -/
theorem parent?_of_declaratorNamed? (wf : WellFormed root) (held : root.Holds place)
    (named : place.declaratorNamed? name = some found) :
    ∃ declarator, found.parent? = some declarator ∧ declarator.is .variableDeclarator = true ∧
      declarator.parent? = some place := by
  obtain ⟨declarator, listed, named⟩ := List.exists_of_findSome?_eq_some named
  obtain ⟨below, role⟩ := List.mem_filter.mp listed
  exact ⟨declarator, parent?_of_nameIs? named,
    wf.is_variableDeclarator held below (by simpa using role), parent?_of_mem_children below⟩

/-- The name of a parameter stands in the parameter or in its declarator. -/
theorem parent?_of_parameterNamed? (named : list.parameterNamed? name = some found) :
    ∃ parent, found.parent? = some parent ∧
      (parent.is .formalParameter = true ∨ parent.is .variableDeclarator = true ∧
        ∃ parameter, parent.parent? = some parameter ∧ parameter.is .spreadParameter = true) := by
  obtain ⟨parameter, listed, named⟩ := List.exists_of_findSome?_eq_some named
  obtain ⟨below, kinds⟩ := List.mem_filter.mp listed
  unfold parameterIs? at named
  split at named
  · next isFormal => exact ⟨parameter, parent?_of_nameIs? named, .inl isFormal⟩
  · next notFormal =>
    obtain ⟨declarator, spread, named⟩ := Option.bind_eq_some_iff.mp named
    unfold spreadDeclarator? at spread
    have isDeclarator := List.find?_some spread
    have inside := mem_children_of_mem_parts (List.mem_of_find?_eq_some spread)
    have either : parameter.is .formalParameter = true ∨ parameter.is .spreadParameter = true := by
      simpa [isAny, Node.isAny, is] using kinds
    exact ⟨declarator, parent?_of_nameIs? named, .inr ⟨isDeclarator, parameter,
      parent?_of_mem_children inside, either.resolve_left notFormal⟩⟩

/-- The name of a variable of a pattern stands in a type test or a type pattern, which is the
place that was searched or lies inside it. Induction on the tree below the place. -/
theorem parent?_of_patternNamed? (named : place.patternNamed? name = some found) :
    ∃ parent, found.parent? = some parent ∧
      parent.isAny [.instanceofExpression, .typePattern] = true ∧ place ∈ parent.outward := by
  induction place using Place.child_induction with
  | step place ih =>
    rcases patternNamed?_cases named with ⟨isTest, named⟩ | ⟨isPattern, named⟩ |
      ⟨part, listed, named⟩
    · exact ⟨_, parent?_of_nameIs? named, isAny_of_is isTest (by decide), List.mem_cons_self⟩
    · obtain ⟨pattern, chosen, spells⟩ := Option.bind_eq_some_iff.mp named
      obtain ⟨rfl, _, _⟩ := named?_eq_some spells
      exact ⟨_, parent?_of_mem_children (mem_children_of_patternName? chosen),
        isAny_of_is isPattern (by decide), List.mem_cons_self⟩
    · have below := mem_children_of_mem_parts listed
      obtain ⟨parent, above', kinds, inside⟩ := ih part below named
      exact ⟨parent, above', kinds,
        mem_outward_trans (mem_outward_of_mem_children below) inside⟩

/-- A name stands in a construct of a form, and in a declaration of the form if the construct is
a declarator. -/
structure StandsIn (form : BindingForm) (found parent : Place) : Prop where
  above : found.parent? = some parent
  kinds : parent.isAny form.parents = true
  holder : parent.is .variableDeclarator = true →
    ∃ holder, parent.parent? = some holder ∧ holder.isAny form.holders = true

namespace StandsIn

variable {form : BindingForm}

/-- A name in a construct that is no declarator. -/
theorem of_parent {constructs : List Construct} (above : found.parent? = some parent)
    (kinds : parent.isAny constructs = true) (more : constructs.all form.parents.contains = true)
    (other : constructs.all (· != .variableDeclarator) = true) : StandsIn form found parent where
  above := above
  kinds := isAny_mono kinds more
  holder := fun isDeclarator => by
    rw [is_eq_false kinds other] at isDeclarator
    contradiction

/-- A name in a declarator. -/
theorem of_declarator {holder : Place} {constructs : List Construct}
    (above : found.parent? = some parent) (isDeclarator : parent.is .variableDeclarator = true)
    (listed : form.parents.contains .variableDeclarator = true)
    (above' : parent.parent? = some holder) (kinds : holder.isAny constructs = true)
    (more : constructs.all form.holders.contains = true) : StandsIn form found parent where
  above := above
  kinds := isAny_of_is isDeclarator (List.contains_iff_mem.mp listed)
  holder := fun _ => ⟨holder, above', isAny_mono kinds more⟩

/-- The name of a parameter. -/
theorem of_parameterNamed? (named : list.parameterNamed? name = some found)
    (more : BindingForm.parameter.parents.all form.parents.contains = true)
    (holders : form.holders.contains .spreadParameter = true) :
    ∃ parent, StandsIn form found parent := by
  have formal : form.parents.contains .formalParameter = true :=
    List.all_eq_true.mp more _ List.mem_cons_self
  have declarator : form.parents.contains .variableDeclarator = true :=
    List.all_eq_true.mp more _ (List.mem_cons_of_mem _ (List.mem_singleton_self _))
  obtain ⟨parent, above, isFormal | ⟨isDeclarator, parameter, above', isSpread⟩⟩ :=
    parent?_of_parameterNamed? named
  · exact ⟨parent, .of_parent above (isAny_of_is isFormal (List.mem_singleton_self _))
      (by simpa using formal) (by decide)⟩
  · exact ⟨parent, .of_declarator above isDeclarator declarator above'
      (isAny_of_is isSpread (List.mem_singleton_self _)) (by simpa using holders)⟩

/-- The name of one of several variables. -/
theorem of_declaratorNamed? (wf : WellFormed root) (held : root.Holds place)
    {constructs : List Construct} (kinds : place.isAny constructs = true)
    (listed : form.parents.contains .variableDeclarator = true)
    (more : constructs.all form.holders.contains = true)
    (named : place.declaratorNamed? name = some found) : ∃ parent, StandsIn form found parent := by
  obtain ⟨declarator, above, isDeclarator, holder⟩ := parent?_of_declaratorNamed? wf held named
  exact ⟨declarator, .of_declarator above isDeclarator listed holder kinds more⟩

/-- The name of a variable of a pattern. -/
theorem of_patternNamed? (named : place.patternNamed? name = some found)
    (more : BindingForm.pattern.parents.all form.parents.contains = true) :
    ∃ parent, StandsIn form found parent := by
  obtain ⟨parent, above, kinds, _⟩ := parent?_of_patternNamed? named
  exact ⟨parent, .of_parent above kinds more (by decide)⟩

/-- The name of a parameter of a lambda expression. -/
theorem of_lambdaParameterNamed? (isLambda : place.is .lambdaExpression = true)
    (named : place.lambdaParameterNamed? name = some found) :
    ∃ parent, StandsIn .lambda found parent := by
  obtain ⟨list, child, named⟩ := Option.bind_eq_some_iff.mp named
  have below := (mem_children_of_child? child).1
  split at named
  · -- The only parameter, without parentheses.
    obtain ⟨rfl, _, _⟩ := named?_eq_some named
    exact ⟨place, .of_parent (parent?_of_mem_children below)
      (isAny_of_is isLambda (List.mem_singleton_self _)) (by decide) (by decide)⟩
  split at named
  · exact of_parameterNamed? named (by decide) (by decide)
  split at named
  · next isInferred =>
    obtain ⟨part, listed, named⟩ := List.exists_of_findSome?_eq_some named
    obtain ⟨rfl, _, _⟩ := named?_eq_some named
    exact ⟨list, .of_parent (parent?_of_mem_children (mem_children_of_mem_parts listed))
      (isAny_of_is isInferred (List.mem_singleton_self _)) (by decide) (by decide)⟩
  · contradiction

/-- The name of a field, a record component or an enum constant. -/
theorem of_fieldNamed? (wf : WellFormed root) (held : root.Holds place)
    (named : place.fieldNamed? name = some found) : ∃ parent, StandsIn .member found parent := by
  unfold fieldNamed? at named
  rw [Option.orElse_eq_orElse, Option.orElse_eq_or, Option.or_eq_some_iff] at named
  rcases named with component | ⟨_, member⟩
  · split at component
    · obtain ⟨list, _, named⟩ := Option.bind_eq_some_iff.mp component
      exact of_parameterNamed? named (by decide) (by decide)
    · contradiction
  · obtain ⟨member, listed, named⟩ := List.exists_of_findSome?_eq_some member
    have heldMember := held_of_mem_scopeMembers held listed
    split at named
    · next isField =>
      exact of_declaratorNamed? wf heldMember isField (by decide) (by decide) named
    split at named
    · next isConstant =>
      exact ⟨member, .of_parent (parent?_of_nameIs? named)
        (isAny_of_is isConstant (List.mem_singleton_self _)) (by decide) (by decide)⟩
    · contradiction

end StandsIn

/-- A name that is shown in some form stands in a construct of that form. -/
theorem Binds.standsIn (wf : WellFormed root) (held : root.Holds around) {form : BindingForm}
    (binds : Binds name inner around form found) : ∃ parent, StandsIn form found parent := by
  cases binds with
  | earlier isList before isLocal named | initial isLoop before isLocal named =>
    have heldPart := held.of_part (List.takeWhile_subset _ before)
    exact StandsIn.of_declaratorNamed? wf heldPart (isAny_of_is isLocal (List.mem_singleton_self _))
      (by decide) (by decide) named
  | condition isList before isIf child named => exact StandsIn.of_patternNamed? named (by decide)
  | pattern isScope before named => exact StandsIn.of_patternNamed? named (by decide)
  | parameter isCallable child named =>
    exact StandsIn.of_parameterNamed? named (by decide) (by decide)
  | lambda isLambda named => exact StandsIn.of_lambdaParameterNamed? isLambda named
  | handler isHandler chosen named =>
    have isParameter := List.find?_some chosen
    have kinds := isAny_of_is isParameter (List.mem_singleton_self _)
    exact ⟨_, .of_parent (parent?_of_nameIs? named) kinds (by decide) (by decide)⟩
  | loop isLoop named =>
    have kinds := isAny_of_is isLoop (List.mem_singleton_self _)
    exact ⟨_, .of_parent (parent?_of_nameIs? named) kinds (by decide) (by decide)⟩
  | resource isTry child named =>
    obtain ⟨resource, listed, named⟩ := List.exists_of_findSome?_eq_some named
    have kinds := isAny_of_is (wf.is_resource held child listed) (List.mem_singleton_self _)
    exact ⟨_, .of_parent (parent?_of_nameIs? named) kinds (by decide) (by decide)⟩
  | member isScope named => exact StandsIn.of_fieldNamed? wf held named

/-- The construct that a name stands in tells the forms in which it can be shown. -/
theorem Binds.mem_parents (wf : WellFormed root) (held : root.Holds around) {form : BindingForm}
    (binds : Binds name inner around form own) {parent : Place} (above : own.parent? = some parent)
    {construct : Construct} (itself : parent.is construct = true) : construct ∈ form.parents := by
  obtain ⟨other, stands⟩ := binds.standsIn wf held
  obtain rfl : parent = other := Option.some.inj (above.symm.trans stands.above)
  obtain ⟨listed, among, kind⟩ := isAny_iff.mp stands.kinds
  obtain rfl : construct = listed := by simpa using (is_iff.mp itself).symm.trans kind
  exact among

/-! ## The whole way -/

/-- Nothing inside one of the places around a place shows a variable of the name. -/
def Unshadowed (name : String) (site around : Place) : Prop :=
  ∀ inner ∈ site.outward, around ∈ inner.ancestors → inner.variableAround? name = none

/-- Nothing lies inside a place and around it. -/
theorem unshadowed_self : Unshadowed name site site := by
  intro inner inChain outer
  have less := depth_lt_of_mem_ancestors (mem_ancestors_of_outward outer inChain)
  exact absurd less (Nat.lt_irrefl _)

/-- That nothing inside shows a variable can be checked place by place. -/
theorem unshadowed_of_all (checked : site.outward.all (fun inner =>
    !inner.ancestors.any around.same || (inner.variableAround? name).isNone) = true) :
    Unshadowed name site around := by
  intro inner listed outer
  exact Option.isNone_iff_eq_none.mp (between_of_all checked inner listed outer)

/-- The search takes what the first step shows, or goes on from the place around. -/
theorem variableNamed?_eq (name : String) (site : Place) :
    site.variableNamed? name =
      (site.variableAround? name).or (site.parent?.bind (variableNamed? name)) := by
  obtain ⟨node, above⟩ := site
  cases above with
  | nil =>
    have alone : (Place.mk node []).parent? = none := rfl
    rw [alone, Option.bind_none, Option.or_none]
    simp [variableNamed?, outward, ancestors, along]
  | cons step above =>
    have further : (Place.mk node (step :: above)).parent? = some ⟨step.parent, above⟩ := rfl
    rw [further, Option.bind_some, variableNamed?, outward, List.findSome?_cons]
    cases (Place.mk node (step :: above)).variableAround? name <;> rfl

/-- Where nothing comes between, a name means what it means at a place around. -/
theorem variableNamed?_of_unshadowed (outer : around ∈ site.outward)
    (unshadowed : Unshadowed name site around) :
    site.variableNamed? name = around.variableNamed? name := by
  obtain ⟨inside, chain, between⟩ := outward_eq_append outer
  have silent : inside.findSome? (variableAround? name) = none := by
    refine List.findSome?_eq_none_iff.mpr fun inner listed => ?_
    obtain ⟨inChain, further⟩ := between inner listed
    exact unshadowed inner inChain further
  rw [variableNamed?, chain, List.findSome?_append, silent, Option.none_or, variableNamed?]

/-- A variable is found at the first step outward that shows one of the name. -/
theorem variableNamed?_eq_some : site.variableNamed? name = some found ↔
    ∃ inner ∈ site.outward, inner.variableAround? name = some found ∧
      Unshadowed name site inner := by
  constructor
  · intro named
    obtain ⟨node, above⟩ := site
    induction above generalizing node with
    | nil =>
      rw [variableNamed?_eq, Option.or_eq_some_iff] at named
      rcases named with here | ⟨_, further⟩
      · exact ⟨_, List.mem_cons_self, here, unshadowed_self⟩
      · simp [parent?] at further
    | cons step above ih =>
      rw [variableNamed?_eq, Option.or_eq_some_iff] at named
      rcases named with here | ⟨nothing, further⟩
      · exact ⟨_, List.mem_cons_self, here, unshadowed_self⟩
      · obtain ⟨inner, inChain, found, unshadowed⟩ := ih step.parent further
        refine ⟨inner, mem_outward.mpr (.inr inChain), found, fun other listed outer => ?_⟩
        rcases mem_outward.mp listed with rfl | listed
        · exact nothing
        · exact unshadowed other listed outer
  · rintro ⟨inner, inChain, named, unshadowed⟩
    rw [variableNamed?_of_unshadowed inChain unshadowed, variableNamed?_eq, named, Option.some_or]

/-- A variable that is found is shown by a construct of the tree, in one of the forms. -/
theorem exists_binds_of_variableNamed? (held : root.Holds site)
    (named : site.variableNamed? name = some found) :
    ∃ inner ∈ site.outward, Unshadowed name site inner ∧
      ∃ around form, inner.parent? = some around ∧ root.Holds around ∧
        Binds name inner around form found := by
  obtain ⟨inner, inChain, shown, unshadowed⟩ := variableNamed?_eq_some.mp named
  obtain ⟨around, above, form, binds⟩ := binds_of_variableAround? shown
  exact ⟨inner, inChain, unshadowed, around, form, above,
    ((held.of_outward inChain).parent above).1, binds⟩

/-! ## Earlier parts -/

/-- The earlier parts of a construct are those that start before. -/
theorem mem_partsBefore (before : part ∈ around.partsBefore inner) :
    part ∈ around.children ∧ part.start < inner.start := by
  have earlier := List.mem_takeWhile_imp before
  exact ⟨mem_children_of_mem_parts (List.takeWhile_subset _ before), by simpa using earlier⟩

/-- What an earlier part of a construct holds does not lie around the place. -/
theorem not_mem_outward_of_partsBefore (above : inner.parent? = some around)
    (inChain : inner ∈ site.outward) (before : part ∈ around.partsBefore inner) :
    part ∉ site.outward := by
  intro outer
  obtain ⟨below, earlier⟩ := mem_partsBefore before
  have depths : part.depth = inner.depth := by
    rw [depth_of_mem_children below, depth_of_parent? above]
  obtain rfl := eq_of_mem_outward outer inChain depths
  exact Nat.lt_irrefl _ earlier

end Place

end CaretName
