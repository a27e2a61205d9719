import CaretName.Proofs.SourceFile.Scope
import CaretName.Proofs.SourceFile.Meaning
import CaretName.Proofs.SourceFile.Caret

/-!
# The extent of local variables

The variable of a loop over elements, the resources of a try statement and the parameter of a
handler are shown to every child of their construct alike: to the body, and to what is iterated,
to the handlers and to the type of the variable just as well. The variables of one declaration
are shown to none of its initial values, however, as a statement is never earlier than itself.
-/
namespace CaretName

open Grammar

namespace Place

variable {root : Node} {site inner around construct part found own : Place} {name : String}

/-! ## Variables for all children of a construct -/

/-- A construct shows a name to a place if nothing inside the child that the place lies in does. -/
def Reaches (name : String) (construct site : Place) : Prop :=
  ∃ part ∈ construct.children, part ∈ site.outward ∧ Unshadowed name site part

/-- A variable that one construct alone can show is found exactly where the construct shows it,
if the construct shows the same to all of its children. -/
theorem variableNamed?_iff_reaches (held : root.Holds site) {declared : Option Place}
    (shows : ∀ part ∈ construct.children, part.variableAround? name = declared)
    (only : ∀ inner around form, root.Holds around → Binds name inner around form own →
      around = construct) :
    site.variableNamed? name = some own ↔ declared = some own ∧ construct.Reaches name site := by
  constructor
  · intro named
    obtain ⟨inner, inChain, found, unshadowed⟩ := variableNamed?_eq_some.mp named
    obtain ⟨around, above, form, binds⟩ := binds_of_variableAround? found
    obtain ⟨heldAround, below⟩ := (held.of_outward inChain).parent above
    obtain rfl := only inner around form heldAround binds
    exact ⟨(shows inner below).symm.trans found, inner, below, inChain, unshadowed⟩
  · rintro ⟨here, part, below, inChain, unshadowed⟩
    exact variableNamed?_eq_some.mpr ⟨part, inChain, (shows part below).trans here, unshadowed⟩

/-- Forms in which names are shown that no other form shows, by the constructs these stand in. -/
def soleForms : List (Construct × BindingForm) :=
  [(.enhancedForStatement, .loop), (.resource, .resource), (.catchFormalParameter, .handler)]

/-- A name in one of these constructs is shown in one form only. -/
theorem eq_of_soleForm {parent : Construct} {form sole : BindingForm}
    (paired : (parent, sole) ∈ soleForms) (listed : parent ∈ form.parents) : form = sole := by
  have checked : ∀ pair ∈ soleForms, pair.1 ∈ form.parents → form = pair.2 := by
    cases form <;> decide
  exact checked _ paired listed

/-- Constructs that declare the same variables for each of their children. -/
def evenConstructs : List Construct :=
  [.catchClause, .enhancedForStatement, .tryWithResourcesStatement]

/-- The step to one of these constructs shows what it declares, wherever it comes from. -/
theorem variableAround?_of_evenConstruct (below : part ∈ construct.children)
    (even : construct.isAny evenConstructs = true) :
    part.variableAround? name =
      if construct.is .catchClause then
        (construct.parts.find? (·.is .catchFormalParameter)).bind (nameIs? name)
      else if construct.is .enhancedForStatement then construct.nameIs? name
      else (construct.child? .resources).bind fun list => list.parts.findSome? (nameIs? name) := by
  have noList : construct.isAny statementLists = false := isAny_eq_false even (by decide)
  have noMethod : construct.isAny [.methodDeclaration, .constructorDeclaration] = false :=
    isAny_eq_false even (by decide)
  have noLambda : construct.is .lambdaExpression = false := is_eq_false even (by decide)
  have noPatterns : construct.isAny patternScopes = false := isAny_eq_false even (by decide)
  have isTry (noHandler : construct.is .catchClause = false)
      (noLoop : construct.is .enhancedForStatement = false) :
      construct.is .tryWithResourcesStatement = true := by
    have none : construct.isAny [] = false := rfl
    simpa only [evenConstructs, isAny_cons, noHandler, noLoop, none, Bool.false_eq_true, false_or,
      or_false] using even
  rw [variableAround?, parent?_of_mem_children below, Option.bind_some, noPatterns,
    if_neg Bool.false_ne_true, Option.orElse_eq_orElse, Option.orElse_eq_or, Option.or_none]
  cases isHandler : construct.is .catchClause with
  | true => simp [declaredFor?, noList, noMethod, noLambda, isHandler]
  | false =>
    cases isLoop : construct.is .enhancedForStatement with
    | true => simp [declaredFor?, noList, noMethod, noLambda, isHandler, isLoop]
    | false =>
      simp [declaredFor?, noList, noMethod, noLambda, isHandler, isLoop, isTry isHandler isLoop]

/-- The variable of a loop over elements is found in every child of the loop. -/
theorem variableNamed?_loop (wf : WellFormed root) (held : root.Holds site)
    (isLoop : construct.is .enhancedForStatement = true) (above : own.parent? = some construct) :
    site.variableNamed? name = some own ↔
      construct.nameIs? name = some own ∧ construct.Reaches name site := by
  have kinds := isAny_of_is isLoop (List.mem_singleton_self _)
  refine variableNamed?_iff_reaches held (fun part below => ?_) ?_
  · have noHandler : construct.is .catchClause = false := is_eq_false kinds (by decide)
    rw [variableAround?_of_evenConstruct below (isAny_mono kinds (by decide)), noHandler,
      if_neg Bool.false_ne_true, if_pos isLoop]
  · intro inner around form heldAround binds
    obtain rfl : form = .loop :=
      eq_of_soleForm (by decide) (binds.mem_parents wf heldAround above isLoop)
    cases binds with
    | loop _ named => exact Option.some.inj ((parent?_of_nameIs? named).symm.trans above)

/-- A resource of a try statement is found in every child of the statement. -/
theorem variableNamed?_resource (wf : WellFormed root) (held : root.Holds site)
    (heldConstruct : root.Holds construct)
    (isTry : construct.is .tryWithResourcesStatement = true) {list resource : Place}
    (child : construct.child? .resources = some list) (listed : resource ∈ list.parts)
    (above : own.parent? = some resource) :
    site.variableNamed? name = some own ↔
      list.parts.findSome? (nameIs? name) = some own ∧ construct.Reaches name site := by
  have kinds := isAny_of_is isTry (List.mem_singleton_self _)
  refine variableNamed?_iff_reaches held (fun part below => ?_) ?_
  · have noHandler : construct.is .catchClause = false := is_eq_false kinds (by decide)
    have noLoop : construct.is .enhancedForStatement = false := is_eq_false kinds (by decide)
    rw [variableAround?_of_evenConstruct below (isAny_mono kinds (by decide)), noHandler, noLoop,
      if_neg Bool.false_ne_true, if_neg Bool.false_ne_true, child, Option.bind_some]
  · intro inner around form heldAround binds
    have isResource := wf.is_resource heldConstruct child listed
    obtain rfl : form = .resource :=
      eq_of_soleForm (by decide) (binds.mem_parents wf heldAround above isResource)
    cases binds with
    | resource _ child' named =>
      obtain ⟨other, listed', named⟩ := List.exists_of_findSome?_eq_some named
      obtain rfl : resource = other := Option.some.inj (above.symm.trans (parent?_of_nameIs? named))
      -- The resource tells the list that it is in, and the list the statement.
      have aboveList := parent?_of_mem_children (mem_children_of_mem_parts listed)
      have aboveList' := parent?_of_mem_children (mem_children_of_mem_parts listed')
      obtain rfl := Option.some.inj (aboveList.symm.trans aboveList')
      have aboveTry := parent?_of_mem_children (mem_children_of_child? child).1
      have aboveTry' := parent?_of_mem_children (mem_children_of_child? child').1
      exact Option.some.inj (aboveTry'.symm.trans aboveTry)

/-- The parameter of a handler is found in every child of the handler. -/
theorem variableNamed?_handler (wf : WellFormed root) (held : root.Holds site)
    (isHandler : construct.is .catchClause = true) {parameter : Place}
    (isParameter : parameter.is .catchFormalParameter = true)
    (listed : parameter ∈ construct.parts) (above : own.parent? = some parameter) :
    site.variableNamed? name = some own ↔
      (construct.parts.find? (·.is .catchFormalParameter)).bind (nameIs? name) = some own ∧
        construct.Reaches name site := by
  have kinds := isAny_of_is isHandler (List.mem_singleton_self _)
  refine variableNamed?_iff_reaches held (fun part below => ?_) ?_
  · rw [variableAround?_of_evenConstruct below (isAny_mono kinds (by decide)), if_pos isHandler]
  · intro inner around form heldAround binds
    obtain rfl : form = .handler :=
      eq_of_soleForm (by decide) (binds.mem_parents wf heldAround above isParameter)
    cases binds with
    | @handler other _ _ chosen named =>
      obtain rfl : parameter = other :=
        Option.some.inj (above.symm.trans (parent?_of_nameIs? named))
      have aboveHandler := parent?_of_mem_children (mem_children_of_mem_parts listed)
      have aboveHandler' := parent?_of_mem_children
        (mem_children_of_mem_parts (List.mem_of_find?_eq_some chosen))
      exact Option.some.inj (aboveHandler'.symm.trans aboveHandler)

/-- The variable of a loop over elements, a resource of a try statement and the parameter of a
handler are found in all of their construct where nothing comes between, and nowhere else. -/
theorem variable_extent (wf : WellFormed root) (held : root.Holds site)
    (heldConstruct : root.Holds construct) :
    (construct.is .enhancedForStatement = true → own.parent? = some construct →
      (site.variableNamed? name = some own ↔
        construct.nameIs? name = some own ∧ construct.Reaches name site)) ∧
    (construct.is .tryWithResourcesStatement = true → ∀ list resource,
      construct.child? .resources = some list → resource ∈ list.parts →
      own.parent? = some resource →
      (site.variableNamed? name = some own ↔
        list.parts.findSome? (nameIs? name) = some own ∧ construct.Reaches name site)) ∧
    (construct.is .catchClause = true → ∀ parameter ∈ construct.parts,
      parameter.is .catchFormalParameter = true → own.parent? = some parameter →
      (site.variableNamed? name = some own ↔
        (construct.parts.find? (·.is .catchFormalParameter)).bind (nameIs? name) = some own ∧
          construct.Reaches name site)) := by
  refine ⟨?loops, ?resources, ?handlers⟩
  case loops => exact fun isLoop above => variableNamed?_loop wf held isLoop above
  case resources =>
    intro isTry list resource child listed above
    exact variableNamed?_resource wf held heldConstruct isTry child listed above
  case handlers =>
    intro isHandler parameter listed isParameter above
    exact variableNamed?_handler wf held isHandler isParameter listed above

/-- A loop that uses its variable. -/
def countingLoop : String :=
  "class A { void f() { for (int x : y) { x++; } } }"

/-- A use in the body of a loop is reached by the variable of the loop. -/
theorem variable_extent_body : ∃ construct site own,
    (parse countingLoop).Holds site ∧
      construct.is .enhancedForStatement = true ∧ own.parent? = some construct ∧
      site.variableNamed? "x" = some own ∧ construct.Reaches "x" site := by
  have used : (accepts countingLoop && ((parse countingLoop).places []).any fun site =>
      site.ancestors.any (·.is .updateExpression) &&
        (site.variableNamed? "x").any fun own =>
          own.parent?.any (·.is .enhancedForStatement)) = true := by decide +kernel
  obtain ⟨accepted, site, held, used⟩ := exists_held_of_search used
  obtain ⟨_, used⟩ := Bool.and_eq_true_iff.mp used
  obtain ⟨own, named, used⟩ := Option.any_eq_true _ _ |>.mp used
  obtain ⟨construct, above, isLoop⟩ := Option.any_eq_true _ _ |>.mp used
  have wf := wellFormed_parse accepted
  have heldConstruct := ((isVariable_of_variableNamed? held named).held.parent above).1
  have reached : construct.nameIs? "x" = some own ∧ construct.Reaches "x" site :=
    ((variable_extent wf held heldConstruct).1 isLoop above).mp named
  exact ⟨construct, site, own, held, isLoop, above, named, reached.2⟩

/-- A loop whose variable is called like what it iterates. -/
def shadowingLoop : String :=
  "class A { int[] x; void f() { for (int x : x) { } } }"

/-- What a loop iterates is reached by the variable of the loop, too, so that a field of the same
name is not found there. -/
theorem variable_leaks_to_iterated :
    accepts shadowingLoop = true ∧
      ∃ construct site own field,
        (parse shadowingLoop).Holds site ∧
        construct.is .enhancedForStatement = true ∧ construct.child? .value = some site ∧
        (∀ body, construct.child? .body = some body → body ∉ site.outward) ∧
        own.parent? = some construct ∧ site.variableNamed? site.text = some own ∧
        construct.variableNamed? site.text = some field ∧ field ≠ own := by
  have used : (accepts shadowingLoop && ((parse shadowingLoop).places []).any fun site =>
      site.parent?.any fun construct =>
        construct.is .enhancedForStatement && (construct.child? .value).any site.same &&
        (construct.child? .body).all (fun body => !site.outward.any body.same) &&
        (site.variableNamed? site.text).any fun own =>
          own.parent?.any construct.same && (construct.variableNamed? site.text).any fun field =>
            !field.same own) = true := by decide +kernel
  obtain ⟨accepted, site, held, used⟩ := exists_held_of_search used
  obtain ⟨construct, above, used⟩ := Option.any_eq_true _ _ |>.mp used
  simp only [Bool.and_eq_true, Option.any_eq_true, Option.all_eq_true, Bool.not_eq_true'] at used
  obtain ⟨⟨⟨isLoop, value, child, isValue⟩, outside⟩, own, named, ⟨around, above', isConstruct⟩,
    field, meant, other⟩ := used
  have heldConstruct := (held.parent above).1
  have heldOwn := (isVariable_of_variableNamed? held named).held
  obtain rfl := (held.same_iff (heldConstruct.of_child? child)).mp isValue
  obtain rfl := (heldConstruct.same_iff (heldOwn.parent above').1).mp isConstruct
  refine ⟨accepted, construct, site, own, field, held, isLoop, child, ?_, above', named,
    meant, ?_⟩
  · intro body isBody inChain
    have apart := List.any_eq_false.mp (outside body isBody) body inChain
    simp [same] at apart
  · rintro rfl
    simp [same] at other

/-! ## Variables of one declaration -/

/-- A construct shows a variable of a local declaration only as one of its earlier parts. -/
theorem Binds.mem_partsBefore_of_local (wf : WellFormed root) (held : root.Holds around)
    (heldConstruct : root.Holds construct) {form : BindingForm}
    (binds : Binds name inner around form own)
    (isLocal : construct.is .localVariableDeclaration = true) {declarator : Place}
    (listed : declarator ∈ construct.declarators) (above : own.parent? = some declarator) :
    construct ∈ around.partsBefore inner := by
  obtain ⟨below, role⟩ := List.mem_filter.mp listed
  have isDeclarator : declarator.is .variableDeclarator = true :=
    wf.is_variableDeclarator heldConstruct below (by simpa using role)
  have aboveDeclarator := parent?_of_mem_children below
  obtain ⟨parent, stands⟩ := binds.standsIn wf held
  obtain rfl : declarator = parent := Option.some.inj (above.symm.trans stands.above)
  obtain ⟨holder, aboveHolder, kinds⟩ := stands.holder isDeclarator
  obtain rfl : construct = holder := Option.some.inj (aboveDeclarator.symm.trans aboveHolder)
  have declared : ∀ part ∈ around.partsBefore inner,
      part.declaratorNamed? name = some own → construct ∈ around.partsBefore inner := by
    intro part before named
    have heldPart := held.of_part (List.takeWhile_subset _ before)
    obtain ⟨other, above', _, holder⟩ := parent?_of_declaratorNamed? wf heldPart named
    obtain rfl : declarator = other := Option.some.inj (above.symm.trans above')
    obtain rfl : part = construct := Option.some.inj (holder.symm.trans aboveDeclarator)
    exact before
  -- Of all forms only those of local variables show what a local declaration declares.
  cases binds with
  | earlier isList before isLocal named => exact declared _ before named
  | initial isLoop before isLocal named => exact declared _ before named
  | parameter | lambda | member =>
    have other : construct.is .localVariableDeclaration = false := is_eq_false kinds (by decide)
    rw [isLocal] at other
    contradiction
  | condition | pattern | handler | loop | resource =>
    simp [BindingForm.holders, isAny, Node.isAny] at kinds

/-- A variable is shown to no place inside its own declaration. -/
theorem variableNamed?_ne_own (wf : WellFormed root) (held : root.Holds site)
    (inside : construct ∈ site.outward) (isLocal : construct.is .localVariableDeclaration = true)
    {declarator : Place} (listed : declarator ∈ construct.declarators)
    (above : own.parent? = some declarator) : site.variableNamed? name ≠ some own := by
  intro named
  obtain ⟨inner, inChain, _, around, form, aboveInner, heldAround, binds⟩ :=
    exists_binds_of_variableNamed? held named
  have before := binds.mem_partsBefore_of_local wf heldAround (held.of_outward inside) isLocal
    listed above
  exact not_mem_outward_of_partsBefore aboveInner inChain before inside

/-- A use in an initial value means none of the variables of the same declaration. Where nothing
in the value comes between, it means what it would mean outside the declaration. -/
theorem variableNamed?_in_initial_value (wf : WellFormed root) (held : root.Holds site)
    (inside : construct ∈ site.outward) (isLocal : construct.is .localVariableDeclaration = true) :
    (∀ declarator ∈ construct.declarators, ∀ own, own.parent? = some declarator →
      site.variableNamed? name ≠ some own) ∧
    (∀ declarator ∈ construct.declarators, ∀ value, declarator.child? .value = some value →
      value ∈ site.outward → Unshadowed name site value →
        site.variableNamed? name = construct.variableNamed? name) := by
  constructor
  · intro declarator listed own above
    exact variableNamed?_ne_own wf held inside isLocal listed above
  · intro declarator listed value child inChain unshadowed
    obtain ⟨below, role⟩ := List.mem_filter.mp listed
    have isDeclarator : declarator.is .variableDeclarator = true :=
      wf.is_variableDeclarator (held.of_outward inside) below (by simpa using role)
    have aboveValue := parent?_of_mem_children (mem_children_of_child? child).1
    have aboveDeclarator := parent?_of_mem_children below
    have quietValue : value.variableAround? name = none := variableAround?_eq_none aboveValue
      (isAny_of_is isDeclarator (List.mem_singleton_self _)) (by decide)
    have quietDeclarator : declarator.variableAround? name = none :=
      variableAround?_eq_none aboveDeclarator (isAny_of_is isLocal (List.mem_singleton_self _))
        (by decide)
    calc site.variableNamed? name
      _ = value.variableNamed? name := variableNamed?_of_unshadowed inChain unshadowed
      _ = declarator.variableNamed? name := by
        rw [variableNamed?_eq, quietValue, Option.none_or, aboveValue, Option.bind_some]
      _ = construct.variableNamed? name := by
        rw [variableNamed?_eq, quietDeclarator, Option.none_or, aboveDeclarator, Option.bind_some]

/-- Two variables of one declaration. -/
def twoVariables : String :=
  "class A { void f() { int a = 1, b = a; } }"

/-- The second of two variables of one declaration is not given the first. -/
theorem variableNamed?_second_initial_value : ∃ construct declarator own site : Place,
    (parse twoVariables).Holds site ∧
      construct.is .localVariableDeclaration = true ∧ declarator ∈ construct.declarators ∧
      own.parent? = some declarator ∧ own.text = site.text ∧
      site.variableNamed? site.text ≠ some own ∧
      site.variableNamed? site.text = construct.variableNamed? site.text := by
  have used : (accepts twoVariables && ((parse twoVariables).places []).any fun site =>
      site.ancestors.any fun construct =>
        construct.is .localVariableDeclaration &&
        (construct.declarators.any fun later => (later.child? .value).any site.same) &&
        construct.declarators.any fun declarator =>
          (declarator.child? .name).any fun own => own.text == site.text) = true := by
    decide +kernel
  obtain ⟨accepted, site, held, used⟩ := exists_held_of_search used
  obtain ⟨construct, outer, used⟩ := List.any_eq_true.mp used
  simp only [Bool.and_eq_true, List.any_eq_true, Option.any_eq_true, beq_iff_eq] at used
  obtain ⟨⟨isLocal, later, among, value, child, isValue⟩, declarator, listed', own, isName,
    spelled⟩ := used
  have heldConstruct := held.of_ancestor outer
  have heldLater := heldConstruct.child (List.mem_filter.mp among).1
  obtain rfl := (held.same_iff (heldLater.of_child? child)).mp isValue
  have above := parent?_of_mem_children (mem_children_of_child? isName).1
  obtain ⟨never, outside⟩ := variableNamed?_in_initial_value (wellFormed_parse accepted) held
    (mem_outward.mpr (.inr outer)) isLocal
  exact ⟨construct, declarator, own, site, held, isLocal, listed', above, spelled,
    never declarator listed' own above,
    outside later among site child List.mem_cons_self unshadowed_self⟩

/-- Two variables of one declaration, the first of them called like a field. -/
def fieldAndVariables : String :=
  "class A { String a; void f() { int a = 1, b = a; } }"

/-- In an initial value a field is found in place of an earlier variable of the declaration. -/
theorem variableNamed?_field_in_initial_value :
    accepts fieldAndVariables = true ∧
      ∃ construct declarator later own site field : Place,
        (parse fieldAndVariables).Holds site ∧
        construct.is .localVariableDeclaration = true ∧
        declarator ∈ construct.declarators ∧ later ∈ construct.declarators ∧
        declarator.start < later.start ∧ declarator.nameIs? site.text = some own ∧
        later.child? .value = some site ∧ site.variableNamed? site.text = some field ∧
        own.variableElement = .variable "int" "a" ∧
        field.variableElement = .variable "String" "a" := by
  have used : (accepts fieldAndVariables && ((parse fieldAndVariables).places []).any fun site =>
      site.ancestors.any fun construct =>
        construct.is .localVariableDeclaration &&
        construct.declarators.any fun declarator => construct.declarators.any fun later =>
          decide (declarator.start < later.start) && (later.child? .value).any site.same &&
          ((declarator.nameIs? site.text).any fun own =>
            own.variableElement == .variable "int" "a") &&
          (site.variableNamed? site.text).any fun field =>
            field.variableElement == .variable "String" "a") = true := by
    decide +kernel
  obtain ⟨accepted, site, held, used⟩ := exists_held_of_search used
  obtain ⟨construct, outer, used⟩ := List.any_eq_true.mp used
  simp only [Bool.and_eq_true, List.any_eq_true, Option.any_eq_true, beq_iff_eq,
    decide_eq_true_eq] at used
  obtain ⟨isLocal, declarator, listed', later, among, ⟨⟨earlier, value, child, isValue⟩, own,
    isName, element⟩, field, named, element'⟩ := used
  have heldConstruct := held.of_ancestor outer
  have heldLater := heldConstruct.child (List.mem_filter.mp among).1
  obtain rfl := (held.same_iff (heldLater.of_child? child)).mp isValue
  exact ⟨accepted, construct, declarator, later, own, site, field, held, isLocal,
    listed', among, earlier, isName, child, named, element, element'⟩

end Place

end CaretName
