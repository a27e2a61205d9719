import CaretName.Proofs.SourceFile.Arity
import CaretName.Proofs.SourceFile.Coherence
import CaretName.Proofs.Tree.Layout

/-!
# Which overload is meant

A method is looked up by its name and a number of arguments. `method_selection` says which of the
methods that a type scope declares is meant, in which of the scopes around a call it is looked up,
and that its parameters agree with the arguments of the call whenever it accepts them.
`first_accepting` says which overload wins if several accept the arguments: the first in the
source, even if it takes any number of values and a later one just as many.
-/
namespace CaretName

open Grammar

namespace Place

/-! ## What a scope declares -/

/-- A place stands directly in a type scope: as a child of its body, or among what follows the
constants of an enum. -/
inductive HasMember (scope : Place) : Place → Prop
  | inBody {body member : Place} (found : scope.typeBody? = some body)
    (below : member ∈ body.children) : HasMember scope member
  | afterConstants {body list member : Place} (found : scope.typeBody? = some body)
    (between : list ∈ body.children) (isList : list.is .enumBodyDeclarations = true)
    (below : member ∈ list.children) : HasMember scope member

/-- A type scope directly declares a method with a name. -/
structure DeclaresMethod (scope : Place) (name : String) (method : Place) : Prop where
  member : scope.HasMember method
  isMethod : method.is .methodDeclaration = true
  named : method.declaredName? = some name

/-- Whether the declaration of a method accepts a number of arguments. -/
def acceptsArguments (count : Nat) (method : Place) : Bool :=
  (method.child? .parameters).any (·.takes count)

/-- Whether a place is the first in the source for which something holds. -/
def IsFirst (holds : Place → Prop) (place : Place) : Prop :=
  holds place ∧ ∀ other, holds other → other ≠ place → place.start < other.start

/-- Whether a place is the innermost around a site for which something holds. -/
def IsInnermost (site : Place) (holds : Place → Prop) (place : Place) : Prop :=
  place ∈ site.ancestors ∧ holds place ∧
    ∀ other ∈ site.ancestors, holds other → other ∈ place.outward

variable {root : Node} {scope member method : Place} {name : String} {count : Nat}

/-- What a scope directly holds, other than the bracket of members behind constants, is among its
members. -/
theorem mem_scopeMembers_iff (isPart : member.node.isPart = true)
    (other : member.is .enumBodyDeclarations = false) :
    member ∈ scope.scopeMembers ↔ scope.HasMember member := by
  constructor
  · intro inside
    unfold scopeMembers at inside
    cases found : scope.typeBody? with
    | none => simp [found] at inside
    | some body =>
      simp only [found, Option.map_some, Option.getD_some] at inside
      obtain ⟨part, listed, chosen⟩ := List.mem_flatMap.mp inside
      split at chosen
      · next isList =>
        exact .afterConstants found (mem_children_of_mem_parts listed) isList
          (mem_children_of_mem_parts chosen)
      · obtain rfl := List.mem_singleton.mp chosen
        exact .inBody found (mem_children_of_mem_parts listed)
  · intro direct
    cases direct with
    | @inBody body _ found below =>
      rw [scopeMembers, found]
      exact List.mem_flatMap.mpr ⟨member, mem_parts.mpr ⟨below, isPart⟩, by simp [other]⟩
    | @afterConstants body list _ found between isList below =>
      have isListPart : list.node.isPart = true :=
        isPart_of_isAny (isAny_of_is isList (List.mem_singleton_self _)) (by decide)
      rw [scopeMembers, found]
      exact List.mem_flatMap.mpr ⟨list, mem_parts.mpr ⟨between, isListPart⟩,
        by simp [isList, mem_parts.mpr ⟨below, isPart⟩]⟩

/-- The methods with a name are those that a scope directly declares. -/
theorem mem_methodsNamed_iff :
    method ∈ scope.methodsNamed name ↔ scope.DeclaresMethod name method := by
  have direct (isMethod : method.is .methodDeclaration = true) :
      method ∈ scope.scopeMembers ↔ scope.HasMember method := by
    have itself := isAny_of_is isMethod (List.mem_singleton_self _)
    exact mem_scopeMembers_iff (isPart_of_isAny itself (by decide))
      (is_eq_false itself (by decide))
  constructor
  · intro listed
    obtain ⟨inside, isMethod, named⟩ := mem_methodsNamed listed
    exact ⟨(direct isMethod).mp inside, isMethod, named⟩
  · intro declares
    exact List.mem_filter.mpr ⟨(direct declares.isMethod).mpr declares.member,
      by simp [declares.isMethod, declares.named]⟩

/-! ## The order of the source -/

/-- The children of a laid out place stand one after another. -/
theorem pairwise_children {place : Place} (laid : place.node.Laid) :
    place.children.Pairwise fun first second => first.stop ≤ second.start := by
  suffices nodes : place.node.children.Pairwise fun first second => first.stop ≤ second.start by
    rw [← map_node_children] at nodes
    exact List.pairwise_map.mp nodes
  have pairwise : ∀ {start stop : Nat} {nodes : List Node}, Node.Lie start nodes stop →
      nodes.Pairwise fun first second => first.stop ≤ second.start := by
    intro start stop nodes lie
    induction lie with
    | nil => exact .nil
    | cons after inside later ihInside ihLater =>
      exact .cons (fun node among => (later.mem among).1) ihLater
  exact pairwise laid

/-- The members of a scope stand one after another. -/
theorem pairwise_scopeMembers (laid : root.Laid) (held : root.Holds scope) :
    scope.scopeMembers.Pairwise fun first second => first.stop ≤ second.start := by
  unfold scopeMembers
  cases found : scope.typeBody? with
  | none => exact .nil
  | some body =>
    have heldBody := held_of_typeBody? held found
    rw [Option.map_some, Option.getD_some, members, List.pairwise_flatMap]
    constructor
    · intro part listed
      split
      · exact (pairwise_children ((heldBody.of_part listed).laid laid)).filter _
      · exact List.pairwise_singleton _ _
    · have parts : body.parts.Pairwise fun first second => first.stop ≤ second.start :=
        (pairwise_children (heldBody.laid laid)).filter _
      refine parts.imp_of_mem fun {first second} isFirst isSecond apart one among two among' => ?_
      -- What stands for a part lies within it.
      have within : ∀ part ∈ body.parts, ∀ inner,
          inner ∈ (if part.is .enumBodyDeclarations then part.parts else [part]) →
          part.start ≤ inner.start ∧ inner.stop ≤ part.stop := by
        intro part listed inner chosen
        split at chosen
        · exact ((heldBody.of_part listed).laid laid).child_within
            (mem_children_of_mem_parts chosen)
        · obtain rfl := List.mem_singleton.mp chosen
          exact ⟨Nat.le_refl _, Nat.le_refl _⟩
      have ended := (within first isFirst one among).2
      have starts := (within second isSecond two among').1
      omega

/-- A declaration with a name takes up room. -/
theorem start_lt_stop (wf : WellFormed root) (held : root.Holds member)
    (named : member.isAny namedConstructs = true) : member.start < member.stop := by
  obtain ⟨own, found, isIdentifier⟩ := wf.exists_name held named
  have isName : own.isAny nameConstructs = true := isAny_of_is isIdentifier (by decide)
  obtain ⟨-, visible, -⟩ := wf.name_token (held.of_child? found) isName
  have within := (held.laid wf.laid).child_within (mem_children_of_child? found).1
  omega

/-- At most one place is the first of its kind. -/
theorem IsFirst.unique {holds : Place → Prop} {place other : Place} (first : IsFirst holds place)
    (first' : IsFirst holds other) : place = other := by
  by_contra different
  have before := first.2 other first'.1 (Ne.symm different)
  have after := first'.2 place first.1 different
  omega

/-- What a search finds in a list in the order of the source is the first of its kind. -/
theorem find?_eq_some_iff_isFirst {places : List Place} {test : Place → Bool}
    {holds : Place → Prop} {place : Place}
    (ordered : places.Pairwise fun first second => first.stop ≤ second.start)
    (visible : ∀ place ∈ places, place.start < place.stop)
    (same : ∀ other, holds other ↔ other ∈ places ∧ test other = true) :
    places.find? test = some place ↔ IsFirst holds place := by
  have first : ∀ {place}, places.find? test = some place → IsFirst holds place := by
    intro place found
    obtain ⟨passes, before, after, rfl, passed⟩ := List.find?_eq_some_iff_append.mp found
    have width := visible place (by simp)
    refine ⟨(same place).mpr ⟨by simp, passes⟩, fun other kind different => ?_⟩
    obtain ⟨listed, fits⟩ := (same other).mp kind
    rcases List.mem_append.mp listed with front | back
    · exact absurd fits (by simpa using passed other front)
    · have behind := (List.mem_cons.mp back).resolve_left different
      have apart := (List.pairwise_cons.mp (List.pairwise_append.mp ordered).2.1).1 other behind
      omega
  refine ⟨first, fun isFirst => ?_⟩
  obtain ⟨listed, fits⟩ := (same place).mp isFirst.1
  obtain ⟨found, search⟩ := Option.isSome_iff_exists.mp (List.find?_isSome.mpr ⟨place, listed, fits⟩)
  rw [search, (first search).unique isFirst]

/-- The first place in a list in the order of the source is the first of those in it. -/
theorem head?_eq_some_iff_isFirst {places : List Place} {holds : Place → Prop} {place : Place}
    (ordered : places.Pairwise fun first second => first.stop ≤ second.start)
    (visible : ∀ place ∈ places, place.start < place.stop)
    (same : ∀ other, holds other ↔ other ∈ places) :
    places.head? = some place ↔ IsFirst holds place := by
  have search : places.find? (fun _ => true) = places.head? := by cases places <;> rfl
  rw [← search]
  exact find?_eq_some_iff_isFirst ordered visible fun other => by simp [same]

/-! ## The method of a scope -/

/-- A scope has no method for a name only if it declares none. -/
theorem method?_eq_none_iff :
    scope.method? name count = none ↔ ∀ method, ¬ scope.DeclaresMethod name method := by
  rw [method?, Option.orElse_eq_orElse, Option.orElse_eq_or, Option.or_eq_none_iff,
    List.head?_eq_none_iff, List.eq_nil_iff_forall_not_mem]
  simp only [← mem_methodsNamed_iff]
  constructor
  · exact fun none => none.2
  · exact fun none => ⟨List.find?_eq_none.mpr fun method listed => absurd listed (none method), none⟩

/-- The method for a name and a number of arguments is the first that accepts as many, or the first
of the name if none does. -/
theorem isFirst_of_method? (wf : WellFormed root) (held : root.Holds scope)
    (found : scope.method? name count = some method) :
    IsFirst (fun other => scope.DeclaresMethod name other ∧
        other.acceptsArguments count = true) method ∨
      (∀ other, scope.DeclaresMethod name other → other.acceptsArguments count = false) ∧
        IsFirst (scope.DeclaresMethod name) method := by
  have ordered : (scope.methodsNamed name).Pairwise fun first second =>
      first.stop ≤ second.start := (pairwise_scopeMembers wf.laid held).filter _
  have visible : ∀ other ∈ scope.methodsNamed name, other.start < other.stop := by
    intro other listed
    obtain ⟨inside, isMethod, -⟩ := mem_methodsNamed listed
    exact start_lt_stop wf (held_of_mem_scopeMembers held inside)
      (isAny_of_is isMethod (by decide))
  rw [method?, Option.orElse_eq_orElse, Option.orElse_eq_or, Option.or_eq_some_iff] at found
  rcases found with fits | ⟨none, first⟩
  · exact .inl ((find?_eq_some_iff_isFirst ordered visible
      fun other => and_congr_left' mem_methodsNamed_iff.symm).mp fits)
  · refine .inr ⟨fun other declares => ?_, ?_⟩
    · simpa [acceptsArguments] using
        List.find?_eq_none.mp none other (mem_methodsNamed_iff.mpr declares)
    · exact (head?_eq_some_iff_isFirst ordered visible fun other =>
        mem_methodsNamed_iff.symm).mp first

end Place

namespace SourceFile

variable {root : Node} {source : String} {call method name : Place}

/-! ## The method of a call -/

/-- A scope around a call that declares a method of its name. -/
def MayMean (text : String) (scope : Place) : Prop :=
  scope.isTypeScope = true ∧ ∃ method, scope.DeclaresMethod text method

/-- A call without a receiver means no method only if no scope around it declares one of its
name. -/
theorem called?_unqualified_eq_none_iff (file : SourceFile)
    (alone : call.child? .object = none) (named : call.child? .name = some name) :
    file.called? call = none ↔ ∀ scope ∈ call.ancestors, ¬ MayMean name.text scope := by
  rw [called?, calledThrough?, named, Option.bind_some, alone]
  dsimp only
  simp only [List.findSome?_eq_none_iff, List.mem_filter, MayMean, not_and, not_exists, and_imp,
    Place.method?_eq_none_iff]

/-- The method that a call without a receiver means is looked up in the innermost scope around the
call that declares one of its name. -/
theorem isInnermost_of_called? (file : SourceFile) (alone : call.child? .object = none)
    (named : call.child? .name = some name) (called : file.called? call = some method) :
    ∃ scope, Place.IsInnermost call (MayMean name.text) scope ∧
      scope.method? name.text call.argumentCount = some method := by
  rw [called?, calledThrough?, named, Option.bind_some, alone] at called
  obtain ⟨before, scope, after, scopes, found, passed⟩ := List.findSome?_eq_some_iff.mp called
  obtain ⟨front, back, around, filtered, rest⟩ := List.filter_eq_append_iff.mp scopes
  obtain ⟨between, outer, rfl, noScopes, isScope, _⟩ := List.filter_eq_cons_iff.mp rest
  have split : call.ancestors = (front ++ between) ++ scope :: outer := by
    rw [around, List.append_assoc]
  have declares : ∃ method, scope.DeclaresMethod name.text method :=
    ⟨method, Place.mem_methodsNamed_iff.mp (Place.mem_methodsNamed_of_method? found)⟩
  refine ⟨scope, ⟨by simp [split], ⟨isScope, declares⟩, fun other listed may => ?_⟩, found⟩
  obtain ⟨isOther, declared, declaresOther⟩ := may
  rw [split, List.mem_append, List.mem_append] at listed
  rcases listed with (inFront | inBetween) | further
  · have searched : other ∈ before := filtered ▸ List.mem_filter.mpr ⟨inFront, isOther⟩
    exact absurd declaresOther (Place.method?_eq_none_iff.mp (passed other searched) declared)
  · exact absurd isOther (noScopes other inBetween)
  · rwa [Place.outward, ← Place.ancestors_eq_append split]

/-- The parameters of the method that a call means are as many as its arguments, if it accepts
them; one that takes any number of values has at most one parameter more. -/
theorem parameters_of_called? (accepted : accepts source = true)
    (held : (parse source).Holds call)
    (called : (ofRoot (parse source)).called? call = some method) :
    ∃ list enclosing simple types, method.child? .parameters = some list ∧
      (ofRoot (parse source)).methodElement method = .method enclosing simple types ∧
      (list.takes call.argumentCount = true →
        if list.isVariadic then types.length ≤ call.argumentCount + 1
        else types.length = call.argumentCount) := by
  have heldCall : (ofRoot (parse source)).root.Holds call := held
  obtain ⟨own, scope, _, heldScope, listed⟩ := called?_eq_some heldCall called
  obtain ⟨inside, isMethod, _⟩ := Place.mem_methodsNamed listed
  have heldMethod : (parse source).Holds method := Place.held_of_mem_scopeMembers heldScope inside
  obtain ⟨list, found⟩ : ∃ list, method.child? .parameters = some list :=
    exists_child? accepted heldMethod (Place.isAny_of_is isMethod (List.mem_singleton_self _))
      (by decide)
  refine ⟨list, (method.enclosingScope?.map (ofRoot (parse source)).scopeName).getD "",
    method.declaredName?.getD "", list.parameterTypes, found, ?_, fun takes => ?_⟩
  · rw [methodElement, found, Option.map_some, Option.getD_some]
  rw [length_parameterTypes accepted (heldMethod.of_child? found)]
  cases variadic : list.isVariadic with
  | true => exact (Place.takes_of_isVariadic variadic).mp takes
  | false => exact (Place.takes_of_not_isVariadic variadic).mp takes

/-- Which method is meant. In a type scope, none is exactly if it directly declares none of the
name; else the first one in the source that accepts the number of arguments, or the first one if
none does. A call without a receiver is looked up in the innermost scope around it that declares a
method of the name. The method that a call means has as many parameters as there are arguments
whenever it accepts them, or at most one more if it takes any number of values; the arguments are
one more than the commas between them, if there are any. -/
theorem method_selection (accepted : accepts source = true) :
    (∀ (scope : Place) (text : String) (count : Nat), (parse source).Holds scope →
      scope.isTypeScope = true →
      (scope.method? text count = none ↔ ∀ method, ¬ scope.DeclaresMethod text method) ∧
      ∀ method, scope.method? text count = some method →
        Place.IsFirst (fun other => scope.DeclaresMethod text other ∧
            other.acceptsArguments count = true) method ∨
          (∀ other, scope.DeclaresMethod text other → other.acceptsArguments count = false) ∧
            Place.IsFirst (scope.DeclaresMethod text) method) ∧
    (∀ call name : Place, (parse source).Holds call → call.is .methodInvocation = true →
      call.child? .object = none → call.child? .name = some name →
      ((ofRoot (parse source)).called? call = none ↔
        ∀ scope ∈ call.ancestors, ¬ MayMean name.text scope) ∧
      ∀ method, (ofRoot (parse source)).called? call = some method →
        ∃ scope, Place.IsInnermost call (MayMean name.text) scope ∧
          scope.method? name.text call.argumentCount = some method) ∧
    ∀ call method : Place, (parse source).Holds call → call.is .methodInvocation = true →
      (ofRoot (parse source)).called? call = some method →
      (∃ arguments, call.child? .arguments = some arguments ∧
        (call.argumentCount = 0 ∧ arguments.commas = 0 ∨
          call.argumentCount = arguments.commas + 1)) ∧
      ∃ list enclosing simple types, method.child? .parameters = some list ∧
        (ofRoot (parse source)).methodElement method = .method enclosing simple types ∧
        (list.takes call.argumentCount = true →
          if list.isVariadic then types.length ≤ call.argumentCount + 1
          else types.length = call.argumentCount) := by
  refine ⟨?inScope, ?unqualified, ?counted⟩
  case inScope =>
    intro scope text count held _
    exact ⟨Place.method?_eq_none_iff, fun method found =>
      Place.isFirst_of_method? (wellFormed_parse accepted) held found⟩
  case unqualified =>
    intro call name _ _ alone named
    exact ⟨called?_unqualified_eq_none_iff _ alone named,
      fun method called => isInnermost_of_called? _ alone named called⟩
  case counted =>
    intro call method held isCall called
    exact ⟨argumentCount_eq accepted held (Place.isAny_of_is isCall (by decide)),
      parameters_of_called? accepted held called⟩

/-- A call in a nested class of a method that the outer class declares, too. -/
def nestedCall : String :=
  "class A { void m(int a, int b) { } class B { void m(int... a) { } int x = m(1, /* c */ 2); } }"

/-- The call means the method of the nested class that takes any number of values. -/
theorem method_selection_nested : accepts nestedCall = true ∧
    ∃ call method scope arguments list : Place, ∃ enclosing simple types,
      (parse nestedCall).Holds call ∧
      (ofRoot (parse nestedCall)).called? call = some method ∧
      Place.IsInnermost call (MayMean "m") scope ∧
      Place.IsFirst (fun other => scope.DeclaresMethod "m" other ∧
        other.acceptsArguments 2 = true) method ∧
      call.child? .arguments = some arguments ∧ arguments.commas = 1 ∧
      method.child? .parameters = some list ∧ list.isVariadic = true ∧
      (ofRoot (parse nestedCall)).methodElement method = .method enclosing simple types ∧
      types.length ≤ 2 + 1 := by
  have used : (accepts nestedCall && ((parse nestedCall).places []).any fun call =>
      call.is .methodInvocation && (call.child? .object).isNone && call.argumentCount == 2 &&
        (call.child? .name).any (·.text == "m") &&
        ((ofRoot (parse nestedCall)).called? call).any fun method =>
          (method.child? .parameters).any fun list => list.isVariadic && list.takes 2) =
      true := by decide +kernel
  obtain ⟨accepted, call, held, used⟩ := exists_held_of_search used
  simp only [Bool.and_eq_true, Option.any_eq_true, Option.isNone_iff_eq_none, beq_iff_eq] at used
  obtain ⟨⟨⟨⟨isCall, alone⟩, two⟩, name, named, isM⟩, method, called, list, found, variadic,
    takes⟩ := used
  obtain ⟨inScope, unqualified, counted⟩ := method_selection accepted
  obtain ⟨scope, innermost, chosen⟩ :=
    (unqualified call name held isCall alone named).2 method called
  rw [isM, two] at chosen
  rw [isM] at innermost
  have accepting : method.acceptsArguments 2 = true := by
    simp [Place.acceptsArguments, found, takes]
  have first := ((inScope scope "m" 2 (held.of_ancestor innermost.1) innermost.2.1.1).2 method
    chosen).resolve_right fun ⟨refused, isFirst⟩ => by
      simp [refused method isFirst.1] at accepting
  obtain ⟨⟨arguments, given, commas⟩, own, enclosing, simple, types, found', element, agree⟩ :=
    counted call method held isCall called
  obtain rfl := Option.some.inj (found.symm.trans found')
  rw [two, variadic] at agree
  exact ⟨accepted, call, method, scope, arguments, list, enclosing, simple, types, held, called,
    innermost, first, given, by omega, found, variadic, element, agree takes⟩

/-! ## Several overloads that fit -/

/-- A list of parameters takes a number of arguments as it has just as many parameters. -/
def TakesFixed (count : Nat) (list? : Option Place) : Prop :=
  ∃ list, list? = some list ∧ list.isVariadic = false ∧ list.parameters.length = count

/-- A list of parameters takes a number of arguments as its last one takes any number of values. -/
def TakesVariably (count : Nat) (list? : Option Place) : Prop :=
  ∃ list, list? = some list ∧ list.isVariadic = true ∧ list.parameters.length ≤ count + 1

/-- Whether a list has just as many parameters is a test of it. -/
theorem takesFixed_iff {count : Nat} {list? : Option Place} :
    TakesFixed count list? ↔ list?.any (fun list => !list.isVariadic && list.takes count) := by
  simp only [TakesFixed, Option.any_eq_true, Bool.and_eq_true, Bool.not_eq_true']
  refine exists_congr fun list => and_congr_right fun _ => and_congr_right fun fixed => ?_
  exact (Place.takes_of_not_isVariadic fixed).symm

/-- Whether the last parameter of a list makes up for the number of arguments is a test of it. -/
theorem takesVariably_iff {count : Nat} {list? : Option Place} :
    TakesVariably count list? ↔ list?.any (fun list => list.isVariadic && list.takes count) := by
  simp only [TakesVariably, Option.any_eq_true, Bool.and_eq_true]
  refine exists_congr fun list => and_congr_right fun _ => and_congr_right fun variadic => ?_
  exact (Place.takes_of_isVariadic variadic).symm

/-- A list takes arguments in one of the two ways. -/
theorem any_takes_iff {count : Nat} {list? : Option Place} :
    list?.any (·.takes count) = true ↔ TakesFixed count list? ∨ TakesVariably count list? := by
  rw [takesFixed_iff, takesVariably_iff]
  cases list? with
  | none => simp
  | some list => cases variadic : list.isVariadic <;> simp [variadic]

/-- Among candidates one has just as many parameters as there are arguments, and none of those
before it has. -/
structure FirstFixed (count : Nat) (parameters? : Place → Option Place)
    (candidates before : List Place) (fixed : Place) : Prop where
  listed : ∃ after, candidates = before ++ fixed :: after
  fits : TakesFixed count (parameters? fixed)
  first : ∀ other ∈ before, ¬ TakesFixed count (parameters? other)

/-- If some candidate has just as many parameters, there is a first one. -/
theorem exists_firstFixed {count : Nat} {parameters? : Place → Option Place}
    {candidates : List Place} {fixed : Place} (listed : fixed ∈ candidates)
    (fits : TakesFixed count (parameters? fixed)) :
    ∃ before first, FirstFixed count parameters? candidates before first := by
  have search : (candidates.find? fun candidate => (parameters? candidate).any
      fun list => !list.isVariadic && list.takes count).isSome = true :=
    List.find?_isSome.mpr ⟨fixed, listed, takesFixed_iff.mp fits⟩
  obtain ⟨first, found⟩ := Option.isSome_iff_exists.mp search
  obtain ⟨passes, before, after, same, refused⟩ := List.find?_eq_some_iff_append.mp found
  refine ⟨before, first, ⟨after, same⟩, takesFixed_iff.mpr passes, fun other among early => ?_⟩
  have passed := refused other among
  rw [takesFixed_iff.mp early] at passed
  contradiction

/-- The candidate that wins over one with just as many parameters: the first one before it that
takes any number of values and accepts the arguments, or itself if there is none. -/
inductive Wins (count : Nat) (parameters? : Place → Option Place) (before : List Place)
    (fixed : Place) : Place → Prop
  | itself (alone : ∀ other ∈ before, ¬ TakesVariably count (parameters? other)) :
    Wins count parameters? before fixed fixed
  | earlier {front back : List Place} {variadic : Place}
    (listed : before = front ++ variadic :: back)
    (fits : TakesVariably count (parameters? variadic))
    (first : ∀ other ∈ front, ¬ TakesVariably count (parameters? other)) :
    Wins count parameters? before fixed variadic

/-- A search for the first candidate that accepts the arguments ends at the one that wins. -/
theorem FirstFixed.exists_wins {count : Nat} {parameters? : Place → Option Place}
    {candidates before : List Place} {fixed : Place}
    (fixedAt : FirstFixed count parameters? candidates before fixed) :
    ∃ chosen, Wins count parameters? before fixed chosen ∧
      candidates.find? (fun candidate => (parameters? candidate).any (·.takes count)) =
        some chosen := by
  obtain ⟨⟨after, rfl⟩, fits, noFixed⟩ := fixedAt
  have atFixed : (fixed :: after).find? (fun candidate => (parameters? candidate).any
      (·.takes count)) = some fixed := List.find?_cons_of_pos (any_takes_iff.mpr (.inl fits))
  rw [List.find?_append, atFixed]
  have variably : ∀ other ∈ before, (parameters? other).any (·.takes count) = true →
      TakesVariably count (parameters? other) := fun other among takes =>
    (any_takes_iff.mp takes).resolve_left (noFixed other among)
  cases found : before.find? (fun candidate => (parameters? candidate).any (·.takes count)) with
  | none =>
    refine ⟨fixed, .itself fun other among takes => ?_, rfl⟩
    exact List.find?_eq_none.mp found other among (any_takes_iff.mpr (.inr takes))
  | some variadic =>
    obtain ⟨takes, front, back, rfl, passed⟩ := List.find?_eq_some_iff_append.mp found
    refine ⟨variadic, .earlier rfl (variably variadic (by simp) takes) fun other among early => ?_,
      rfl⟩
    have refused := passed other among
    simp [any_takes_iff.mpr (.inr early)] at refused

/-- The parameters of a constructor that a scope declares: a compact one has the components of its
record. -/
def constructorParameters? (scope constructor : Place) : Option Place :=
  if constructor.is .compactConstructorDeclaration then scope.components?
  else constructor.child? .parameters

/-- A constructor that a search finds is the one that is meant. -/
theorem constructorOf?_of_find? (file : SourceFile) {scope constructor : Place} {count : Nat}
    (found : scope.constructors.find?
      (fun other => (constructorParameters? scope other).any (·.takes count)) = some constructor) :
    file.constructorOf? scope count = some (file.constructorElement constructor) := by
  have inside : constructor ∈ scope.scopeMembers :=
    (List.mem_filter.mp (List.mem_of_find?_eq_some found)).1
  have search : scope.constructors.find? (constructorTakes scope.components? count) =
      some constructor := found
  refine constructorOf?_of_writtenConstructor? file ?_
  cases body : scope.typeBody? with
  | none => simp [Place.scopeMembers, body] at inside
  | some members => simp [writtenConstructor?, body, search]

/-- If a scope declares a method of a name with just as many parameters as there are arguments, the
first such method is meant, unless another that takes any number of values and accepts the arguments
stands before it: then the first such other. The same holds of the constructors that it declares. -/
theorem first_accepting (file : SourceFile) (scope : Place) (count : Nat) :
    (∀ text : String, (∃ method, scope.DeclaresMethod text method ∧
        TakesFixed count (method.child? .parameters)) →
      ∃ before fixed chosen,
        FirstFixed count (·.child? .parameters) (scope.methodsNamed text) before fixed ∧
        Wins count (·.child? .parameters) before fixed chosen ∧
        scope.method? text count = some chosen) ∧
    ((∃ constructor ∈ scope.constructors,
        TakesFixed count (constructorParameters? scope constructor)) →
      ∃ before fixed chosen,
        FirstFixed count (constructorParameters? scope) scope.constructors before fixed ∧
        Wins count (constructorParameters? scope) before fixed chosen ∧
        file.constructorOf? scope count = some (file.constructorElement chosen)) := by
  constructor
  · rintro text ⟨method, declares, fits⟩
    have listed := Place.mem_methodsNamed_iff.mpr declares
    obtain ⟨before, fixed, fixedAt⟩ : ∃ before fixed,
        FirstFixed count (·.child? .parameters) (scope.methodsNamed text) before fixed :=
      exists_firstFixed listed fits
    obtain ⟨chosen, wins, found⟩ := fixedAt.exists_wins
    exact ⟨before, fixed, chosen, fixedAt, wins, by simp [Place.method?, found]⟩
  · rintro ⟨constructor, listed, fits⟩
    obtain ⟨before, fixed, fixedAt⟩ := exists_firstFixed listed fits
    obtain ⟨chosen, wins, found⟩ := fixedAt.exists_wins
    exact ⟨before, fixed, chosen, fixedAt, wins, constructorOf?_of_find? file found⟩

/-- A class with two constructors and two methods that can be given one number. -/
def variadicFirst : String :=
  "class L { L(int s) { } L(int... s) { } void m(int... a) { } void m(int b) { } int x = m(1); }"

/-- It has a method and a constructor with one parameter, and others stand before and after them. -/
theorem first_accepting_variadicFirst : accepts variadicFirst = true ∧
    ∃ scope method constructor : Place, (parse variadicFirst).Holds scope ∧
      scope.DeclaresMethod "m" method ∧ TakesFixed 1 (method.child? .parameters) ∧
      constructor ∈ scope.constructors ∧
      TakesFixed 1 (constructorParameters? scope constructor) ∧
      (∃ before fixed chosen,
        FirstFixed 1 (·.child? .parameters) (scope.methodsNamed "m") before fixed ∧
        Wins 1 (·.child? .parameters) before fixed chosen ∧
        scope.method? "m" 1 = some chosen) ∧
      ∃ before fixed chosen,
        FirstFixed 1 (constructorParameters? scope) scope.constructors before fixed ∧
        Wins 1 (constructorParameters? scope) before fixed chosen ∧
        (ofRoot (parse variadicFirst)).constructorOf? scope 1 =
          some ((ofRoot (parse variadicFirst)).constructorElement chosen) := by
  have used : (accepts variadicFirst && ((parse variadicFirst).places []).any fun scope =>
      ((scope.methodsNamed "m").any fun method =>
          (method.child? .parameters).any fun list => !list.isVariadic && list.takes 1) &&
        scope.constructors.any fun constructor =>
          (constructorParameters? scope constructor).any
            fun list => !list.isVariadic && list.takes 1) = true := by decide +kernel
  obtain ⟨accepted, scope, held, used⟩ := exists_held_of_search used
  simp only [Bool.and_eq_true, List.any_eq_true, ← takesFixed_iff] at used
  obtain ⟨⟨method, listed, fits⟩, constructor, inside, fits'⟩ := used
  have declares := Place.mem_methodsNamed_iff.mp listed
  obtain ⟨ofMethods, ofConstructors⟩ := first_accepting (ofRoot (parse variadicFirst)) scope 1
  exact ⟨accepted, scope, method, constructor, held, declares, fits, inside, fits',
    ofMethods "m" ⟨method, declares, fits⟩, ofConstructors ⟨constructor, inside, fits'⟩⟩

/-- A call with one number means the method that takes any number of values, which stands first,
and not the one with just one parameter. -/
theorem variadic_wins : accepts variadicFirst = true ∧
    ∃ scope fixed chosen name : Place, (parse variadicFirst).Holds scope ∧
      scope.isTypeScope = true ∧ scope.DeclaresMethod "m" fixed ∧
      TakesFixed 1 (fixed.child? .parameters) ∧ scope.method? "m" 1 = some chosen ∧
      TakesVariably 1 (chosen.child? .parameters) ∧
      (ofRoot (parse variadicFirst)).Shows name (.method "L" "m" [.array "int..."]) := by
  have used : (accepts variadicFirst && ((parse variadicFirst).places []).any fun scope =>
      scope.isTypeScope && ((scope.methodsNamed "m").any fun fixed =>
          (fixed.child? .parameters).any fun list => !list.isVariadic && list.takes 1) &&
        (scope.method? "m" 1).any fun chosen =>
          ((chosen.child? .parameters).any fun list => list.isVariadic && list.takes 1) &&
            ((parse variadicFirst).places []).any fun name => name.is .identifier &&
              (name.parent?.any (·.is .methodInvocation)) &&
              (ofRoot (parse variadicFirst)).nameElement name ==
                .method "L" "m" [.array "int..."]) = true := by decide +kernel
  obtain ⟨accepted, scope, held, used⟩ := exists_held_of_search used
  simp only [Bool.and_eq_true, List.any_eq_true, ← takesFixed_iff] at used
  obtain ⟨⟨isScope, fixed, listed, fits⟩, chosen⟩ := used
  obtain ⟨chosen, found, used⟩ := (Option.any_eq_true _ _).mp chosen
  simp only [Bool.and_eq_true, List.any_eq_true, ← takesVariably_iff, beq_iff_eq] at used
  obtain ⟨variably, name, listed', ⟨isIdentifier, _⟩, means⟩ := used
  have heldName : (parse variadicFirst).Holds name := Node.Holds.root.of_mem_places listed'
  exact ⟨accepted, scope, fixed, chosen, name, held, isScope, Place.mem_methodsNamed_iff.mp listed,
    fits, found, variably, (shows_name_iff (wellFormed_parse accepted) heldName
      (isName_of_identifier isIdentifier)).mpr means⟩

end SourceFile

end CaretName
