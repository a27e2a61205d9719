import CaretName.Proofs.SourceFile.Overloads

/-!
# Which constructor is meant

The creation of an object calls a constructor that the type declares, or one that it has without
declaring it: a record has one for its components, and a class without constructors has one without
parameters. `constructor_lookup` says which of them is meant for a number of arguments.
-/
namespace CaretName

open Grammar

namespace SourceFile

variable {source : String} {scope constructor : Place} {count : Nat}

/-- A type directly declares a constructor. -/
structure DeclaresConstructor (scope constructor : Place) : Prop where
  member : scope.HasMember constructor
  kind : constructor.isAny [.constructorDeclaration, .compactConstructorDeclaration] = true

/-- A type directly declares a constructor that accepts a number of arguments. -/
def Accepts (scope : Place) (count : Nat) (constructor : Place) : Prop :=
  DeclaresConstructor scope constructor ∧
    (constructorParameters? scope constructor).any (·.takes count) = true

/-- A record has components that accept a number of arguments. -/
def ComponentsAccept (scope : Place) (count : Nat) (list : Place) : Prop :=
  scope.components? = some list ∧ list.takes count = true

/-- The types of the parameters of a constructor of a type. -/
def constructorTypes (scope constructor : Place) : List TypeRef :=
  ((constructorParameters? scope constructor).map Place.parameterTypes).getD []

/-- What the creation of a type with a number of arguments calls: the first declared constructor
that accepts them, without such a one that of a record whose components accept them, that of a
class without constructors if there are no arguments, and else the first declared constructor. -/
inductive Creates (file : SourceFile) (scope : Place) (count : Nat) : Element → Prop
  | declared {constructor : Place} (first : Place.IsFirst (Accepts scope count) constructor) :
    Creates file scope count
      (.constructor (file.qualifiedName scope) (constructorTypes scope constructor))
  | canonical {list : Place} (unfit : ∀ other, ¬ Accepts scope count other)
    (components : ComponentsAccept scope count list) :
    Creates file scope count (.constructor (file.qualifiedName scope) list.parameterTypes)
  | implicit (isClass : scope.is .classDeclaration = true)
    (bare : ∀ other, ¬ DeclaresConstructor scope other) (noArguments : count = 0) :
    Creates file scope count (.constructor (file.qualifiedName scope) [])
  | fallback {constructor : Place} (unfit : ∀ other, ¬ Accepts scope count other)
    (unfitComponents : ∀ list, ¬ ComponentsAccept scope count list)
    (first : Place.IsFirst (DeclaresConstructor scope) constructor) :
    Creates file scope count
      (.constructor (file.qualifiedName scope) (constructorTypes scope constructor))

/-- The constructors are those that a type directly declares. -/
theorem mem_constructors_iff :
    constructor ∈ scope.constructors ↔ DeclaresConstructor scope constructor := by
  have direct (kind : constructor.isAny
      [.constructorDeclaration, .compactConstructorDeclaration] = true) :
      constructor ∈ scope.scopeMembers ↔ scope.HasMember constructor :=
    Place.mem_scopeMembers_iff (Place.isPart_of_isAny kind (by decide))
      (Place.is_eq_false kind (by decide))
  constructor
  · intro listed
    obtain ⟨inside, kind⟩ := List.mem_filter.mp listed
    exact ⟨(direct kind).mp inside, kind⟩
  · intro declares
    exact List.mem_filter.mpr ⟨(direct declares.kind).mpr declares.member, declares.kind⟩

/-- A class has no components. -/
theorem components?_of_class (isClass : scope.is .classDeclaration = true) :
    scope.components? = none := by
  have other : scope.is .recordDeclaration = false :=
    Place.is_eq_false (Place.isAny_of_is isClass (List.mem_singleton_self _)) (by decide)
  rw [Place.components?, other, if_neg Bool.false_ne_true]

/-- If all constructors of a class are compact they have no parameters. -/
theorem constructorTypes_of_class (isClass : scope.is .classDeclaration = true)
    (noOwn : scope.constructors.any (·.is .constructorDeclaration) = false)
    (declares : DeclaresConstructor scope constructor) :
    constructorTypes scope constructor = [] := by
  have other : constructor.is .constructorDeclaration = false := by
    simpa using List.any_eq_false.mp noOwn constructor (mem_constructors_iff.mpr declares)
  have compact : constructor.is .compactConstructorDeclaration = true := by
    have kind := declares.kind
    rw [Place.isAny_cons, other] at kind
    simpa [Place.isAny, Node.isAny, Place.is] using kind
  rw [constructorTypes, constructorParameters?, if_pos compact, components?_of_class isClass]
  rfl

/-- The parameters of a constructor are a list of the file. -/
theorem held_constructorParameters? {list : Place} (held : (parse source).Holds scope)
    (inside : DeclaresConstructor scope constructor)
    (found : constructorParameters? scope constructor = some list) :
    (parse source).Holds list := by
  have member := (List.mem_filter.mp (mem_constructors_iff.mpr inside)).1
  unfold constructorParameters? Place.components? at found
  split_ifs at found
  · exact held.of_child? found
  · exact (Place.held_of_mem_scopeMembers held member).of_child? found

section Accepted

variable (accepted : accepts source = true)

include accepted

/-- The constructors of a type are in the order of the source, and each takes up room. -/
theorem ordered_constructors (held : (parse source).Holds scope) :
    (scope.constructors.Pairwise fun first second => first.stop ≤ second.start) ∧
      ∀ other ∈ scope.constructors, other.start < other.stop := by
  have wf := wellFormed_parse accepted
  refine ⟨(Place.pairwise_scopeMembers wf.laid held).filter _, fun other listed => ?_⟩
  obtain ⟨inside, kind⟩ := List.mem_filter.mp listed
  exact Place.start_lt_stop wf (Place.held_of_mem_scopeMembers held inside)
    (Place.isAny_mono kind (by decide))

/-- The first constructor that accepts the arguments is what a search finds. -/
theorem find?_constructors_iff (held : (parse source).Holds scope) :
    scope.constructors.find? (constructorTakes scope.components? count) = some constructor ↔
      Place.IsFirst (Accepts scope count) constructor := by
  obtain ⟨ordered, visible⟩ := ordered_constructors accepted held
  exact Place.find?_eq_some_iff_isFirst ordered visible fun other =>
    and_congr_left' mem_constructors_iff.symm

/-- The element of a constructor of a type has the name of the type and the types of its
parameters. -/
theorem constructorElement_eq (held : (parse source).Holds scope)
    (declares : scope.isTypeDeclaration = true)
    (inside : DeclaresConstructor scope constructor) :
    (ofRoot (parse source)).constructorElement constructor =
      .constructor ((ofRoot (parse source)).qualifiedName scope)
        (constructorTypes scope constructor) := by
  have member := (List.mem_filter.mp (mem_constructors_iff.mpr inside)).1
  obtain ⟨_, around⟩ :=
    enclosingScope?_of_mem_scopeMembers (wellFormed_parse accepted) held declares member
  have parameters : (if constructor.is .compactConstructorDeclaration
      then scope.child? .parameters else constructor.child? .parameters) =
      constructorParameters? scope constructor := by
    unfold constructorParameters? Place.components?
    -- Only records have components, and no other type has parameters.
    cases isRecord : scope.is .recordDeclaration with
    | true => rfl
    | false =>
      have other : scope.isAny parameterless = true := by
        simpa [Place.isTypeDeclaration, typeDeclarations, parameterless, Place.isAny_cons,
          isRecord] using declares
      rw [child?_parameters_eq_none accepted held other]
      rfl
  rw [constructorElement, around, Option.map_some, Option.getD_some, scopeName_eq _ declares]
  simp only [Option.bind_some]
  rw [parameters]
  rfl

/-- The first declared constructor is the first of the list. -/
theorem head?_constructors_iff (held : (parse source).Holds scope) :
    scope.constructors.head? = some constructor ↔
      Place.IsFirst (DeclaresConstructor scope) constructor := by
  obtain ⟨ordered, visible⟩ := ordered_constructors accepted held
  exact Place.head?_eq_some_iff_isFirst ordered visible fun other => mem_constructors_iff.symm

/-- What is meant if neither a declared constructor nor the components of a record accept the
arguments: in a class without constructors and without arguments the one without parameters, and
else the first declared one. -/
theorem constructorOf?_of_nothing_fits (held : (parse source).Holds scope)
    (declares : scope.isTypeDeclaration = true)
    (unfit : ∀ other, ¬ Accepts scope count other)
    (unfitComponents : ∀ list, ¬ ComponentsAccept scope count list) (element : Element) :
    (if !scope.constructors.any (·.is .constructorDeclaration) && count == 0 &&
          scope.is .classDeclaration then
        some (.constructor ((ofRoot (parse source)).scopeName scope) [])
      else scope.constructors.head?.map (ofRoot (parse source)).constructorElement) =
        some element ↔ Creates (ofRoot (parse source)) scope count element := by
  cases first : scope.constructors.head? with
  | none =>
    have bare : ∀ other, ¬ DeclaresConstructor scope other := by
      intro other inside
      have listed := mem_constructors_iff.mpr inside
      simp [List.head?_eq_none_iff.mp first] at listed
    have noOwn : scope.constructors.any (·.is .constructorDeclaration) = false := by
      rw [List.head?_eq_none_iff.mp first]
      rfl
    rw [noOwn, scopeName_eq _ declares]
    constructor
    · intro means
      split at means
      · next implicit =>
        simp only [Bool.not_false, Bool.true_and, Bool.and_eq_true, beq_iff_eq] at implicit
        obtain rfl := Option.some.inj means
        exact .implicit implicit.2 bare implicit.1
      · contradiction
    · intro creates
      cases creates with
      | declared first => exact absurd first.1.1 (bare _)
      | canonical _ components => exact absurd components (unfitComponents _)
      | implicit isClass _ noArguments => simp [isClass, noArguments]
      | fallback _ _ first => exact absurd first.1 (bare _)
  | some constructor =>
    have isFirst := (head?_constructors_iff accepted held).mp first
    -- A class may have compact constructors only: they show what one without parameters shows.
    have means : (if !scope.constructors.any (·.is .constructorDeclaration) && count == 0 &&
          scope.is .classDeclaration then
        some (.constructor ((ofRoot (parse source)).scopeName scope) [])
      else (some constructor).map (ofRoot (parse source)).constructorElement) =
        some (.constructor ((ofRoot (parse source)).qualifiedName scope)
          (constructorTypes scope constructor)) := by
      split
      · next implicit =>
        simp only [Bool.and_eq_true, Bool.not_eq_true'] at implicit
        rw [scopeName_eq _ declares,
          constructorTypes_of_class implicit.2 implicit.1.1 isFirst.1]
      · rw [Option.map_some, constructorElement_eq accepted held declares isFirst.1]
    rw [means, Option.some.injEq]
    constructor
    · rintro rfl
      exact .fallback unfit unfitComponents isFirst
    · intro creates
      cases creates with
      | declared first => exact absurd first.1 (unfit _)
      | canonical _ components => exact absurd components (unfitComponents _)
      | implicit _ bare => exact absurd isFirst.1 (bare _)
      | fallback _ _ first' => rw [isFirst.unique first']

/-- What is meant if no declared constructor accepts the arguments. -/
theorem constructorOf?_of_unfit (held : (parse source).Holds scope)
    (declares : scope.isTypeDeclaration = true)
    (unfit : ∀ other, ¬ Accepts scope count other) (element : Element) :
    (if scope.components?.any (·.takes count) then
        scope.components?.map fun list =>
          .constructor ((ofRoot (parse source)).scopeName scope) list.parameterTypes
      else if !scope.constructors.any (·.is .constructorDeclaration) && count == 0 &&
          scope.is .classDeclaration then
        some (.constructor ((ofRoot (parse source)).scopeName scope) [])
      else scope.constructors.head?.map (ofRoot (parse source)).constructorElement) =
        some element ↔ Creates (ofRoot (parse source)) scope count element := by
  split
  · next fits =>
    obtain ⟨list, components, takes⟩ := (Option.any_eq_true _ _).mp fits
    rw [components, Option.map_some, Option.some.injEq, scopeName_eq _ declares]
    constructor
    · rintro rfl
      exact .canonical unfit ⟨components, takes⟩
    · intro creates
      cases creates with
      | declared first => exact absurd first.1 (unfit _)
      | canonical _ components' =>
        obtain rfl := Option.some.inj (components.symm.trans components'.1)
        rfl
      | implicit isClass => simp [components?_of_class isClass] at components
      | fallback _ unfitComponents => exact absurd ⟨components, takes⟩ (unfitComponents list)
  · next fails =>
    refine constructorOf?_of_nothing_fits accepted held declares unfit (fun list fits => ?_) element
    exact fails ((Option.any_eq_true _ _).mpr ⟨list, fits⟩)

/-- The creation of a type calls a constructor exactly as `Creates` says. -/
theorem constructorOf?_eq_some_iff (held : (parse source).Holds scope)
    (declares : scope.isTypeDeclaration = true) (count : Nat) (element : Element) :
    (ofRoot (parse source)).constructorOf? scope count = some element ↔
      Creates (ofRoot (parse source)) scope count element := by
  obtain ⟨body, found⟩ : ∃ body, scope.child? .body = some body :=
    exists_child? accepted held declares (by decide)
  have noBody : scope.is .classBody = false := Place.is_eq_false declares (by decide)
  have hasBody : scope.typeBody? = some body := by simp [Place.typeBody?, noBody, found]
  rw [constructorOf?, hasBody, Option.bind_some]
  dsimp only
  cases search : scope.constructors.find? (constructorTakes scope.components? count) with
  | none =>
    refine constructorOf?_of_unfit accepted held declares (fun other accepts => ?_) element
    exact List.find?_eq_none.mp search other (mem_constructors_iff.mpr accepts.1) accepts.2
  | some constructor =>
    have first := (find?_constructors_iff accepted held).mp search
    dsimp only
    rw [constructorElement_eq accepted held declares first.1.1, Option.some.injEq]
    constructor
    · rintro rfl
      exact .declared first
    · intro creates
      cases creates with
      | declared first' => rw [first.unique first']
      | canonical unfit | fallback unfit => exact absurd first.1 (unfit _)
      | implicit _ bare => exact absurd first.1.1 (bare _)

/-- The creation of a type calls nothing exactly if it declares no constructor, has no components
that accept the arguments, and is no class or is given arguments. -/
theorem constructorOf?_eq_none_iff (held : (parse source).Holds scope)
    (declares : scope.isTypeDeclaration = true) :
    (ofRoot (parse source)).constructorOf? scope count = none ↔
      (∀ other, ¬ DeclaresConstructor scope other) ∧
        (∀ list, ¬ ComponentsAccept scope count list) ∧
        ¬ (scope.is .classDeclaration = true ∧ count = 0) := by
  have calls := constructorOf?_eq_some_iff accepted held declares count
  constructor
  · intro nothing
    have never : ∀ element, ¬ Creates (ofRoot (parse source)) scope count element := by
      intro element creates
      simp [(calls element).mpr creates] at nothing
    have unfit : ∀ other, ¬ Accepts scope count other := by
      intro other accepts
      cases search : scope.constructors.find? (constructorTakes scope.components? count) with
      | none =>
        exact List.find?_eq_none.mp search other (mem_constructors_iff.mpr accepts.1) accepts.2
      | some first => exact never _ (.declared ((find?_constructors_iff accepted held).mp search))
    have unfitComponents : ∀ list, ¬ ComponentsAccept scope count list :=
      fun list fits => never _ (.canonical unfit fits)
    have bare : ∀ other, ¬ DeclaresConstructor scope other := by
      intro other inside
      cases first : scope.constructors.head? with
      | none =>
        have listed := mem_constructors_iff.mpr inside
        simp [List.head?_eq_none_iff.mp first] at listed
      | some constructor =>
        exact never _
          (.fallback unfit unfitComponents ((head?_constructors_iff accepted held).mp first))
    exact ⟨bare, unfitComponents, fun implicit => never _ (.implicit implicit.1 bare implicit.2)⟩
  · rintro ⟨bare, unfitComponents, explicit⟩
    refine Option.eq_none_iff_forall_ne_some.mpr fun element means => ?_
    cases (calls element).mp means with
    | declared first => exact bare _ first.1.1
    | canonical _ components => exact unfitComponents _ components
    | implicit isClass _ noArguments => exact explicit ⟨isClass, noArguments⟩
    | fallback _ _ first => exact bare _ first.1

/-- Which constructor is meant, in a type and for a number of arguments: what `Creates` says, and
none exactly if there is nothing to call. It belongs to the type, and where a list of parameters
accepts the arguments although it is not variadic, as many types are shown as there are
arguments. -/
theorem constructor_lookup (scope : Place) (count : Nat) (held : (parse source).Holds scope)
    (declares : scope.isTypeDeclaration = true) :
    (∀ element, (ofRoot (parse source)).constructorOf? scope count = some element ↔
      Creates (ofRoot (parse source)) scope count element) ∧
    ((ofRoot (parse source)).constructorOf? scope count = none ↔
      (∀ other, ¬ DeclaresConstructor scope other) ∧
        (∀ list, ¬ ComponentsAccept scope count list) ∧
        ¬ (scope.is .classDeclaration = true ∧ count = 0)) ∧
    (∀ element, (ofRoot (parse source)).constructorOf? scope count = some element →
      ∃ types, element = .constructor ((ofRoot (parse source)).qualifiedName scope) types) ∧
    (∀ constructor list, Accepts scope count constructor →
      constructorParameters? scope constructor = some list → list.isVariadic = false →
      (constructorTypes scope constructor).length = count) ∧
    ∀ list, ComponentsAccept scope count list → list.isVariadic = false →
      list.parameterTypes.length = count := by
  have calls := constructorOf?_eq_some_iff accepted held declares count
  refine ⟨calls, constructorOf?_eq_none_iff accepted held declares, ?ofType, ?ofConstructor,
    ?ofComponents⟩
  case ofType =>
    intro element means
    cases (calls element).mp means with
    | declared | canonical | implicit | fallback => exact ⟨_, rfl⟩
  case ofConstructor =>
    intro constructor list accepts found fixed
    have heldList := held_constructorParameters? held accepts.1 found
    have takes := accepts.2
    rw [found] at takes
    rw [constructorTypes, found, Option.map_some, Option.getD_some,
      length_parameterTypes accepted heldList]
    exact (Place.takes_of_not_isVariadic fixed).mp takes
  case ofComponents =>
    intro list fits fixed
    have found : scope.child? .parameters = some list := by
      have components := fits.1
      rw [Place.components?] at components
      split_ifs at components
      exact components
    rw [length_parameterTypes accepted (held.of_child? found)]
    exact (Place.takes_of_not_isVariadic fixed).mp fits.2

end Accepted

/-- A record with a compact constructor after one of its own. -/
def compactAfter : String := "record R(int a, int b) { R(int c) { this(c, c); } R { } }"

/-- Two arguments are for the compact constructor of the record, and two types are shown. -/
theorem constructor_lookup_compactAfter : accepts compactAfter = true ∧
    ∃ scope constructor : Place, (parse compactAfter).Holds scope ∧
      constructor.is .compactConstructorDeclaration = true ∧
      (ofRoot (parse compactAfter)).constructorOf? scope 2 =
        some (.constructor ((ofRoot (parse compactAfter)).qualifiedName scope)
          (constructorTypes scope constructor)) ∧
      (constructorTypes scope constructor).length = 2 := by
  have used : (accepts compactAfter && ((parse compactAfter).places []).any fun scope =>
      scope.isTypeDeclaration && scope.components?.any (!·.isVariadic) &&
        (scope.constructors.find? (constructorTakes scope.components? 2)).any
          (·.is .compactConstructorDeclaration)) = true := by decide +kernel
  obtain ⟨accepted, scope, held, used⟩ := exists_held_of_search used
  simp only [Bool.and_eq_true, Option.any_eq_true, Bool.not_eq_true'] at used
  obtain ⟨⟨declares, list, components, fixed⟩, constructor, found, compact⟩ := used
  have first := (find?_constructors_iff accepted held).mp found
  have parameters : constructorParameters? scope constructor = some list := by
    rw [constructorParameters?, if_pos compact, components]
  obtain ⟨calls, _, _, counted, _⟩ := constructor_lookup accepted scope 2 held declares
  exact ⟨accepted, scope, constructor, held, compact, (calls _).mpr (.declared first),
    counted constructor list first.1 parameters fixed⟩

end SourceFile

end CaretName
