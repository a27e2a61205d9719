import CaretName.Proofs.SourceFile.Identity
import CaretName.Proofs.SourceFile.Inference
import CaretName.Proofs.SourceFile.Inheritance
import CaretName.Proofs.SourceFile.Overloads
import CaretName.Proofs.Tree.Preorder

/-!
# Labels of switches

A constant in a label of a switch is searched for in all enums of the file, whatever the switch
selects by. `label_names_first_constant` says which constant is found: that of the first enum that
has one of the name. It goes by the name of the enum that is selected by only if that enum comes
first.
-/
namespace CaretName

open Grammar

namespace Place

variable {root : Node} {place other enum constant own : Place} {text : String}

/-! ## The order of all places -/

/-- A place comes before another: it has ended where the other starts, or the other stands in it. -/
def Precedes (place other : Place) : Prop := place.stop ≤ other.start ∨ place ∈ other.ancestors

/-- The places of a tree are listed in their order. -/
theorem pairwise_places (laid : root.Laid) (held : root.Holds place) :
    (place.node.places place.above).Pairwise Precedes := by
  refine pairwise_places_of place .inr fun around listed => ?_
  have held := held.of_mem_places listed
  have parts : around.parts.Pairwise fun first second => first.stop ≤ second.start :=
    (pairwise_children (held.laid laid)).filter _
  refine parts.imp_of_mem fun {first second} isFirst isSecond apart one among two among' => ?_
  have heldFirst := (held.of_part isFirst).of_mem_places among
  have heldSecond := (held.of_part isSecond).of_mem_places among'
  have ended := (heldFirst.within_outward laid (mem_outward_of_mem_places among)).2
  have starts := (heldSecond.within_outward laid (mem_outward_of_mem_places among')).1
  exact .inl (by omega)

/-! ## Constants of enums -/

/-- An enum directly declares a constant with a name. -/
structure DeclaresConstant (enum : Place) (text : String) (constant own : Place) : Prop where
  isEnum : enum.is .enumDeclaration = true
  member : enum.HasMember constant
  isConstant : constant.is .enumConstant = true
  named : constant.nameIs? text = some own

/-- The name of a constant, if it has the given spelling. -/
def constantNamed? (text : String) (member : Place) : Option Place :=
  if member.is .enumConstant then member.nameIs? text else none

/-- The constants are among the members of an enum. -/
theorem DeclaresConstant.mem_scopeMembers (declares : enum.DeclaresConstant text constant own) :
    constant ∈ enum.scopeMembers := by
  have kinds := isAny_of_is declares.isConstant (List.mem_singleton_self _)
  exact (mem_scopeMembers_iff (isPart_of_isAny kinds (by decide))
    (is_eq_false kinds (by decide))).mpr declares.member

/-- A member of an enum is a constant of it by its name. -/
theorem constantNamed?_eq_some (isEnum : enum.is .enumDeclaration = true)
    (inside : constant ∈ enum.scopeMembers) :
    constantNamed? text constant = some own ↔ enum.DeclaresConstant text constant own := by
  unfold constantNamed?
  split
  · next isConstant =>
    have kinds := isAny_of_is isConstant (List.mem_singleton_self _)
    have member := (mem_scopeMembers_iff (isPart_of_isAny kinds (by decide))
      (is_eq_false kinds (by decide))).mp inside
    exact ⟨fun named => ⟨isEnum, member, isConstant, named⟩, fun declares => declares.named⟩
  · next other => exact ⟨nofun, fun declares => absurd declares.isConstant other⟩

/-- The first enum of a file that declares a constant with a name, and the first such constant in
it. -/
structure FirstConstant (root : Node) (text : String) (enum constant own : Place) : Prop where
  held : root.Holds enum
  declares : enum.DeclaresConstant text constant own
  firstEnum : ∀ other constant' own', root.Holds other →
    other.DeclaresConstant text constant' own' → other = enum ∨ enum.Precedes other
  firstConstant : ∀ constant' own', enum.DeclaresConstant text constant' own' →
    constant' = constant ∨ constant.stop ≤ constant'.start

end Place

namespace SourceFile

variable {root : Node} {source text : String} {name enum constant own label : Place}

/-- A constant goes by the name of its enum. -/
theorem shows_constant (wf : WellFormed root) (held : root.Holds enum)
    (declares : enum.DeclaresConstant text constant own) :
    ∃ simple, enum.declaredName? = some simple ∧
      own.variableElement = .variable simple text ∧
      (ofRoot root).Shows own (.variable simple text) := by
  have isType : enum.isTypeDeclaration = true := Place.isAny_of_is declares.isEnum (by decide)
  obtain ⟨word, named, _⟩ := wf.exists_name held (Place.isAny_of_is declares.isEnum (by decide))
  have simple : enum.declaredName? = some word.text := by rw [Place.declaredName?, named]; rfl
  obtain ⟨heldConstant, scope⟩ :=
    enclosingScope?_of_mem_scopeMembers wf held isType declares.mem_scopeMembers
  have belongs : constant.enclosingType?.bind Place.declaredName? = some word.text := by
    rw [Place.enclosingType?_of_enclosingScope? scope, if_pos isType, Option.bind_some, simple]
  obtain ⟨child, chosen, spells⟩ := Option.bind_eq_some_iff.mp declares.named
  obtain ⟨rfl, isIdentifier, spelled⟩ := Place.named?_eq_some spells
  have above := Place.parent?_of_mem_children (Place.mem_children_of_child? chosen).1
  have introduces : constant.isAny Place.introducers = true :=
    Place.isAny_of_is declares.isConstant (by decide)
  have declared := Place.declaresVariable_of_child? introduces chosen
  have means : own.variableElement = .variable word.text text :=
    (Place.variableElement_eq_variable_iff declared).mpr
      ⟨.constant above declares.isConstant belongs, spelled⟩
  refine ⟨word.text, simple, means, ?_⟩
  rw [shows_name_iff wf (heldConstant.of_child? chosen) (isName_of_identifier isIdentifier),
    nameElement_of_declaresVariable _ declared, means]

/-- A search in lists one after another is one in each of them in turn. -/
theorem findSome?_flatMap {α β γ : Type} (search : β → Option γ) (change : α → List β)
    (list : List α) : (list.flatMap change).findSome? search =
      list.findSome? fun item => (change item).findSome? search := by
  induction list with
  | nil => rfl
  | cons item rest ih =>
    rw [List.flatMap_cons, List.findSome?_append, ih, List.findSome?_cons]
    cases (change item).findSome? search <;> rfl

/-- A search in a list in order ends at the first item that gives a result. -/
theorem exists_first_of_findSome? {α β : Type} {search : α → Option β} {before : α → α → Prop}
    {list : List α} {result : β} (ordered : list.Pairwise before)
    (found : list.findSome? search = some result) :
    ∃ first ∈ list, search first = some result ∧
      ∀ other ∈ list, (search other).isSome = true → other = first ∨ before first other := by
  obtain ⟨front, first, back, rfl, named, passed⟩ := List.findSome?_eq_some_iff.mp found
  refine ⟨first, by simp, named, fun other listed named' => ?_⟩
  rcases List.mem_append.mp listed with early | late
  · simp [passed other early] at named'
  · exact (List.mem_cons.mp late).imp_right
      ((List.pairwise_cons.mp (List.pairwise_append.mp ordered).2.1).1 other)

/-- The constant of a name is that of the first enum that declares one. -/
theorem exists_firstConstant (wf : WellFormed root) (held : root.Holds enum)
    (declares : enum.DeclaresConstant text constant own) :
    ∃ first constant' own', Place.FirstConstant root text first constant' own' ∧
      (ofRoot root).enumConstant? text = some own' := by
  have enums {enum : Place} (held : root.Holds enum) (isEnum : enum.is .enumDeclaration = true) :
      enum ∈ (ofRoot root).allTypes.filter (·.is .enumDeclaration) :=
    List.mem_filter.mpr ⟨mem_allTypes wf held (Place.isAny_of_is isEnum (by decide)), isEnum⟩
  have search : (ofRoot root).enumConstant? text =
      ((ofRoot root).allTypes.filter (·.is .enumDeclaration)).findSome? fun enum =>
        enum.scopeMembers.findSome? (Place.constantNamed? text) := findSome?_flatMap _ _ _
  have named {enum constant own : Place} (declares : enum.DeclaresConstant text constant own) :
      (Place.constantNamed? text constant).isSome = true := by
    rw [(Place.constantNamed?_eq_some declares.isEnum declares.mem_scopeMembers).mpr declares]
    rfl
  have finds {enum constant own : Place} (declares : enum.DeclaresConstant text constant own) :
      (enum.scopeMembers.findSome? (Place.constantNamed? text)).isSome = true :=
    List.findSome?_isSome_iff.mpr ⟨constant, declares.mem_scopeMembers, named declares⟩
  obtain ⟨own', found⟩ : ∃ own', (ofRoot root).enumConstant? text = some own' := by
    rw [← Option.isSome_iff_exists, search, List.findSome?_isSome_iff]
    exact ⟨enum, enums held declares.isEnum, finds declares⟩
  have ordered : ((ofRoot root).allTypes.filter (·.is .enumDeclaration)).Pairwise
      Place.Precedes := by
    rw [allTypes_eq]
    exact ((Place.pairwise_places wf.laid .root).filter _).filter _
  obtain ⟨first, listed, foundFirst, enumsBehind⟩ :=
    exists_first_of_findSome? ordered (search.symm.trans found)
  have heldFirst := (held_of_mem_allTypes (List.mem_filter.mp listed).1).1
  have isEnum := (List.mem_filter.mp listed).2
  obtain ⟨constant', inside, foundConstant, membersBehind⟩ :=
    exists_first_of_findSome? (Place.pairwise_scopeMembers wf.laid heldFirst) foundFirst
  refine ⟨first, constant', own', ⟨heldFirst, ?_, ?_, ?_⟩, found⟩
  · exact (Place.constantNamed?_eq_some isEnum inside).mp foundConstant
  · intro other constant own heldOther declares
    exact enumsBehind other (enums heldOther declares.isEnum) (finds declares)
  · intro constant own declares
    exact membersBehind constant declares.mem_scopeMembers (named declares)

/-! ## Labels -/

/-- The declaration in this file of the type that a switch around a label selects by, if the switch
selects by a variable. -/
def selectedType? (file : SourceFile) (label : Place) : Option Place :=
  (label.ancestors.find? (·.is .switchExpression)).bind fun switch =>
    (switch.child? .condition).bind fun condition =>
      condition.parts.head?.bind fun selector =>
        if selector.is .identifier then
          (selector.variableNamed? selector.text).bind file.variableType?
        else none

/-- A name in a label of a switch is that of a constant of the enum that the switch selects by. -/
structure LabelsConstant (root : Node) (name enum constant own : Place) : Prop where
  held : root.Holds name
  isIdentifier : name.is .identifier = true
  outside : ∀ around ∈ name.ancestors, around.isAny headerConstructs = false
  labels : ∃ label, name.parent? = some label ∧ label.is .switchLabel = true ∧
    (ofRoot root).selectedType? label = some enum
  declares : enum.DeclaresConstant name.text constant own

/-- The enum that a switch selects by belongs to the tree. -/
theorem held_of_selectedType? (held : root.Holds label)
    (selected : (ofRoot root).selectedType? label = some enum) : root.Holds enum := by
  obtain ⟨switch, around, selected⟩ := Option.bind_eq_some_iff.mp selected
  obtain ⟨condition, found, selected⟩ := Option.bind_eq_some_iff.mp selected
  obtain ⟨selector, first, selected⟩ := Option.bind_eq_some_iff.mp selected
  have heldSwitch := held.of_ancestor (List.mem_of_find?_eq_some around)
  have heldSelector := (heldSwitch.of_child? found).of_part (List.mem_of_head? first)
  split at selected
  · obtain ⟨declaration, named, typed⟩ := Option.bind_eq_some_iff.mp selected
    exact held_of_variableType? (Place.isVariable_of_variableNamed? heldSelector named).held typed
  · contradiction

/-- A name in a label shows the constant that is found of this name. -/
theorem shows_label (wf : WellFormed root) (held : root.Holds name)
    (isIdentifier : name.is .identifier = true)
    (outside : ∀ around ∈ name.ancestors, around.isAny headerConstructs = false)
    (above : name.parent? = some label) (isLabel : label.is .switchLabel = true)
    (found : (ofRoot root).enumConstant? name.text = some own) :
    (ofRoot root).Shows name own.variableElement := by
  have kinds := Place.isAny_of_is isLabel (List.mem_singleton_self _)
  have use := declaresVariable_eq_false above (Place.isAny_eq_false kinds (by decide))
  have header := headerElement?_eq_none.mpr outside
  rw [shows_name_iff wf held (isName_of_identifier isIdentifier),
    nameElement_of_parent _ above kinds (by decide), use, header, if_neg Bool.false_ne_true,
    Option.getD_none]
  have no (construct : Construct) (other : .switchLabel ≠ construct) :
      label.is construct = false := Place.is_eq_false kinds (by simpa using other)
  have noLabel : label.isAny [.typeParameter, .labeledStatement, .breakStatement,
      .continueStatement] = false := Place.isAny_eq_false kinds (by decide)
  simp [roleElement, no, noLabel, isLabel, found]

/-- A constant in a label goes by the name of the first enum of the file that declares a constant of
the name, and shows what its first such constant shows. The constant of the enum that the switch
selects by shows the name of this enum. So both show the same exactly if the two enums have the same
name, and they do if no enum before the one that is selected by declares such a constant. -/
theorem label_names_first_constant (accepted : accepts source = true)
    (labels : LabelsConstant (parse source) name enum constant own) :
    ∃ first constant' own' shown simple,
      Place.FirstConstant (parse source) name.text first constant' own' ∧
      first.declaredName? = some shown ∧ enum.declaredName? = some simple ∧
      (ofRoot (parse source)).Shows name (.variable shown name.text) ∧
      (ofRoot (parse source)).Shows own' (.variable shown name.text) ∧
      (ofRoot (parse source)).Shows own (.variable simple name.text) ∧
      ((ofRoot (parse source)).Shows name (.variable simple name.text) ↔ shown = simple) ∧
      ((∀ other constant own : Place, (parse source).Holds other →
          other.DeclaresConstant name.text constant own → ¬ other.Precedes enum) →
        shown = simple) := by
  have wf := wellFormed_parse accepted
  obtain ⟨held, isIdentifier, outside, ⟨label, above, isLabel, selected⟩, declares⟩ := labels
  have heldEnum := held_of_selectedType? (held.parent above).1 selected
  obtain ⟨first, constant', own', isFirst, found⟩ := exists_firstConstant wf heldEnum declares
  obtain ⟨shown, named, means, shows'⟩ := shows_constant wf isFirst.held isFirst.declares
  obtain ⟨simple, named', _, showsOwn⟩ := shows_constant wf heldEnum declares
  have showsName := shows_label wf held isIdentifier outside above isLabel found
  rw [means] at showsName
  refine ⟨first, constant', own', shown, simple, isFirst, named, named', showsName, shows',
    showsOwn, ⟨fun same => ?_, fun same => same ▸ showsName⟩, fun alone => ?_⟩
  · have isName := isName_of_identifier isIdentifier
    rw [shows_name_iff wf held isName] at showsName same
    exact (Element.variable.inj (showsName.symm.trans same)).1
  · rcases isFirst.firstEnum enum constant own heldEnum declares with rfl | behind
    · exact Option.some.inj (named.symm.trans named')
    · exact absurd behind (alone first constant' own' isFirst.held isFirst.declares)

/-- Whether a name in a label is spelled like a constant of the enum of some name that the switch
selects by, where a constant of an enum of some name is found. -/
def isLabelOf (file : SourceFile) (simple shown text : String) (name : Place) : Bool :=
  name.is .identifier && name.text == text && name.ancestors.all (!·.isAny headerConstructs) &&
    (file.enumConstant? text).any (·.variableElement == .variable shown text) &&
    name.parent?.any fun label => label.is .switchLabel &&
      (file.selectedType? label).any fun enum =>
        enum.is .enumDeclaration && enum.declaredName? == some simple &&
          enum.scopeMembers.any fun constant => (Place.constantNamed? text constant).isSome

/-- Such a name is found by a search through the source. -/
theorem exists_labelsConstant {simple shown text : String}
    (used : (accepts source && ((parse source).places []).any
      (isLabelOf (ofRoot (parse source)) simple shown text)) = true) :
    accepts source = true ∧ ∃ name enum constant own,
      LabelsConstant (parse source) name enum constant own ∧ name.text = text ∧
        enum.declaredName? = some simple ∧
        (ofRoot (parse source)).Shows name (.variable shown text) ∧
        (ofRoot (parse source)).Shows own (.variable simple text) := by
  obtain ⟨accepted, name, held, used⟩ := exists_held_of_search used
  simp only [isLabelOf, Bool.and_eq_true, Option.any_eq_true, List.any_eq_true, List.all_eq_true,
    Bool.not_eq_true', beq_iff_eq, Option.isSome_iff_exists] at used
  obtain ⟨⟨⟨⟨isIdentifier, rfl⟩, outside⟩, other, found, means⟩, label, above, isLabel, enum,
    selected, ⟨isEnum, named⟩, constant, inside, own, spelled⟩ := used
  have wf := wellFormed_parse accepted
  have declares := (Place.constantNamed?_eq_some isEnum inside).mp spelled
  have heldEnum := held_of_selectedType? (held.parent above).1 selected
  obtain ⟨_, named', _, showsOwn⟩ := shows_constant wf heldEnum declares
  rw [← Option.some.inj (named.symm.trans named')] at showsOwn
  have showsName := shows_label wf held isIdentifier outside above isLabel found
  rw [means] at showsName
  exact ⟨accepted, name, enum, constant, own,
    ⟨held, isIdentifier, outside, ⟨label, above, isLabel, selected⟩, declares⟩, rfl, named,
    showsName, showsOwn⟩

/-- A switch by an enum after one without the constant and before one with the constant. -/
def laterEnum : String :=
  "enum A { Y } enum B { X } class C { int f(B b) { return switch (b) { case X -> 1; }; } } " ++
    "enum D { X }"

/-- The label shows the constant of the enum that is selected by, which is the first of its name. -/
theorem label_names_first_constant_laterEnum : accepts laterEnum = true ∧
    ∃ name enum constant own, LabelsConstant (parse laterEnum) name enum constant own ∧
      (ofRoot (parse laterEnum)).Shows name (.variable "B" "X") ∧
      (ofRoot (parse laterEnum)).Shows own (.variable "B" "X") ∧
      ∃ first constant' own', Place.FirstConstant (parse laterEnum) "X" first constant' own' ∧
        first.declaredName? = some "B" ∧
        (ofRoot (parse laterEnum)).Shows own' (.variable "B" "X") := by
  have used : (accepts laterEnum && ((parse laterEnum).places []).any
      (isLabelOf (ofRoot (parse laterEnum)) "B" "B" "X")) = true := by decide +kernel
  obtain ⟨accepted, name, enum, constant, own, labels, spelled, named, shows, _⟩ :=
    exists_labelsConstant used
  obtain ⟨first, constant', own', shown, simple, isFirst, named₁, named₂, showsName, showsFirst,
    showsOwn, _, _⟩ := label_names_first_constant accepted labels
  rw [spelled] at isFirst showsName showsFirst showsOwn
  obtain rfl : "B" = simple := Option.some.inj (named.symm.trans named₂)
  obtain rfl : "B" = shown := by
    have isName := isName_of_identifier labels.isIdentifier
    rw [shows_name_iff (wellFormed_parse accepted) labels.held isName] at shows showsName
    exact (Element.variable.inj (shows.symm.trans showsName)).1
  exact ⟨accepted, name, enum, constant, own, labels, showsName, showsOwn, first, constant', own',
    isFirst, named₁, showsFirst⟩

/-- Two enums with the same constant, and a switch by the second. -/
def sameConstants : String :=
  "enum A { X } enum B { X } class C { void f(B b) { switch (b) { case X: break; } } }"

/-- The label shows the constant of the first enum, although the switch selects by the second. -/
theorem label_shows_other_enum : accepts sameConstants = true ∧
    ∃ name enum constant own, LabelsConstant (parse sameConstants) name enum constant own ∧
      (ofRoot (parse sameConstants)).Shows name (.variable "A" "X") ∧
      (ofRoot (parse sameConstants)).Shows own (.variable "B" "X") := by
  have used : (accepts sameConstants && ((parse sameConstants).places []).any
      (isLabelOf (ofRoot (parse sameConstants)) "B" "A" "X")) = true := by decide +kernel
  obtain ⟨accepted, name, enum, constant, own, labels, -, -, showsName, showsOwn⟩ :=
    exists_labelsConstant used
  exact ⟨accepted, name, enum, constant, own, labels, showsName, showsOwn⟩

end SourceFile

end CaretName
