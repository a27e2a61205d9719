import CaretName.Proofs.Grammar.WellFormed
import CaretName.SourceFile.TypeName

/-!
# What stands in a construct

Lookups that go through the children of a construct rely on what these can be. For dotted names,
imports and type patterns the rules of the grammar say it, and this module draws from them what
the lookups need: the segments of the name of a type are names of types, no type is written in
an import, and a type pattern is a type and the name of a variable.
-/
namespace CaretName

namespace Place

/-- What is one of some constructs and one of others is one of those in both lists. -/
theorem isAny_filter {place : Place} {constructs others : List Construct}
    (inside : place.isAny constructs = true) (among : place.isAny others = true) :
    place.isAny (constructs.filter others.contains) = true := by
  obtain ⟨construct, listed, kind⟩ := isAny_iff.mp inside
  obtain ⟨other, listed', kind'⟩ := isAny_iff.mp among
  obtain rfl : construct = other := by simpa using kind.symm.trans kind'
  refine isAny_iff.mpr ⟨construct, ?_, kind⟩
  rw [List.mem_filter, List.contains_iff_mem]
  exact ⟨listed, listed'⟩

/-- The nodes of the children of a place are the children of its node. -/
theorem map_node_children (place : Place) :
    place.children.map Place.node = place.node.children := by
  have numbered : ∀ (index : Nat) (nodes : List Node),
      (place.below index nodes).map Place.node = nodes := by
    intro index nodes
    induction nodes generalizing index with
    | nil => rfl
    | cons node rest ih => rw [below, List.map_cons, ih]
  exact numbered 0 place.node.children

end Place

namespace Grammar.WellFormed

variable {root : Node} {place child : Place}

/-- A part of a construct is one of those that may stand in it. -/
theorem isAny_contents (wf : WellFormed root) (held : root.Holds place)
    (below : child ∈ place.parts) {construct : Construct} (itself : place.is construct = true)
    {constructs : List Construct} (table : contents construct = some constructs) :
    child.isAny constructs = true := by
  obtain ⟨below, isPart⟩ := Place.mem_parts.mp below
  have meant := wf.isExtra_of_isPart (held.child below) isPart
  obtain ⟨other, kind, ⟨extra, _⟩ | ⟨sight, regular, look, _⟩⟩ := wf.regular_child held below
  · rw [meant] at extra
    contradiction
  · obtain rfl : construct = other := by
      simpa using (Place.is_iff.mp itself).symm.trans kind
    simp only [regularSight, Bool.and_eq_true, table, Option.all_some, Bool.or_eq_true,
      beq_iff_eq, List.contains_iff_mem, List.mem_map] at regular
    rcases regular.2 with mark | ⟨own, listed, same⟩
    · rw [mark] at look
      obtain ⟨text, isMark⟩ := look
      simp [Node.isPart, Node.isConstruct, isMark] at isPart
    · rw [← same] at look
      exact Place.isAny_iff.mpr ⟨own, listed, look⟩

/-! ## Names of types -/

/-- Constructs that the dotted name of a type is made of. -/
def typePaths : List Construct := [.scopedTypeIdentifier, .genericType]

/-- A name or a dotted name inside the dotted name of a type is that of a type. -/
theorem isAny_typePaths_of_part (wf : WellFormed root) (held : root.Holds place)
    (isPath : place.isAny typePaths = true) (below : child ∈ place.parts)
    (named : child.isAny (nameConstructs ++ dottedNames) = true) :
    child.isAny (.typeIdentifier :: typePaths) = true := by
  obtain ⟨construct, listed, kind⟩ := Place.isAny_iff.mp isPath
  simp only [typePaths, List.mem_cons, List.not_mem_nil, or_false] at listed
  rcases listed with rfl | rfl
  · have inside := wf.isAny_contents held below (Place.is_iff.mpr kind) rfl
    exact Place.isAny_mono (Place.isAny_filter named inside) (by decide)
  · have inside := wf.isAny_contents held below (Place.is_iff.mpr kind) rfl
    exact Place.isAny_mono (Place.isAny_filter named inside) (by decide)

/-- Constructs that an import is made of. -/
def importPaths : List Construct := [.identifier, .scopedIdentifier, .asterisk]

/-- The parts of an import, and the parts of these, are made of dotted names. -/
theorem isAny_importPaths_of_part (wf : WellFormed root) (held : root.Holds place)
    (isImport : place.isAny (.importDeclaration :: importPaths) = true)
    (below : child ∈ place.parts) : child.isAny importPaths = true := by
  obtain ⟨construct, listed, kind⟩ := Place.isAny_iff.mp isImport
  simp only [importPaths, List.mem_cons, List.not_mem_nil, or_false] at listed
  rcases listed with rfl | rfl | rfl | rfl
  · exact Place.isAny_mono (wf.isAny_contents held below (Place.is_iff.mpr kind) rfl) (by decide)
  · have childless := (wf.name_token held (Place.isAny_iff.mpr ⟨_, by decide, kind⟩)).1
    have inside := Place.node_mem_of_mem_children (Place.mem_children_of_mem_parts below)
    simp [childless] at inside
  · exact Place.isAny_mono (wf.isAny_contents held below (Place.is_iff.mpr kind) rfl) (by decide)
  · exact Place.isAny_mono (wf.isAny_contents held below (Place.is_iff.mpr kind) rfl) (by decide)

/-- What lies in an import and has parts around it up to the import is made of dotted names.
Induction on the steps from the root. -/
theorem isAny_importPaths_of_ancestor (wf : WellFormed root) (held : root.Holds place)
    (isPart : place.node.isPart = true) {around : Place} (ancestor : around ∈ place.ancestors)
    (isImport : around.is .importDeclaration = true) : place.isAny importPaths = true := by
  induction held with
  | root => simp [Place.root, Place.ancestors, Place.along] at ancestor
  | @child parent place held below ih =>
    have parentPart := wf.isPart_of_mem_children held below
    have itself : parent.isAny (.importDeclaration :: importPaths) = true := by
      rw [Place.ancestors_of_mem_children below, Place.mem_outward] at ancestor
      rcases ancestor with rfl | further
      · exact Place.isAny_of_is isImport List.mem_cons_self
      · exact Place.isAny_mono (ih parentPart further) (by decide)
    exact wf.isAny_importPaths_of_part held itself (Place.mem_parts.mpr ⟨below, isPart⟩)

/-- No type is written in an import. -/
theorem is_importDeclaration_eq_false (wf : WellFormed root) (held : root.Holds place)
    (isType : place.isAny (.typeIdentifier :: typePaths) = true) {around : Place}
    (ancestor : around ∈ place.ancestors) : around.is .importDeclaration = false := by
  rw [Bool.eq_false_iff]
  intro isImport
  have isPart := Place.isPart_of_isAny isType (by decide)
  have inside := wf.isAny_importPaths_of_ancestor held isPart ancestor isImport
  have outside : place.isAny importPaths = false := Place.isAny_eq_false isType (by decide)
  rw [outside] at inside
  contradiction

/-! ## Type patterns -/

/-- A node that looks like a construct is one. -/
theorem isConstruct_of_fits {sight : Sight} {node : Node} (fits : sight.Fits node)
    (marks : sight.look ≠ .mark) (any : sight.look ≠ .any) : node.isConstruct = true := by
  obtain ⟨look, role⟩ := sight
  cases look with
  | mark => contradiction
  | any => contradiction
  | construct what =>
    have kind : node.kind = .construct what := fits.1
    rw [Node.isConstruct, kind]

/-- Each of the nodes that are foreseen one by one looks like one of the sights. -/
theorem exists_fits_of_inOrder {order : List (List Sight)} {nodes : List Node}
    (matched : Sight.InOrder order nodes) {node : Node} (inside : node ∈ Node.essentials nodes) :
    ∃ sights ∈ order, ∃ sight ∈ sights, sight.Fits node := by
  obtain ⟨index, lower, rfl⟩ := List.getElem_of_mem inside
  have bound : index < order.length := matched.length_eq ▸ lower
  obtain ⟨sight, listed, fits⟩ := matched.get bound lower
  exact ⟨_, List.getElem_mem bound, sight, listed, fits⟩

/-- Where the children of a node are foreseen one by one and none is a mark, its parts are. -/
theorem parts_of_inOrder (wf : WellFormed root) (held : root.Holds place)
    {order : List (List Sight)} (matched : Sight.InOrder order place.node.children)
    (constructs : ∀ sights ∈ order, ∀ sight ∈ sights, sight.look ≠ .mark ∧ sight.look ≠ .any) :
    place.parts.map Place.node = Node.essentials place.node.children := by
  have meant : ∀ node ∈ Node.essentials place.node.children, node.isConstruct = true := by
    intro node inside
    obtain ⟨sights, among, sight, listed, fits⟩ := exists_fits_of_inOrder matched inside
    obtain ⟨marks, any⟩ := constructs sights among sight listed
    exact isConstruct_of_fits fits marks any
  have filtered : place.parts.map Place.node = place.node.children.filter Node.isPart := by
    rw [Place.parts, ← Place.map_node_children, List.filter_map]
    rfl
  rw [filtered, Node.essentials]
  refine List.filter_congr fun node inside => ?_
  obtain ⟨child, below, rfl⟩ := Place.exists_mem_children inside
  cases extra : child.node.isExtra with
  | true =>
    rw [Bool.not_true, Bool.eq_false_iff]
    intro isPart
    rw [wf.isExtra_of_isPart (held.child below) isPart] at extra
    contradiction
  | false =>
    have isConstruct := meant child.node (Node.mem_essentials.mpr ⟨inside, extra⟩)
    have noComment : child.node.isComment = false := (Bool.or_eq_false_iff.mp extra).1
    rw [Node.isPart, isConstruct, noComment]
    rfl

/-- Where no role is foreseen no child has one. -/
theorem child?_of_inOrder {shape : Shape} (fits : shape.Fits place.node)
    {order : List (List Sight)} (matched : Sight.InOrder order place.node.children)
    (roleless : ∀ sights ∈ order, ∀ sight ∈ sights, sight.role = none) (role : Role) :
    place.child? role = none := by
  refine List.find?_eq_none.mpr fun child below => ?_
  have inside := Place.node_mem_of_mem_children below
  have free : child.node.role = none := by
    rcases fits.cover child.node inside with ⟨_, free⟩ | ⟨meant, _⟩
    · exact free
    · obtain ⟨sights, among, sight, listed, look⟩ :=
        exists_fits_of_inOrder matched (Node.mem_essentials.mpr ⟨inside, meant⟩)
      exact look.2.trans (roleless sights among sight listed)
  simp [free]

/-- A first child that is a part is the first construct and the first part. -/
theorem head?_constructs {part : Place} {rest : List Place} (split : place.parts = part :: rest)
    (front : place.node.children.head? = some part.node) :
    place.constructs.head? = some part := by
  have isPart : part.node.isPart = true := (Place.mem_parts.mp (split ▸ List.mem_cons_self)).2
  have isConstruct : part.node.isConstruct = true := (Bool.and_eq_true_iff.mp isPart).1
  rw [← Place.map_node_children] at front
  cases children : place.children with
  | nil => simp [children] at front
  | cons first others =>
    have same : first.node = part.node := by simpa [children] using front
    rw [Place.parts, children, List.filter_cons_of_pos (same ▸ isPart)] at split
    obtain rfl := (List.cons.inj split).1
    simp [Place.constructs, children, isConstruct]

/-- The parts of a type pattern are a type and the name of a variable, which is in no role. -/
theorem parts_typePattern (wf : WellFormed root) (held : root.Holds place)
    (isPattern : place.is .typePattern = true) :
    ∃ type name, place.parts = [type, name] ∧ place.constructs.head? = some type ∧
      name.is .identifier = true ∧ place.child? .name = none := by
  obtain ⟨shape, regular, fits⟩ :=
    wf.regular_branch held (Place.isAny_of_is isPattern List.mem_cons_self)
  have construct : shape.construct = .typePattern := by
    simpa using fits.kind.symm.trans (Place.is_iff.mp isPattern)
  have ordered : shape.order = some typePatternOrder := by
    simpa [regularShape, construct] using (Bool.and_eq_true_iff.mp regular).2
  obtain ⟨matched, front⟩ := fits.order _ ordered
  have parts := wf.parts_of_inOrder held matched (by decide)
  obtain ⟨typeNode, nameNode, essentials, nameKind⟩ :
      ∃ typeNode nameNode, Node.essentials place.node.children = [typeNode, nameNode] ∧
        nameNode.kind = .construct .identifier := by
    simp only [Sight.InOrder, typePatternOrder, List.forall₂_cons_left_iff,
      List.forall₂_nil_left_iff, List.mem_singleton, exists_eq_left] at matched
    obtain ⟨typeNode, _, _, ⟨nameNode, _, fits, rfl, rfl⟩, essentials⟩ := matched
    exact ⟨typeNode, nameNode, essentials, fits.1⟩
  rw [essentials] at parts front
  obtain ⟨type, rest, split, rfl, others⟩ := List.map_eq_cons_iff.mp parts
  obtain ⟨name, last, rfl, rfl, none⟩ := List.map_eq_cons_iff.mp others
  obtain rfl := List.map_eq_nil_iff.mp none
  exact ⟨type, name, split, head?_constructs split front, Place.is_iff.mpr nameKind,
    child?_of_inOrder fits matched (by decide) .name⟩

end Grammar.WellFormed

end CaretName
