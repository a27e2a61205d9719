import CaretName.Tree.Place

/-!
# Places of one tree

A place carries the steps that led to it, so a value of the type need not lie in any tree.
`Node.Holds` singles out the places that do. Paths tell the places of one tree apart, which is
what makes the role of a place a property of its position and not of how it looks, and every
part whose surroundings are parts is listed by `Node.places`.
-/
namespace CaretName

/-- The places of a tree: its root, and every child of a place of it. -/
inductive Node.Holds (root : Node) : Place → Prop
  /-- The root itself. -/
  | root : root.Holds (.root root)
  /-- A child of a place. -/
  | child {place child : Place} (held : root.Holds place) (below : child ∈ place.children) :
    root.Holds child

/-! ## Kinds -/

/-- A node is a construct if that is its kind. -/
theorem Node.is_iff {node : Node} {construct : Construct} :
    node.is construct = true ↔ node.kind = .construct construct := by
  simp [is]

/-- A node is one of several constructs if one of them is its kind. -/
theorem Node.isAny_iff {node : Node} {constructs : List Construct} :
    node.isAny constructs = true ↔ ∃ construct ∈ constructs, node.kind = .construct construct := by
  simp [isAny, is]

namespace Place

/-- A place is a construct if that is its kind. -/
theorem is_iff {place : Place} {construct : Construct} :
    place.is construct = true ↔ place.kind = .construct construct := Node.is_iff

/-- A place is one of several constructs if one of them is its kind. -/
theorem isAny_iff {place : Place} {constructs : List Construct} :
    place.isAny constructs = true ↔
      ∃ construct ∈ constructs, place.kind = .construct construct := Node.isAny_iff

/-- A construct in a list is one of the list. -/
theorem isAny_of_is {place : Place} {construct : Construct} {constructs : List Construct}
    (itself : place.is construct = true) (listed : construct ∈ constructs) :
    place.isAny constructs = true := isAny_iff.mpr ⟨construct, listed, is_iff.mp itself⟩

/-- What is one of several constructs is the first or one of the others. -/
theorem isAny_cons {place : Place} {construct : Construct} {constructs : List Construct} :
    place.isAny (construct :: constructs) = true ↔
      place.is construct = true ∨ place.isAny constructs = true := by
  simp [isAny, Node.isAny, is]

/-- What is one of a single construct is that construct. -/
theorem isAny_singleton {place : Place} {construct : Construct} :
    place.isAny [construct] = place.is construct := by
  simp [isAny, Node.isAny, is]

/-- What is one of some constructs is one of more. -/
theorem isAny_mono {place : Place} {constructs others : List Construct}
    (inside : place.isAny constructs = true) (more : constructs.all others.contains = true) :
    place.isAny others = true := by
  obtain ⟨construct, listed, kind⟩ := isAny_iff.mp inside
  exact isAny_iff.mpr ⟨construct, by simpa using List.all_eq_true.mp more construct listed, kind⟩

/-- What is one of some constructs is none of others. -/
theorem isAny_eq_false {place : Place} {constructs others : List Construct}
    (inside : place.isAny constructs = true) (apart : constructs.all (!others.contains ·) = true) :
    place.isAny others = false := by
  rw [Bool.eq_false_iff]
  intro outside
  obtain ⟨construct, listed, kind⟩ := isAny_iff.mp inside
  obtain ⟨other, elsewhere, same⟩ := isAny_iff.mp outside
  obtain rfl : construct = other := by simpa using kind.symm.trans same
  have checked := List.all_eq_true.mp apart construct listed
  simp [elsewhere] at checked

/-- What is one of some constructs is no other. -/
theorem is_eq_false {place : Place} {constructs : List Construct} {other : Construct}
    (inside : place.isAny constructs = true) (apart : constructs.all (· != other) = true) :
    place.is other = false := by
  have none : place.isAny [other] = false := isAny_eq_false inside (by simpa using apart)
  simpa [isAny, Node.isAny, is] using none

/-- What is none of some constructs is none of fewer. -/
theorem isAny_eq_false_mono {place : Place} {constructs others : List Construct}
    (outside : place.isAny others = false) (fewer : constructs.all others.contains = true) :
    place.isAny constructs = false := by
  rw [Bool.eq_false_iff] at outside ⊢
  exact fun inside => outside (isAny_mono inside fewer)

/-- What is none of some constructs is not one of them. -/
theorem is_eq_false_of_isAny {place : Place} {constructs : List Construct} {construct : Construct}
    (outside : place.isAny constructs = false) (listed : construct ∈ constructs) :
    place.is construct = false := by
  rw [Bool.eq_false_iff] at outside ⊢
  exact fun itself => outside (isAny_of_is itself listed)

/-- Constructs that are comments. -/
def commentConstructs : List Construct := [.lineComment, .blockComment]

/-- What is one of some constructs that are no comments is a part. -/
theorem isPart_of_isAny {place : Place} {constructs : List Construct}
    (inside : place.isAny constructs = true)
    (meant : constructs.all (!commentConstructs.contains ·) = true) :
    place.node.isPart = true := by
  obtain ⟨construct, _, kind⟩ := isAny_iff.mp inside
  have kind : place.node.kind = .construct construct := kind
  have noComment : place.node.isComment = false := isAny_eq_false inside meant
  simp [Node.isPart, Node.isConstruct, kind, noComment]

/-! ## Children -/

/-- Numbered children are the nodes of the list, each one step below. -/
theorem mem_below {place child : Place} {index : Nat} {nodes : List Node} :
    child ∈ place.below index nodes ↔
      ∃ offset, nodes[offset]? = some child.node ∧
        child.above = ⟨place.node, index + offset⟩ :: place.above := by
  induction nodes generalizing index with
  | nil => simp [below]
  | cons node rest ih =>
    rw [below, List.mem_cons, ih]
    constructor
    · rintro (rfl | ⟨offset, found, above⟩)
      · exact ⟨0, rfl, rfl⟩
      · exact ⟨offset + 1, found, by rw [above, Nat.add_assoc, Nat.add_comm 1]⟩
    · rintro ⟨offset, found, above⟩
      cases offset with
      | zero =>
        left
        have same : node = child.node := by simpa using found
        cases child
        simp_all
      | succ offset =>
        exact .inr ⟨offset, found, by rw [above, Nat.add_assoc, Nat.add_comm 1]⟩

/-- The children of a place are those of its node, each one step below. -/
theorem mem_children {place child : Place} :
    child ∈ place.children ↔
      ∃ index, place.node.children[index]? = some child.node ∧
        child.above = ⟨place.node, index⟩ :: place.above := by
  simp [children, mem_below]

/-- Children are told apart by their numbers. -/
theorem nodup_children (place : Place) : place.children.Nodup := by
  have numbered : ∀ (index : Nat) (nodes : List Node), (place.below index nodes).Nodup := by
    intro index nodes
    induction nodes generalizing index with
    | nil => exact List.nodup_nil
    | cons node rest ih =>
      refine List.nodup_cons.mpr ⟨fun again => ?_, ih (index + 1)⟩
      obtain ⟨offset, _, above⟩ := mem_below.mp again
      simp only [List.cons.injEq, Step.mk.injEq, true_and, and_true] at above
      omega
  exact numbered 0 place.node.children

/-- The node of a child is a child of the node. -/
theorem node_mem_of_mem_children {place child : Place} (below : child ∈ place.children) :
    child.node ∈ place.node.children := by
  obtain ⟨index, found, _⟩ := mem_children.mp below
  exact List.mem_of_getElem? found

/-- Every child of the node has a place. -/
theorem exists_mem_children {place : Place} {node : Node} (found : node ∈ place.node.children) :
    ∃ child ∈ place.children, child.node = node := by
  obtain ⟨index, inside, same⟩ := List.getElem_of_mem found
  refine ⟨⟨node, ⟨place.node, index⟩ :: place.above⟩, ?_, rfl⟩
  exact mem_children.mpr ⟨index, by rw [List.getElem?_eq_getElem inside, same], rfl⟩

/-- A child lies one step below its parent. -/
theorem above_of_mem_children {place child : Place} (below : child ∈ place.children) :
    ∃ index, child.above = ⟨place.node, index⟩ :: place.above := by
  obtain ⟨index, _, above⟩ := mem_children.mp below
  exact ⟨index, above⟩

/-- The parent of a child is the place it was taken from. -/
theorem parent?_of_mem_children {place child : Place} (below : child ∈ place.children) :
    child.parent? = some place := by
  obtain ⟨index, above⟩ := above_of_mem_children below
  simp [parent?, above]

/-- Around a child lie its parent and what lies around that. -/
theorem ancestors_of_mem_children {place child : Place} (below : child ∈ place.children) :
    child.ancestors = place.outward := by
  obtain ⟨index, above⟩ := above_of_mem_children below
  simp [ancestors, outward, above, along]

/-- The child that a role finds is one of the children and has the role. -/
theorem mem_children_of_child? {place child : Place} {role : Role}
    (found : place.child? role = some child) :
    child ∈ place.children ∧ child.node.role = some role := by
  refine ⟨List.mem_of_find?_eq_some found, ?_⟩
  simpa using List.find?_some found

/-- The child that a role finds is the one in that role. -/
theorem hasRole_of_child? {place child : Place} {role : Role}
    (found : place.child? role = some child) : child.hasRole role = true := by
  have below := (mem_children_of_child? found).1
  simp [hasRole, parent?_of_mem_children below, found, same]

/-- Parts are children. -/
theorem mem_children_of_mem_parts {place part : Place} (found : part ∈ place.parts) :
    part ∈ place.children := (List.mem_filter.mp found).1

/-- Parts are children that are parts. -/
theorem mem_parts {place part : Place} :
    part ∈ place.parts ↔ part ∈ place.children ∧ part.node.isPart = true := by
  simp [parts]

/-- Constructs are children. -/
theorem mem_children_of_mem_constructs {place child : Place} (found : child ∈ place.constructs) :
    child ∈ place.children := (List.mem_filter.mp found).1

/-- What lies around a place, itself included, is the place and what lies around it. -/
theorem mem_outward {place other : Place} :
    other ∈ place.outward ↔ other = place ∨ other ∈ place.ancestors := by
  simp [outward]

end Place

/-! ## Places of one tree -/

namespace Node.Holds

open Place

variable {root : Node} {place other : Place}

/-- The child of a place in a role belongs to the tree. -/
theorem of_child? {role : Role} (held : root.Holds place)
    (found : place.child? role = some other) : root.Holds other :=
  held.child (mem_children_of_child? found).1

/-- A part of a place belongs to the tree. -/
theorem of_part (held : root.Holds place) (found : other ∈ place.parts) : root.Holds other :=
  held.child (mem_children_of_mem_parts found)

/-- The root is the only place without a parent, and a parent belongs to the tree and has the
place as a child. -/
theorem parent (held : root.Holds place) (above : place.parent? = some other) :
    root.Holds other ∧ place ∈ other.children := by
  cases held with
  | root => simp [Place.root, parent?] at above
  | child around below =>
    rw [parent?_of_mem_children below, Option.some.injEq] at above
    exact above ▸ ⟨around, below⟩

/-- All places around a place of the tree belong to it. -/
theorem of_ancestor (held : root.Holds place) (around : other ∈ place.ancestors) :
    root.Holds other := by
  induction held with
  | root => simp [Place.root, ancestors, along] at around
  | child held below ih =>
    rw [ancestors_of_mem_children below, mem_outward] at around
    exact around.elim (fun same => same ▸ held) ih

/-- A place and all places around it belong to its tree. -/
theorem of_outward (held : root.Holds place) (around : other ∈ place.outward) :
    root.Holds other :=
  (mem_outward.mp around).elim (fun same => same ▸ held) held.of_ancestor

/-- What lies around a place has a child that the place is or lies in. -/
theorem exists_child_of_ancestor (held : root.Holds place) (around : other ∈ place.ancestors) :
    ∃ child ∈ other.children, child ∈ place.outward := by
  induction held with
  | root => simp [Place.root, ancestors, along] at around
  | @child parent place held below ih =>
    have chain := ancestors_of_mem_children below
    rw [chain, mem_outward] at around
    rcases around with rfl | further
    · exact ⟨place, below, mem_outward.mpr (.inl rfl)⟩
    · obtain ⟨child, inside, outward⟩ := ih further
      exact ⟨child, inside, mem_outward.mpr (.inr (chain ▸ outward))⟩

/-- Two places of one tree with the same path are one place. The steps from the root decide
the node, child by child. -/
theorem eq_of_path_eq (held : root.Holds place) (held' : root.Holds other)
    (paths : place.path = other.path) : place = other := by
  induction held generalizing other with
  | root =>
    cases held' with
    | root => rfl
    | child around below =>
      obtain ⟨index, above⟩ := above_of_mem_children below
      simp [Place.root, path, above] at paths
  | @child around place held below ih =>
    obtain ⟨index, found, above⟩ := mem_children.mp below
    cases held' with
    | root => simp [Place.root, path, above] at paths
    | child around' below' =>
      obtain ⟨index', found', above'⟩ := mem_children.mp below'
      simp only [path, above, above', List.map_cons, List.cons.injEq] at paths
      obtain rfl := ih around' paths.2
      obtain rfl := paths.1
      have nodes : place.node = other.node := Option.some.inj (found.symm.trans found')
      cases place
      cases other
      simp_all

/-- Within one tree, being the same place is equality. -/
theorem same_iff (held : root.Holds place) (held' : root.Holds other) :
    place.same other = true ↔ place = other := by
  rw [same, beq_iff_eq]
  exact ⟨held.eq_of_path_eq held', fun equal => equal ▸ rfl⟩

/-- A place in a role is the child that its parent finds in it. -/
theorem child?_of_hasRole {role : Role} (held : root.Holds place)
    (inRole : place.hasRole role = true) :
    ∃ around, place.parent? = some around ∧ around.child? role = some place := by
  unfold hasRole at inRole
  split at inRole
  · next around above =>
    obtain ⟨child, found, same⟩ := Option.any_eq_true _ _ |>.mp inRole
    have around' := (held.parent above).1
    obtain rfl := (held.same_iff (around'.of_child? found)).mp same
    exact ⟨around, above, found⟩
  · contradiction

end Node.Holds

/-! ## Properties of all nodes of a tree -/

/-- A property holds of a node and of all nodes inside it. -/
inductive Node.Everywhere (holds : Node → Prop) : Node → Prop
  /-- It holds of the node, and everywhere in its children. -/
  | intro {node : Node} (here : holds node)
    (inside : ∀ child ∈ node.children, Node.Everywhere holds child) : Node.Everywhere holds node

namespace Node.Everywhere

variable {holds holds' : Node → Prop} {root : Node} {place : Place}

/-- A property that holds everywhere holds here. -/
theorem here {node : Node} : node.Everywhere holds → holds node
  | intro here _ => here

/-- A property that holds everywhere holds everywhere in a child. -/
theorem child {node child : Node} (everywhere : node.Everywhere holds)
    (below : child ∈ node.children) : child.Everywhere holds := by
  cases everywhere with
  | intro _ inside => exact inside child below

/-- A property that holds everywhere in a tree holds everywhere in the node of a place. -/
theorem at_place (everywhere : root.Everywhere holds) (held : root.Holds place) :
    place.node.Everywhere holds := by
  induction held with
  | root => exact everywhere
  | child held below ih => exact ih.child (Place.node_mem_of_mem_children below)

/-- A property that holds everywhere in the children of the root holds everywhere in what lies below
any place. -/
theorem below_place (everywhere : ∀ child ∈ root.children, child.Everywhere holds)
    (held : root.Holds place) {child : Place} (below : child ∈ place.children) :
    child.node.Everywhere holds := by
  have inside := Place.node_mem_of_mem_children below
  induction held generalizing child with
  | root => exact everywhere child.node inside
  | child held below' ih =>
    exact (ih below' (Place.node_mem_of_mem_children below')).child inside

/-- A weaker property holds everywhere, too. -/
theorem mono (weaker : ∀ node, holds node → holds' node) {node : Node}
    (everywhere : node.Everywhere holds) : node.Everywhere holds' := by
  induction everywhere with
  | intro here _ ih => exact .intro (weaker _ here) ih

end Node.Everywhere

/-! ## The list of all places -/

/-- Induction on a tree: a property of a node follows from the same property of its children. -/
theorem Node.child_induction {holds : Node → Prop}
    (step : ∀ node : Node, (∀ child ∈ node.children, holds child) → holds node) (node : Node) :
    holds node :=
  step node fun child _ => Node.child_induction step child
termination_by sizeOf node
decreasing_by
  rename_i below
  cases node with
  | leaf => simp [Node.children] at below
  | branch kind role span children =>
    have smaller := List.sizeOf_lt_of_mem below
    simp only [Node.children, Node.branch.sizeOf_spec] at smaller ⊢
    omega

/-- A child is less high than its parent. -/
theorem Node.height_lt_of_mem_children {node child : Node} (below : child ∈ node.children) :
    child.height < node.height := by
  have among : ∀ nodes : List Node, child ∈ nodes → child.height ≤ heightOfAll nodes := by
    intro nodes listed
    induction nodes with
    | nil => contradiction
    | cons first rest ih =>
      rw [heightOfAll]
      rcases List.mem_cons.mp listed with rfl | later
      · exact Nat.le_max_left _ _
      · exact Nat.le_trans (ih later) (Nat.le_max_right _ _)
  cases node with
  | leaf => simp [Node.children] at below
  | branch kind role span children =>
    rw [height]
    exact Nat.lt_succ_of_le (among children below)

/-- The same for the places of a tree. -/
theorem Place.child_induction {holds : Place → Prop}
    (step : ∀ place : Place, (∀ child ∈ place.children, holds child) → holds place)
    (place : Place) : holds place := by
  obtain ⟨node, above⟩ := place
  induction node using Node.child_induction generalizing above with
  | step node ih =>
    exact step _ fun child below => ih child.node (node_mem_of_mem_children below) child.above

/-- What holds at all places of a tree holds everywhere in it. -/
theorem Node.Everywhere.of_holds {holds : Node → Prop} {root : Node}
    (each : ∀ place, root.Holds place → holds place.node) : root.Everywhere holds := by
  have inside : ∀ place : Place, root.Holds place → place.node.Everywhere holds := by
    intro place
    induction place using Place.child_induction with
    | step place ih =>
      refine fun held => .intro (each place held) fun node inside => ?_
      obtain ⟨child, below, rfl⟩ := Place.exists_mem_children inside
      exact ih child below (held.child below)
  exact inside (.root root) .root

namespace Place

/-- The places listed among children are those listed for each part in turn. -/
theorem placesAmong_eq_flatMap (around : Place) (index : Nat) (nodes : List Node) :
    placesAmong around index nodes =
      ((around.below index nodes).filter (·.node.isPart)).flatMap
        fun part => part.node.places part.above := by
  induction nodes generalizing index with
  | nil => rfl
  | cons node rest ih =>
    cases isPart : node.isPart <;> simp [placesAmong, below, isPart, ih]

/-- The list of all places starts with the place itself and goes on with the lists of its
parts, in order. -/
theorem places_eq_cons (place : Place) :
    place.node.places place.above =
      place :: place.parts.flatMap fun part => part.node.places part.above := by
  obtain ⟨node, above⟩ := place
  cases node with
  | leaf => simp [Node.places, parts, children, below, Node.children]
  | branch =>
    rw [Node.places, placesAmong_eq_flatMap]
    rfl

/-- A place is listed first among its own. -/
theorem mem_places_self (place : Place) : place ∈ place.node.places place.above := by
  rw [places_eq_cons]
  exact List.mem_cons_self

/-- All that is listed for a part is listed for the whole. -/
theorem mem_places_of_part {place part other : Place} (below : part ∈ place.parts)
    (listed : other ∈ part.node.places part.above) :
    other ∈ place.node.places place.above := by
  rw [places_eq_cons]
  exact List.mem_cons_of_mem _ (List.mem_flatMap.mpr ⟨part, below, listed⟩)

end Place

namespace Node.Holds

open Place

variable {root : Node} {place other : Place}

/-- All that is listed for a place of a tree belongs to the tree. -/
theorem of_mem_places (held : root.Holds place)
    (listed : other ∈ place.node.places place.above) : root.Holds other := by
  induction place using Place.child_induction with
  | step place ih =>
    rw [places_eq_cons, List.mem_cons, List.mem_flatMap] at listed
    rcases listed with rfl | ⟨part, below, listed⟩
    · exact held
    · exact ih part (mem_children_of_mem_parts below) (held.of_part below) listed

/-- What is found among the places listed for a tree belongs to it. -/
theorem exists_held_of_any {wanted : Place → Bool}
    (found : (root.places []).any wanted = true) :
    ∃ place, root.Holds place ∧ wanted place = true := by
  obtain ⟨place, listed, isWanted⟩ := List.any_eq_true.mp found
  exact ⟨place, Holds.root.of_mem_places listed, isWanted⟩

/-- A place of the tree is listed if it and all places around it but the root are parts. -/
theorem mem_places (held : root.Holds place)
    (partsOnly : ∀ around ∈ place.outward, around.parent?.isSome → around.node.isPart = true) :
    place ∈ root.places [] := by
  -- What is listed for a place of the chain is listed for the root, by induction on the chain.
  suffices listed : ∀ other ∈ place.node.places place.above, other ∈ root.places [] from
    listed place place.mem_places_self
  induction held with
  | root => exact fun other listed => listed
  | @child around place held below ih =>
    intro other listed
    have chain := ancestors_of_mem_children below
    have isPart := partsOnly place (mem_outward.mpr (.inl rfl))
      (by rw [parent?_of_mem_children below]; rfl)
    refine ih (fun higher inChain => partsOnly higher ?_) other
      (mem_places_of_part (mem_parts.mpr ⟨below, isPart⟩) listed)
    exact mem_outward.mpr (.inr (chain ▸ inChain))

end Node.Holds

end CaretName
