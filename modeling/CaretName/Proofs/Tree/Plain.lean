import CaretName.Proofs.Tree.Holds
import CaretName.Proofs.Tree.Pieces

/-!
# Trees without layout

Two sources may hold the same tokens with other white space between them. `Node.plain` takes white
space and offsets out of a tree, so two trees differ in nothing else if they are the same without.
Whatever is found in a tree by kinds, roles and paths alone is found at the same places in the
plain tree; the lemmas here say so for each way to look around. `Node.Holds.exists_plain` finds the
place of one tree in the other.
-/
namespace CaretName

namespace Node

mutual

/-- A node without white space and offsets. -/
def plain : Node → Node
  | leaf kind role _ _ text => .leaf kind role ⟨0, 0⟩ "" text
  | branch kind role _ children => .branch kind role ⟨0, 0⟩ (plainAll children)

/-- Nodes without white space and offsets. -/
def plainAll : List Node → List Node
  | [] => []
  | node :: rest => node.plain :: plainAll rest

end

mutual

/-- Whether two nodes are equal. -/
def decEq : (node other : Node) → Decidable (node = other)
  | leaf kind role span gap text, leaf kind' role' span' gap' text' =>
    decidable_of_iff (kind = kind' ∧ role = role' ∧ span = span' ∧ gap = gap' ∧ text = text')
      (by rw [leaf.injEq])
  | branch kind role span children, branch kind' role' span' children' =>
    match decEqAll children children' with
    | isTrue same =>
      decidable_of_iff (kind = kind' ∧ role = role' ∧ span = span') (by simp [same])
    | isFalse other => isFalse fun same => other (branch.inj same).2.2.2
  | leaf .., branch .. => isFalse nofun
  | branch .., leaf .. => isFalse nofun

/-- Whether two lists of nodes are equal. -/
def decEqAll : (nodes others : List Node) → Decidable (nodes = others)
  | [], [] => isTrue rfl
  | node :: rest, other :: rest' =>
    match decEq node other, decEqAll rest rest' with
    | isTrue same, isTrue same' => isTrue (by rw [same, same'])
    | isFalse differ, _ => isFalse fun same => differ (List.cons.inj same).1
    | _, isFalse differ => isFalse fun same => differ (List.cons.inj same).2
  | [], _ :: _ => isFalse nofun
  | _ :: _, [] => isFalse nofun

end

instance : DecidableEq Node := decEq

/-- Several nodes become plain one by one. -/
theorem plainAll_eq (nodes : List Node) : plainAll nodes = nodes.map plain := by
  induction nodes with
  | nil => rfl
  | cons node rest ih => rw [plainAll, ih, List.map_cons]

variable (node : Node)

/-- A node without layout has the same kind. -/
@[simp] theorem kind_plain : node.plain.kind = node.kind := by cases node <;> rfl

/-- A node without layout has the same role. -/
@[simp] theorem role_plain : node.plain.role = node.role := by cases node <;> rfl

/-- The children of a node lose their layout with it. -/
@[simp] theorem children_plain : node.plain.children = node.children.map plain := by
  cases node with
  | leaf => rfl
  | branch => exact plainAll_eq _

/-- A node without layout is the same construct. -/
@[simp] theorem is_plain (construct : Construct) : node.plain.is construct = node.is construct := by
  simp [is]

/-- A node without layout is one of the same constructs. -/
@[simp] theorem isAny_plain (constructs : List Construct) :
    node.plain.isAny constructs = node.isAny constructs := by
  rw [isAny, funext node.is_plain, isAny]

/-- A node without layout is a construct if it was one. -/
@[simp] theorem isConstruct_plain : node.plain.isConstruct = node.isConstruct := by
  simp [isConstruct]

/-- A node without layout is a part if it was one. -/
@[simp] theorem isPart_plain : node.plain.isPart = node.isPart := by simp [isPart, isComment]

mutual

/-- A plain node is plain. -/
@[simp] theorem plain_plain : ∀ node : Node, node.plain.plain = node.plain
  | leaf .. => rfl
  | branch _ _ _ children => by rw [plain, plain, plainAll_plainAll children]

/-- Plain nodes are plain. -/
theorem plainAll_plainAll : ∀ nodes : List Node, plainAll (plainAll nodes) = plainAll nodes
  | [] => rfl
  | node :: rest => by
    rw [plainAll, plainAll, plain_plain node, plainAll_plainAll rest]

end

mutual

/-- A plain node has the same texts. -/
theorem texts_plain : ∀ node : Node, node.plain.pieces.map Piece.text = node.pieces.map Piece.text
  | leaf .. => rfl
  | branch _ _ _ children => by rw [plain, pieces, pieces, textsAll_plain children]

/-- Plain nodes have the same texts. -/
theorem textsAll_plain : ∀ nodes : List Node,
    (piecesAll (plainAll nodes)).map Piece.text = (piecesAll nodes).map Piece.text
  | [] => rfl
  | node :: rest => by
    simp only [plainAll, piecesAll, List.map_append]
    rw [texts_plain node, textsAll_plain rest]

end

/-- A node without children has the same text without layout. -/
theorem text_plain_of_childless {node : Node} (childless : node.children = []) :
    node.plain.text = node.text := by
  cases node with
  | leaf => rfl
  | branch kind role span children =>
    obtain rfl : children = [] := childless
    rfl

end Node

/-! ## Places -/

/-- A step in the tree without layout. -/
def Step.plain (step : Step) : Step := ⟨step.parent.plain, step.index⟩

namespace Place

/-- The same place in the tree without layout. -/
def plain (place : Place) : Place := ⟨place.node.plain, place.above.map Step.plain⟩

variable (place : Place)

/-- The node of a place loses its layout with it. -/
@[simp] theorem node_plain : place.plain.node = place.node.plain := rfl

/-- A place without layout is the same construct. -/
@[simp] theorem is_plain (construct : Construct) : place.plain.is construct = place.is construct :=
  place.node.is_plain construct

/-- A place without layout is one of the same constructs. -/
@[simp] theorem isAny_plain (constructs : List Construct) :
    place.plain.isAny constructs = place.isAny constructs := place.node.isAny_plain constructs

/-- The path to a place does not depend on the layout. -/
@[simp] theorem path_plain : place.plain.path = place.path := by
  simp [plain, path, Function.comp_def, Step.plain]

/-- Whether two places are the same does not depend on the layout. -/
@[simp] theorem same_plain (other : Place) : place.plain.same other.plain = place.same other := by
  simp [same]

/-- The place around another one loses its layout with it. -/
@[simp] theorem parent?_plain : place.plain.parent? = place.parent?.map plain := by
  obtain ⟨node, above⟩ := place
  cases above <;> rfl

/-- The places around another one lose their layout with it. -/
@[simp] theorem ancestors_plain : place.plain.ancestors = place.ancestors.map plain := by
  have along_plain (above : List Step) :
      along (above.map Step.plain) = (along above).map plain := by
    induction above with
    | nil => rfl
    | cons step above ih =>
      rw [List.map_cons, along, along, ih]
      rfl
  exact along_plain place.above

/-- The children of a place lose their layout with it. -/
@[simp] theorem children_plain : place.plain.children = place.children.map plain := by
  have below_plain (index : Nat) (nodes : List Node) :
      place.plain.below index (nodes.map Node.plain) = (place.below index nodes).map plain := by
    induction nodes generalizing index with
    | nil => rfl
    | cons node rest ih =>
      rw [List.map_cons, below, below, ih]
      rfl
  rw [children, children, node_plain, Node.children_plain, below_plain]

/-- The parts of a place lose their layout with it. -/
@[simp] theorem parts_plain : place.plain.parts = place.parts.map plain := by
  simp [parts, List.filter_map, Function.comp_def]

/-- The constructs in a place lose their layout with it. -/
@[simp] theorem constructs_plain : place.plain.constructs = place.constructs.map plain := by
  simp [constructs, List.filter_map, Function.comp_def]

/-- The child in a role is found without layout. -/
@[simp] theorem child?_plain (role : Role) :
    place.plain.child? role = (place.child? role).map plain := by
  simp only [child?, children_plain, List.find?_map, Function.comp_def, node_plain, Node.role_plain]

/-- The role of a place does not depend on the layout. -/
@[simp] theorem hasRole_plain (role : Role) : place.plain.hasRole role = place.hasRole role := by
  rw [hasRole, hasRole, parent?_plain]
  cases place.parent? with
  | none => rfl
  | some parent => simp [Option.any_map]

end Place

/-! ## Two trees -/

namespace Node.Holds

variable {root root' : Node} {place : Place}

/-- Trees that are the same without layout have the same places without layout. Induction on the
way down to the place. -/
theorem exists_plain (held : root.Holds place) (alike : root.plain = root'.plain) :
    ∃ place', root'.Holds place' ∧ place'.plain = place.plain := by
  induction held with
  | root =>
    refine ⟨.root root', .root, ?_⟩
    rw [Place.plain, Place.plain, Place.root, Place.root, alike]
  | @child around place held below ih =>
    obtain ⟨around', held', same⟩ := ih
    have inside : place.plain ∈ around.plain.children := by
      rw [Place.children_plain]
      exact List.mem_map_of_mem below
    rw [← same, Place.children_plain] at inside
    obtain ⟨place', below', same'⟩ := List.mem_map.mp inside
    exact ⟨place', held'.child below', same'⟩

end Node.Holds

end CaretName
