import CaretName.Proofs.Tree.Holds
import CaretName.Proofs.Tree.Pieces

/-!
# Leaves of a tree

The leaves of a node are its tokens and the comments between them. `Node.leaves` lists them as
nodes, which tells comments from tokens, and `Node.comments` keeps the comments.
-/
namespace CaretName

namespace Node

mutual

/-- The tokens and comments in a node, in the order of the source. -/
def leaves : Node → List Node
  | leaf kind role span gap text => [.leaf kind role span gap text]
  | branch _ _ _ children => leavesAll children

/-- The tokens and comments in several nodes, in the order of the source. -/
def leavesAll : List Node → List Node
  | [] => []
  | node :: rest => node.leaves ++ leavesAll rest

end

/-- The comments in a node. -/
def comments (node : Node) : List Node := node.leaves.filter isComment

/-- The tokens in a node. -/
def tokens (node : Node) : List Node := node.leaves.filter (!·.isComment)

/-- The white space in front of a leaf and its text. -/
def piece : Node → Piece
  | leaf _ _ _ gap text => ⟨gap, text⟩
  | branch .. => ⟨"", ""⟩

/-- The leaves of several nodes are those of each in turn. -/
theorem leavesAll_eq (nodes : List Node) : leavesAll nodes = nodes.flatMap leaves := by
  induction nodes with
  | nil => rfl
  | cons node rest ih => rw [leavesAll, ih, List.flatMap_cons]

/-- The leaves of a node are those of its children, if it has some. -/
theorem leaves_of_children {node : Node} (some : node.children ≠ []) :
    node.leaves = node.children.flatMap leaves := by
  cases node with
  | leaf => contradiction
  | branch => rw [leaves, leavesAll_eq, children]

/-- A filled node without children is a leaf. -/
theorem leaves_of_childless {node : Node} (filled : node.filled = true)
    (childless : node.children = []) : node.leaves = [node] := by
  cases node with
  | leaf => rfl
  | branch kind role span nodes =>
    obtain rfl : nodes = [] := childless
    simp [Node.filled] at filled

/-- The tokens of a node are those of its children, if it has some. -/
theorem tokens_of_children {node : Node} (some : node.children ≠ []) :
    node.tokens = node.children.flatMap tokens := by
  rw [tokens, leaves_of_children some, List.filter_flatMap]
  rfl

/-- A node without comments has the leaves that are its tokens. -/
theorem tokens_of_commentless {node : Node} (none : node.comments = []) :
    node.tokens = node.leaves := by
  rw [tokens, List.filter_eq_self]
  intro leaf inside
  have meant := List.filter_eq_nil_iff.mp none leaf inside
  simpa using meant

mutual

/-- The pieces of a node are those of its leaves. -/
theorem pieces_eq : ∀ node : Node, node.pieces = node.leaves.map piece
  | leaf .. => rfl
  | branch _ _ _ children => by rw [pieces, leaves, piecesAll_leaves children]

/-- The pieces of several nodes are those of their leaves. -/
theorem piecesAll_leaves : ∀ nodes : List Node, piecesAll nodes = (leavesAll nodes).map piece
  | [] => rfl
  | node :: rest => by
    rw [piecesAll, leavesAll, List.map_append, pieces_eq node, piecesAll_leaves rest]

end

mutual

/-- A leaf has no children, and its piece has its text. -/
theorem leaf_of_mem_leaves : ∀ {node leaf : Node}, leaf ∈ node.leaves →
    leaf.leaves = [leaf] ∧ leaf.piece.text = leaf.text
  | .leaf .., _, inside => by
    obtain rfl := List.mem_singleton.mp inside
    exact ⟨rfl, rfl⟩
  | .branch _ _ _ _, _, inside => leaf_of_mem_leavesAll inside

/-- The same of several nodes. -/
theorem leaf_of_mem_leavesAll : ∀ {nodes : List Node} {leaf : Node}, leaf ∈ leavesAll nodes →
    leaf.leaves = [leaf] ∧ leaf.piece.text = leaf.text
  | [], _, inside => by simp [leavesAll] at inside
  | _ :: _, _, inside => by
    rw [leavesAll, List.mem_append] at inside
    exact inside.elim leaf_of_mem_leaves leaf_of_mem_leavesAll

end

/-- The texts of the pieces of a node are those of its leaves. -/
theorem texts_pieces (node : Node) : node.pieces.map Piece.text = node.leaves.map text := by
  rw [pieces_eq, List.map_map]
  exact List.map_congr_left fun leaf inside => (leaf_of_mem_leaves inside).2

end Node

end CaretName
