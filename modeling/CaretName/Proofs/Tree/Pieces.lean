import CaretName.Tree.Node

/-!
# Pieces of a source

The leaves of a tree, one after another, are the source that the tree was read from: each is a
text after some white space. `Node.pieces` lists them, and `Node.text_eq` says that the text of a
node is put together from its pieces, the white space in front of the first one left out.
-/
namespace CaretName

/-- A token or a comment, after the white space in front of it. -/
structure Piece where
  gap : String
  text : String
  deriving DecidableEq, Repr

namespace Piece

/-- Pieces one after another, each with the white space in front of it. -/
def spaced : List Piece → String
  | [] => ""
  | piece :: rest => piece.gap ++ piece.text ++ spaced rest

/-- Pieces one after another, from the first text to the last. -/
def joined : List Piece → String
  | [] => ""
  | first :: rest => first.text ++ spaced rest

/-- More pieces follow those that are there. -/
theorem spaced_append (first second : List Piece) :
    spaced (first ++ second) = spaced first ++ spaced second := by
  induction first with
  | nil => simp [spaced]
  | cons piece rest ih => simp [spaced, ih, String.append_assoc]

/-- After a first piece the others keep the white space in front of them. -/
theorem joined_append {first : List Piece} (filled : first ≠ []) (second : List Piece) :
    joined (first ++ second) = joined first ++ spaced second := by
  cases first with
  | nil => contradiction
  | cons piece rest => simp [joined, spaced_append, String.append_assoc]

/-- What is written of a piece is written of all of them. -/
theorem mem_joined {pieces : List Piece} {piece : Piece} (listed : piece ∈ pieces) {char : Char}
    (inside : char ∈ piece.text.toList) : char ∈ (joined pieces).toList := by
  have later : ∀ pieces : List Piece, piece ∈ pieces → char ∈ (spaced pieces).toList := by
    intro pieces listed
    induction pieces with
    | nil => contradiction
    | cons first rest ih =>
      rw [spaced, String.toList_append, String.toList_append, List.mem_append, List.mem_append]
      rcases List.mem_cons.mp listed with rfl | listed
      · exact .inl (.inr inside)
      · exact .inr (ih listed)
  cases pieces with
  | nil => contradiction
  | cons first rest =>
    rw [joined, String.toList_append, List.mem_append]
    rcases List.mem_cons.mp listed with rfl | listed
    · exact .inl inside
    · exact .inr (later rest listed)

end Piece

namespace Node

mutual

/-- The leaves of a node in the order of the source. -/
def pieces : Node → List Piece
  | leaf _ _ _ gap text => [⟨gap, text⟩]
  | branch _ _ _ children => piecesAll children

/-- The leaves of several nodes in the order of the source. -/
def piecesAll : List Node → List Piece
  | [] => []
  | node :: rest => node.pieces ++ piecesAll rest

end

mutual

/-- Whether every leaf of a node has a text and every construct in it has children. -/
def filled : Node → Bool
  | leaf _ _ _ _ text => text != ""
  | branch _ _ _ children => !children.isEmpty && filledAll children

/-- Whether this holds of several nodes. -/
def filledAll : List Node → Bool
  | [] => true
  | node :: rest => node.filled && filledAll rest

end

/-- The pieces of several nodes are those of each in turn. -/
theorem piecesAll_eq (nodes : List Node) : piecesAll nodes = nodes.flatMap pieces := by
  induction nodes with
  | nil => rfl
  | cons node rest ih => rw [piecesAll, ih, List.flatMap_cons]

/-- The pieces of more nodes follow those of the first ones. -/
theorem piecesAll_append (nodes more : List Node) :
    piecesAll (nodes ++ more) = piecesAll nodes ++ piecesAll more := by
  simp only [piecesAll_eq, List.flatMap_append]

/-- Several nodes are filled if each of them is. -/
theorem filledAll_iff {nodes : List Node} :
    filledAll nodes = true ↔ ∀ node ∈ nodes, node.filled = true := by
  induction nodes with
  | nil => simp [filledAll]
  | cons node rest ih => simp [filledAll, ih]

/-- More nodes are filled if the first ones are and the others, too. -/
theorem filledAll_append {nodes more : List Node} :
    filledAll (nodes ++ more) = true ↔ filledAll nodes = true ∧ filledAll more = true := by
  simp only [filledAll_iff, List.forall_mem_append]

/-- The pieces of a node are those of its children, if it has some. -/
theorem pieces_of_children {node : Node} (some : node.children ≠ []) :
    node.pieces = piecesAll node.children := by
  cases node with
  | leaf => contradiction
  | branch => rw [pieces, children]

/-- A node has the same pieces in any role. -/
@[simp] theorem pieces_withRole (node : Node) (role : Option Role) :
    (node.withRole role).pieces = node.pieces := by
  cases node <;> rfl

/-- A node is as filled in any role. -/
@[simp] theorem filled_withRole (node : Node) (role : Option Role) :
    (node.withRole role).filled = node.filled := by
  cases node <;> rfl

/-- The children of a filled node are filled. -/
theorem filled_of_mem_children {node child : Node} (filled : node.filled = true)
    (below : child ∈ node.children) : child.filled = true := by
  cases node with
  | leaf => simp [children] at below
  | branch kind role span nodes =>
    rw [Node.filled, Bool.and_eq_true] at filled
    exact filledAll_iff.mp filled.2 child below

mutual

/-- A filled node has pieces, and each has a text. -/
theorem pieces_of_filled : ∀ {node : Node}, node.filled = true →
    node.pieces ≠ [] ∧ ∀ piece ∈ node.pieces, piece.text ≠ ""
  | leaf _ _ _ gap text, filled => by
    have visible : text ≠ "" := by simpa [Node.filled] using filled
    simpa [pieces] using visible
  | branch _ _ _ children, filled => by
    simp only [Node.filled, Bool.and_eq_true, Bool.not_eq_true', List.isEmpty_eq_false_iff]
      at filled
    obtain ⟨first, each⟩ := piecesAll_of_filledAll filled.2
    exact ⟨first filled.1, each⟩

/-- The same of several nodes. -/
theorem piecesAll_of_filledAll : ∀ {nodes : List Node}, filledAll nodes = true →
    (nodes ≠ [] → piecesAll nodes ≠ []) ∧ ∀ piece ∈ piecesAll nodes, piece.text ≠ ""
  | [], _ => ⟨fun filled => absurd rfl filled, by simp [piecesAll]⟩
  | node :: rest, filled => by
    rw [filledAll, Bool.and_eq_true] at filled
    obtain ⟨some, here⟩ := pieces_of_filled filled.1
    obtain ⟨_, later⟩ := piecesAll_of_filledAll filled.2
    refine ⟨fun _ => ?_, fun piece inside => ?_⟩
    · rw [piecesAll]
      exact fun none => some (List.append_eq_nil_iff.mp none).1
    · rw [piecesAll, List.mem_append] at inside
      exact inside.elim (here piece) (later piece)

end

mutual

/-- A node with the white space in front of it is its pieces. -/
theorem spaced_eq : ∀ node : Node, node.spaced = Piece.spaced node.pieces
  | leaf _ _ _ gap text => by simp [spaced, pieces, Piece.spaced]
  | branch _ _ _ children => by rw [spaced, pieces, spacedAll_eq]

/-- The same of several nodes. -/
theorem spacedAll_eq : ∀ nodes : List Node, spacedAll nodes = Piece.spaced (piecesAll nodes)
  | [] => rfl
  | node :: rest => by
    rw [spacedAll, piecesAll, Piece.spaced_append, spaced_eq node, spacedAll_eq rest]

end

/-- The text of a node is its pieces from the first text on. -/
theorem text_eq : ∀ {node : Node}, node.filled = true → node.text = Piece.joined node.pieces
  | leaf .., _ => by simp [text, pieces, Piece.joined, Piece.spaced]
  | branch _ _ _ [], filled => by simp [Node.filled] at filled
  | branch _ _ _ (first :: rest), filled => by
    have front : first.filled = true := filled_of_mem_children filled List.mem_cons_self
    rw [text, text_eq front, spacedAll_eq, pieces, piecesAll,
      Piece.joined_append (pieces_of_filled front).1]

end Node

end CaretName
