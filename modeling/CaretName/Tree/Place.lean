import CaretName.Tree.Node

/-!
# Places in a tree

What a name means depends on what stands around it, so the readers of a tree work on places: a
node together with the steps that led to it from the root. The steps make the parent of a place
and all places around it available by recursion on a list, and they tell apart two nodes that
look alike: two places of one tree are the same exactly when their paths are.
-/
namespace CaretName

/-- One step down a tree: the node it starts from and the number of the child it takes. -/
structure Step where
  parent : Node
  index : Nat
  deriving Repr

/-- A node and the steps to it from the root of its tree, the last one first. -/
structure Place where
  node : Node
  above : List Step
  deriving Repr

namespace Place

instance : Inhabited Place := ⟨⟨default, []⟩⟩

/-- The root of a tree. -/
def root (node : Node) : Place := ⟨node, []⟩

/-- The numbers of the children taken from the root, the last one first. -/
def path (place : Place) : List Nat := place.above.map Step.index

/-- Whether two places of one tree are the same. -/
def same (place other : Place) : Bool := place.path == other.path

/-- What the node is. -/
def kind (place : Place) : Kind := place.node.kind

/-- Whether the node is the given construct. -/
def is (place : Place) (construct : Construct) : Bool := place.node.is construct

/-- Whether the node is one of the given constructs. -/
def isAny (place : Place) (constructs : List Construct) : Bool := place.node.isAny constructs

/-- Whether the node is the given mark. -/
def isMark (place : Place) (text : String) : Bool := place.kind == .mark text

/-- The text of the node as written. -/
def text (place : Place) : String := place.node.text

/-- The byte at which the node starts. -/
def start (place : Place) : Nat := place.node.start

/-- The byte just after the node. -/
def stop (place : Place) : Nat := place.node.stop

/-- The place around this one. -/
def parent? (place : Place) : Option Place :=
  match place.above with
  | [] => none
  | step :: above => some ⟨step.parent, above⟩

/-- The places that a chain of steps passes through, innermost first. -/
def along : List Step → List Place
  | [] => []
  | step :: above => ⟨step.parent, above⟩ :: along above

/-- The places around this one, innermost first. -/
def ancestors (place : Place) : List Place := along place.above

/-- This place and those around it, innermost first. -/
def outward (place : Place) : List Place := place :: place.ancestors

/-- Places of the given children, which are numbered from `index`. -/
def below (place : Place) (index : Nat) : List Node → List Place
  | [] => []
  | node :: rest => ⟨node, ⟨place.node, index⟩ :: place.above⟩ :: place.below (index + 1) rest

/-- The places of all children. -/
def children (place : Place) : List Place := place.below 0 place.node.children

/-- The places of the children that are constructs other than comments. -/
def parts (place : Place) : List Place := place.children.filter (·.node.isPart)

/-- The places of the children that are constructs, comments among them. -/
def constructs (place : Place) : List Place := place.children.filter (·.node.isConstruct)

/-- The places of the children in a role. -/
def inRole (place : Place) (role : Role) : List Place :=
  place.children.filter (·.node.role == some role)

/-- The place of the first child in a role. -/
def child? (place : Place) (role : Role) : Option Place :=
  place.children.find? (·.node.role == some role)

/-- Whether this place is the first child of its parent in a role. -/
def hasRole (place : Place) (role : Role) : Bool :=
  match place.parent? with
  | some parent => (parent.child? role).any place.same
  | none => false

/-- The root of the tree that holds the place. -/
def top (place : Place) : Place := place.outward.getLast (by simp [outward])

/-- There are fewer nodes in the parts of a place than in its own tree. -/
theorem count_parts_lt (place : Place) :
    Node.countOfAll (place.parts.map Place.node) < place.node.count := by
  have among : ∀ (index : Nat) (nodes : List Node),
      Node.countOfAll (((place.below index nodes).filter (·.node.isPart)).map Place.node) ≤
        Node.countOfAll nodes := by
    intro index nodes
    induction nodes generalizing index with
    | nil => exact Nat.le_refl 0
    | cons node rest ih =>
      have fewer := ih (index + 1)
      rw [below, List.filter_cons, Node.countOfAll]
      split
      · exact Nat.add_le_add_left fewer node.count
      · exact Nat.le_trans fewer (Nat.le_add_left _ node.count)
  obtain ⟨node, above⟩ := place
  cases node with
  | leaf => exact Nat.zero_lt_one
  | branch => exact Nat.lt_succ_of_le (among 0 _)

/-- What is put on a stack one by one, the last one first, lies there in order. -/
theorem foldl_push (parts stack : List Place) :
    parts.reverse.foldl (fun stack part => part :: stack) stack = parts ++ stack := by
  simp

/-- The places of a stack, and those reached from them through parts, for which something holds.
The place on top is taken off, and its parts are put on, the last one first, so that the first one
comes to lie on top. -/
def search (holds : Place → Bool) : List Place → List Place
  | [] => []
  | place :: stack =>
    (if holds place then [place] else []) ++
      search holds (place.parts.reverse.foldl (fun stack part => part :: stack) stack)
termination_by stack => Node.countOfAll (stack.map Place.node)
decreasing_by
  rw [foldl_push, List.map_append, Node.countOfAll_append, List.map_cons, Node.countOfAll]
  exact Nat.add_lt_add_right place.count_parts_lt _

end Place

/-- Whether a node reaches the end of a range of bytes and past its start. An empty node need
only touch the start. -/
def Node.reaches (node : Node) (range : Span) : Bool :=
  range.stop ≤ node.stop &&
    if node.start == node.stop then range.start ≤ node.stop else range.start < node.stop

mutual

/-- The smallest place inside a node that holds a range of bytes, the node itself when none of
its children does. -/
def Node.narrow (range : Span) (above : List Step) : Node → Place
  | .leaf kind role span gap text => ⟨.leaf kind role span gap text, above⟩
  | .branch kind role span children =>
    narrowAmong range ⟨.branch kind role span children, above⟩ 0 children

/-- The smallest place that holds a range of bytes among children numbered from `index`. The
first child that reaches the range decides: a range that starts before it lies in no child. -/
def narrowAmong (range : Span) (around : Place) (index : Nat) : List Node → Place
  | [] => around
  | node :: rest =>
    if node.reaches range then
      if range.start < node.start then around
      else node.narrow range (⟨around.node, index⟩ :: around.above)
    else narrowAmong range around (index + 1) rest

end

/-- The smallest place of a tree that holds a range of bytes. -/
def Node.placeAt (root : Node) (range : Span) : Place := root.narrow range []

mutual

/-- Every place inside a node and the node itself, in the order of the source: a node stands
before its parts, and each part before the next. Comments and marks are left out. -/
def Node.places (above : List Step) : Node → List Place
  | .leaf kind role span gap text => [⟨.leaf kind role span gap text, above⟩]
  | .branch kind role span children =>
    let place : Place := ⟨.branch kind role span children, above⟩
    place :: placesAmong place 0 children

/-- Every place inside those of the children, numbered from `index`, that are parts. -/
def placesAmong (around : Place) (index : Nat) : List Node → List Place
  | [] => []
  | node :: rest =>
    (if node.isPart then node.places (⟨around.node, index⟩ :: around.above) else []) ++
      placesAmong around (index + 1) rest

end

end CaretName
