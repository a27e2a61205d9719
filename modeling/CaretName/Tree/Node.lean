import CaretName.Tree.Kind

/-!
# Syntax trees

A tree keeps everything a source holds. A leaf carries its own text and the white space in
front of it, so the text of any node is put together from its leaves and no offset into a
source is ever needed. Offsets count bytes of UTF-8 and are stored beside the text because a
caret is one.

Comments are leaves as well. They may stand between any two children of any node and mean
nothing, so the readers of a tree go through `Node.parts`, the children that are neither
comments nor marks.
-/
namespace CaretName

/-- Bytes from `start` up to but not including `stop`. -/
structure Span where
  start : Nat
  stop : Nat
  deriving DecidableEq, Repr, Inhabited

/-- Whether every byte of the second span lies in the first. -/
def Span.covers (outer inner : Span) : Bool :=
  outer.start ≤ inner.start && inner.stop ≤ outer.stop

/-- What a child is to its parent, where the grammar says so. -/
inductive Role where
  | name
  | type
  | typeParameters
  | typeArguments
  | parameters
  | dimensions
  | superclass
  | interfaces
  | permits
  | body
  | declarator
  | value
  | key
  | object
  | field
  | array
  | index
  | arguments
  | condition
  | consequence
  | alternative
  | resources
  | left
  | operator
  | right
  | pattern
  | operand
  | init
  | update
  | element
  | scope
  | constructor
  deriving DecidableEq, Repr, Inhabited

/-- A syntax tree: leaves hold text, branches hold children in the order of the source. -/
inductive Node where
  /-- One token or comment, after the white space `gap`. -/
  | leaf (kind : Kind) (role : Option Role) (span : Span) (gap text : String)
  /-- A construct made of others. -/
  | branch (kind : Kind) (role : Option Role) (span : Span) (children : List Node)
  deriving Repr

namespace Node

instance : Inhabited Node := ⟨.branch (.construct .program) none ⟨0, 0⟩ []⟩

/-- What the node is. -/
def kind : Node → Kind
  | leaf kind .. => kind
  | branch kind .. => kind

/-- What the node is to its parent. -/
def role : Node → Option Role
  | leaf _ role .. => role
  | branch _ role .. => role

/-- The bytes from the node's first token to its last. -/
def span : Node → Span
  | leaf _ _ span .. => span
  | branch _ _ span _ => span

/-- The byte at which the node starts. -/
def start (node : Node) : Nat := node.span.start

/-- The byte just after the node. -/
def stop (node : Node) : Nat := node.span.stop

/-- All children, comments and marks among them. -/
def children : Node → List Node
  | leaf .. => []
  | branch _ _ _ children => children

/-- The same node in another role. -/
def withRole (role : Option Role) : Node → Node
  | leaf kind _ span gap text => .leaf kind role span gap text
  | branch kind _ span children => .branch kind role span children

/-- Whether the node is the given construct. -/
def is (node : Node) (construct : Construct) : Bool := node.kind == .construct construct

/-- Whether the node is one of the given constructs. -/
def isAny (node : Node) (constructs : List Construct) : Bool := constructs.any node.is

/-- Whether the node is a comment. -/
def isComment (node : Node) : Bool := node.isAny [.lineComment, .blockComment]

/-- Whether the node may stand between any two others: a comment, or what a repair set aside. -/
def isExtra (node : Node) : Bool := node.isComment || node.is .error

/-- Whether the node is a construct of the grammar, and not a bare mark. -/
def isConstruct (node : Node) : Bool :=
  match node.kind with
  | .construct _ => true
  | .mark _ => false

/-- Whether the node is a construct that means something, as comments do not. -/
def isPart (node : Node) : Bool := node.isConstruct && !node.isComment

/-- The children that are constructs other than comments. -/
def parts (node : Node) : List Node := node.children.filter isPart

/-- The first child in a role. -/
def child? (node : Node) (role : Role) : Option Node :=
  node.children.find? (·.role == some role)

mutual

/-- The text of a node with the white space in front of its first leaf. -/
def spaced : Node → String
  | leaf _ _ _ gap text => gap ++ text
  | branch _ _ _ children => spacedAll children

/-- The text of several nodes, each with the white space in front of it. -/
def spacedAll : List Node → String
  | [] => ""
  | node :: rest => node.spaced ++ spacedAll rest

end

/-- The text of a node as written, from its first token to its last. -/
def text : Node → String
  | leaf _ _ _ _ text => text
  | branch _ _ _ [] => ""
  | branch _ _ _ (first :: rest) => first.text ++ spacedAll rest

mutual

/-- How many nodes lie one inside the other from a node down to its deepest leaf. -/
def height : Node → Nat
  | leaf .. => 1
  | branch _ _ _ children => heightOfAll children + 1

/-- The greatest height among several nodes. -/
def heightOfAll : List Node → Nat
  | [] => 0
  | node :: rest => max node.height (heightOfAll rest)

end

mutual

/-- How many nodes there are in a tree. -/
def count : Node → Nat
  | leaf .. => 1
  | branch _ _ _ children => countOfAll children + 1

/-- How many nodes there are in several trees. -/
def countOfAll : List Node → Nat
  | [] => 0
  | node :: rest => node.count + countOfAll rest

end

/-- The nodes of trees behind others are counted behind them. -/
theorem countOfAll_append (front back : List Node) :
    countOfAll (front ++ back) = countOfAll front + countOfAll back := by
  induction front with
  | nil => exact (Nat.zero_add _).symm
  | cons node rest ih => rw [List.cons_append, countOfAll, countOfAll, ih, Nat.add_assoc]

end Node

end CaretName
