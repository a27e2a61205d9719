import CaretName.Grammar.Lexer
import CaretName.Grammar.Repair

/-!
# From a source to its tree

Every source has a tree. One that does not fit the grammar is repaired first.
-/
namespace CaretName.Grammar

/-- The tree of a file that holds the given nodes and is so many bytes long. -/
def rootOf (nodes : List Node) (length : Nat) : Node :=
  .branch (.construct .program) none ⟨(nodes.head?.map Node.start).getD length, length⟩ nodes

/-- The nodes of a source by its tokens. -/
def nodesOf (tokens : List Token) : List Node :=
  match readFile tokens with
  | .done nodes _ _ => nodes
  | .stuck _ => mend tokens

/-- The syntax tree of a source. -/
def parse (source : String) : Node :=
  rootOf (nodesOf (Lexer.tokenize source)) source.utf8ByteSize

end CaretName.Grammar
