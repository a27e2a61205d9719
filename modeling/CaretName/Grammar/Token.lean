import CaretName.Tree.Node

/-!
# Tokens

A source is read as a list of tokens. Each token keeps the white space in front of it and the
comments that stand between it and the token before, already as nodes of the tree to come, so
no character of a source is lost.

Whether a word is a keyword is not decided here. A word is a keyword where the grammar asks for
that keyword, and a name anywhere else.
-/
namespace CaretName

/-- What a token can be used as. -/
inductive TokenSort where
  /-- A name or a keyword. -/
  | word
  /-- An operator or a punctuation character. -/
  | mark
  /-- A number, a character, or a piece of a string. -/
  | literal (construct : Construct)
  /-- A character that no token starts with. -/
  | stray
  /-- A mark that a source lacks, or a name where there is no spelling. It has no text. -/
  | supplied (spelling : String)
  /-- The end of the source. -/
  | finish
  deriving DecidableEq, Repr

/-- One token of a source. -/
structure Token where
  sort : TokenSort
  text : String
  /-- The byte at which the text starts. -/
  start : Nat
  /-- White space directly in front of the text. -/
  gap : String
  /-- Comments between the token before and this one. -/
  before : List Node
  /-- How many tokens of the source come before this one. -/
  index : Nat
  deriving Repr

namespace Token

/-- The bytes of the token. -/
def span (token : Token) : Span := ⟨token.start, token.start + token.text.utf8ByteSize⟩

/-- The leaf that the token becomes. -/
def leaf (token : Token) (kind : Kind) : Node := .leaf kind none token.span token.gap token.text

/-- The nodes that the token becomes: the comments before it, then its leaf. -/
def nodes (token : Token) (kind : Kind) : List Node := token.before ++ [token.leaf kind]

/-- Whether the token stands for itself with the given text, as a keyword or a mark does. -/
def spells (token : Token) (text : String) : Bool :=
  match token.sort with
  | .word | .mark => token.text == text
  | .supplied spelling => spelling == text
  | _ => false

/-- Whether the token can be a name other than the given words. -/
def isName (reserved : List String) (token : Token) : Bool :=
  match token.sort with
  | .word => !reserved.contains token.text
  | .supplied spelling => spelling.isEmpty
  | _ => false

end Token

end CaretName
