import CaretName.Proofs.Grammar.Likeness
import CaretName.Proofs.Tree.Plain

/-!
# Reading without layout

The reader never looks at the white space between tokens. So `Likeness.plain` holds: from tokens
that are the same without layout come nodes that are the same without layout. `Grammar.plain_parse`
says what comes of it for whole sources.
-/
namespace CaretName

/-! ## Nodes and tokens -/

deriving instance DecidableEq for Token

/-- A token without white space and offsets. -/
def Token.plain (token : Token) : Token :=
  { token with start := 0, gap := "", before := token.before.map Node.plain }

namespace Node

/-- A node without layout is an extra if it was one. -/
@[simp] theorem isExtra_plain (node : Node) : node.plain.isExtra = node.isExtra := by
  simp [isExtra, isComment]

/-- A node gets a role without layout as well. -/
theorem plain_withRole (node : Node) (role : Option Role) :
    (node.withRole role).plain = node.plain.withRole role := by
  cases node <;> rfl

end Node

/-- Nodes get a role without layout as well. -/
theorem map_plain_inRole (role : Role) (nodes : List Node) :
    (inRole role nodes).map Node.plain = inRole role (nodes.map Node.plain) := by
  rw [inRole, inRole, List.map_map, List.map_map]
  refine List.map_congr_left fun node _ => ?_
  simp only [Function.comp_apply, Node.isExtra_plain, Node.role_plain]
  split
  · rfl
  · exact node.plain_withRole _

/-- Nodes are enclosed without layout as well. -/
theorem map_plain_enclose (construct : Construct) (nodes : List Node) :
    (enclose construct nodes).map Node.plain =
      (enclose construct (nodes.map Node.plain)).map Node.plain := by
  have plain (nodes : List Node) :
      (nodes.map Node.plain).map Node.plain = nodes.map Node.plain := by
    simp
  simp only [enclose, List.takeWhile_map, List.dropWhile_map, List.head?_map, List.getLast?_map,
    Function.comp_def, Node.isExtra_plain]
  generalize nodes.dropWhile _ = inside
  cases inside.head? with
  | none => exact (plain _).symm
  | some first =>
    cases inside.getLast? with
    | none => exact (plain _).symm
    | some last =>
      simp only [Option.map_some, List.map_append, plain, List.map_cons, List.map_nil, Node.plain,
        Node.plainAll_eq]

/-- The first construct among nodes does not depend on their layout. -/
theorem leadingConstruct?_plain (nodes : List Node) :
    leadingConstruct? (nodes.map Node.plain) = leadingConstruct? nodes := by
  simp only [leadingConstruct?, List.find?_map, Function.comp_def, Node.isExtra_plain]
  cases nodes.find? _ with
  | none => rfl
  | some node => simp

namespace Token

variable {token token' : Token}

/-- Tokens that are the same without layout are used alike. -/
theorem eq_of_plain_eq (same : token.plain = token'.plain) :
    token.sort = token'.sort ∧ token.text = token'.text ∧ token.index = token'.index ∧
      token.before.map Node.plain = token'.before.map Node.plain := by
  simp only [plain, mk.injEq] at same
  exact ⟨same.1, same.2.1, same.2.2.2.2.2, same.2.2.2.2.1⟩

/-- Tokens that are the same without layout become nodes that are. -/
theorem plain_nodes (same : token.plain = token'.plain) (kind : Kind) :
    (token.nodes kind).map Node.plain = (token'.nodes kind).map Node.plain := by
  obtain ⟨_, text, _, before⟩ := eq_of_plain_eq same
  simp [nodes, leaf, Node.plain, text, before]

/-- Marks that are the same without layout are split alike. -/
theorem splitClosing?_alike (same : token.plain = token'.plain) :
    Option.Rel (fun parts parts' => parts.1.plain = parts'.1.plain ∧
      List.Forall₂ (fun one other => one.plain = other.plain) parts.2 parts'.2)
      token.splitClosing? token'.splitClosing? := by
  obtain ⟨sort, text, index, before⟩ := eq_of_plain_eq same
  simp only [splitClosing?, ← sort, ← text]
  split
  · exact .some ⟨same, .nil⟩
  · next rest _ _ =>
    -- What is left of the mark starts one byte later in both, wherever they start.
    refine .some ⟨by simp [plain, sort, index, before], ?_⟩
    cases rest.isEmpty <;> simp [plain, sort, index]
  · exact .none

end Token

/-! ## Sources -/

/-- What is the same without layout is alike. -/
def Likeness.plain : Likeness where
  nodes := fun nodes nodes' => nodes.map Node.plain = nodes'.map Node.plain
  token := fun token token' => token.plain = token'.plain
  nil := rfl
  append := fun first second => by rw [List.map_append, first, second, ← List.map_append]
  inRole := fun role same => by rw [map_plain_inRole, same, ← map_plain_inRole]
  enclose := fun construct same => by rw [map_plain_enclose, same, ← map_plain_enclose]
  leading := fun same => by rw [← leadingConstruct?_plain, same, leadingConstruct?_plain]
  sort := fun same => (Token.eq_of_plain_eq same).1
  text := fun same => (Token.eq_of_plain_eq same).2.1
  index := fun same => (Token.eq_of_plain_eq same).2.2.1
  made := fun kind same => Token.plain_nodes same kind
  split := Token.splitClosing?_alike

namespace Grammar

variable {source source' : String}

/-- A source that is read without a repair has the same tree without layout as every other source
with the same tokens, and they need no repair either. -/
theorem plain_parse (accepted : accepts source = true)
    (same : (Lexer.tokenize source).map Token.plain = (Lexer.tokenize source').map Token.plain) :
    accepts source' = true ∧ (parse source).plain = (parse source').plain := by
  have alike : List.Forall₂ Likeness.plain.token (Lexer.tokenize source) (Lexer.tokenize source') := by
    rwa [← List.forall₂_eq_eq_eq, List.forall₂_map_left_iff, List.forall₂_map_right_iff] at same
  obtain ⟨all, rest, reach, done⟩ := exists_done accepted
  obtain ⟨nodes, nodes', last, last', rfl, ⟨_, done'⟩, made, ends⟩ := Likeness.file alike done
  have comments := (Token.eq_of_plain_eq ends).2.2.2
  refine ⟨by rw [accepts, done'], ?_⟩
  have made : nodes.map Node.plain = nodes'.map Node.plain := made
  simp [parse_of_done done, parse_of_done done', rootOf, Node.plain, Node.plainAll_eq, made,
    comments]

end Grammar

end CaretName
