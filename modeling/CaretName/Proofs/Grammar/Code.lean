import CaretName.Proofs.Grammar.WellFormed

/-!
# Statements and expressions

The grammar has no construct for statements or expressions in general, only rules that read one
of many. This module lists the constructs, and shows that the rules read no others: what a rule
reads is foreseen by `Rule.sights` from what is known of the named rules, and this is so for the
lists of statements and expressions.
-/
namespace CaretName

namespace Grammar

/-! ## The constructs -/

/-- The constructs that are statements, a switch and declarations aside. -/
def statementConstructs : List Construct :=
  [.block, .expressionStatement, .labeledStatement, .ifStatement, .whileStatement, .doStatement,
    .forStatement, .enhancedForStatement, .assertStatement, .breakStatement, .continueStatement,
    .returnStatement, .yieldStatement, .throwStatement, .synchronizedStatement, .tryStatement,
    .tryWithResourcesStatement]

/-- The constructs that are expressions. -/
def expressionConstructs : List Construct :=
  [.assignmentExpression, .binaryExpression, .instanceofExpression, .lambdaExpression,
    .ternaryExpression, .unaryExpression, .updateExpression, .castExpression, .switchExpression,
    .parenthesizedExpression, .arrayCreationExpression, .objectCreationExpression,
    .templateExpression, .classLiteral, .fieldAccess, .arrayAccess, .methodInvocation,
    .methodReference, .identifier, .thisWord, .trueWord, .falseWord, .nullLiteral,
    .decimalIntegerLiteral, .hexIntegerLiteral, .octalIntegerLiteral, .binaryIntegerLiteral,
    .decimalFloatingPointLiteral, .hexFloatingPointLiteral, .characterLiteral, .stringLiteral]

/-- The declarations that may stand among statements. -/
def declarationConstructs : List Construct :=
  .localVariableDeclaration :: typeDeclarations ++
    [.moduleDeclaration, .packageDeclaration, .importDeclaration]

/-- The constructs that the rules of statements and expressions may read. The reference to what is
inherited is no expression, but an expression may start with it. -/
def codeKnown : Part → List Look
  | .expression _ _ | .primary => (.superWord :: expressionConstructs).map .construct
  | .switch => [.construct .switchExpression]
  | .stringLiteral => [.construct .stringLiteral]
  | .block => [.construct .block]
  | .localVariable => [.construct .localVariableDeclaration]
  | .typeDeclaration => typeDeclarations.map .construct
  | .declaration => declarationConstructs.map .construct
  | .statement =>
    .mark :: (.switchExpression :: statementConstructs ++ declarationConstructs).map .construct
  | _ => [.any]

/-- What is known of statements and expressions is true. -/
theorem knows_codeKnown : Rule.Knows rules codeKnown :=
  knows_of_looksAsKnown (fun _ _ => rfl) (by decide +kernel) (by decide +kernel)

/-! ## What is read -/

variable {tokens rest : List Token} {nodes : List Node}

/-- What a named rule reads is a comment or looks as is known of the rule. -/
theorem looks_of_reads {which : Part} (sound : ∀ token ∈ tokens, token.Sound)
    (reads : Rule.Reads rules (.part which) tokens nodes rest) :
    ∀ node ∈ nodes, node.isExtra = true ∨ ∃ look ∈ codeKnown which, look.Fits node.kind := by
  intro node inside
  rcases reads.cover knows_codeKnown sound node inside with ⟨extra, _⟩ | ⟨_, sight, listed, fits⟩
  · exact .inl extra
  · obtain ⟨look, known, rfl⟩ := List.mem_map.mp listed
    exact .inr ⟨look, known, fits.1⟩

/-- Whatever is read as an expression is one of the expressions, comments and the reference to
what is inherited aside. -/
theorem isAny_of_reads_expression {floor : Nat} {arrow : Bool}
    (sound : ∀ token ∈ tokens, token.Sound)
    (reads : Rule.Reads rules (.part (.expression floor arrow)) tokens nodes rest) :
    ∀ node ∈ nodes, node.isExtra = true ∨
      node.isAny (.superWord :: expressionConstructs) = true := by
  intro node inside
  refine (looks_of_reads sound reads node inside).imp_right fun ⟨look, listed, fits⟩ => ?_
  obtain ⟨construct, among, rfl⟩ := List.mem_map.mp listed
  exact Node.isAny_iff.mpr ⟨construct, among, fits⟩

end Grammar

end CaretName
