import CaretName.Grammar.Types

/-!
# Grammar of expressions

Operators bind by number, the larger the tighter. An expression of some floor is an operand
that grows by every operator that binds at least that tightly; the right operand of a
left-associative operator has a floor one higher than the operator itself. An assignment and
the arrow of a lambda expression take everything to their right.
-/
namespace CaretName.Grammar

/-- Binary operators with the tightness of their binding. -/
def binaryOperators : List (String × Nat) :=
  [("||", 4), ("&&", 5), ("|", 6), ("^", 7), ("&", 8), ("==", 9), ("!=", 9), ("<", 10),
    (">", 10), ("<=", 10), (">=", 10), ("<<", 11), (">>", 11), (">>>", 11), ("+", 12),
    ("-", 12), ("*", 13), ("/", 13), ("%", 13)]

/-- How tightly the conditional operator binds. -/
def conditionalLevel : Nat := 3

/-- How tightly a type test binds. -/
def typeTestLevel : Nat := 10

/-- How tightly a cast binds its operand. -/
def castLevel : Nat := 14

/-- How tightly signs, negations and steps by one bind. -/
def unaryLevel : Nat := 15

/-- Operators that assign. -/
def assignmentOperators : List String :=
  ["=", "+=", "-=", "*=", "/=", "&=", "|=", "^=", "%=", "<<=", ">>=", ">>>="]

/-- One of several keywords or marks. -/
def oneText (texts : List String) : Grammar.Rule := .choice (texts.map .text)

/-- A number, a character, a truth value or the null reference. -/
def literal : Grammar.Rule :=
  .choice [
    .literal .decimalIntegerLiteral, .literal .hexIntegerLiteral,
    .literal .octalIntegerLiteral, .literal .binaryIntegerLiteral,
    .literal .decimalFloatingPointLiteral, .literal .hexFloatingPointLiteral,
    .leaf .trueWord "true", .leaf .falseWord "false", .literal .characterLiteral,
    .part .stringLiteral, .leaf .nullLiteral "null"]

/-- A string of fragments, escapes and embedded expressions. -/
def stringLiteral : Grammar.Rule :=
  let pieces : Grammar.Rule := .many (.choice [
    .literal .stringFragment, .literal .multilineStringFragment, .literal .escapeSequence,
    .node .stringInterpolation (.seq ["\\\x7b", expression, "\x7d"])])
  .node .stringLiteral (.choice [
    .seq ["\"\"\"", pieces, "\"\"\""],
    .seq ["\"", pieces, "\""]])

/-- Arguments of a call. -/
def argumentList : Grammar.Rule := .node .argumentList (.seq ["(", .commas expression, ")"])

/-- Initial values of an array. -/
def arrayInitializer : Grammar.Rule :=
  .node .arrayInitializer (.seq [
    "\x7b", .commas (.choice [expression, .part .arrayInitializer]), .optional ",", "\x7d"])

/-- An expression in parentheses. -/
def parenthesized : Grammar.Rule := .node .parenthesizedExpression (.seq ["(", expression, ")"])

/-- The creation of an object, from the word `new` on. -/
def objectCreation : Grammar.Rule :=
  .seq [
    "new",
    .choice [
      .seq [annotations, .field .typeArguments (.part .typeArguments), annotations],
      annotations],
    .field .type simpleType,
    .field .arguments (.part .arguments),
    .optional (.part .classBody)]

/-- The creation of an array. -/
def arrayCreation : Grammar.Rule :=
  .node .arrayCreationExpression (.seq [
    "new", annotations, .field .type simpleType,
    .choice [
      .seq [
        .field .dimensions (.some (.node .dimensionsExpr (.seq [
          annotations, "[", expression, "]"]))),
        .optional (.field .dimensions (.part .dimensions))],
      .seq [
        .field .dimensions (.part .dimensions),
        .field .value (.part .arrayInitializer)]]])

/-- What follows the receiver of a method reference. -/
def referenceTail : Grammar.Rule :=
  .seq ["::", .optional (.part .typeArguments), .choice ["new", declaredName]]

/-- A dotted name in front of `::`. It could be a type as well and is taken for an expression. -/
def referredName : Grammar.Rule :=
  .seq [
    .grow identifier
      [{ onto := fun _ => true
         role := some .object
         construct := .fieldAccess
         tail := .seq [".", .field .field memberName] }],
    .ahead ["::"]]

/-- An expression that starts no longer one. A type in front of `class` or `::` is tried first; in
front of `::` it counts only when it can be no expression, so a dotted name is tried before it. -/
def primarySeed : Grammar.Rule :=
  .choice [
    .node .classLiteral (.seq [.part .plainType, ".", "class"]),
    referredName,
    .node .methodReference (.seq [.part .type, referenceTail]),
    literal, thisWord,
    .seq [superWord, .ahead [".", "::"]],
    arrayCreation,
    .node .objectCreationExpression objectCreation,
    .node .methodInvocation (.seq [
      .field .name identifier, .field .arguments (.part .arguments)]),
    identifier, parenthesized]

/-- An expression that needs no parentheses in front of a dot. -/
def primary : Grammar.Rule :=
  let throughSuper : Grammar.Rule := .optional (.seq [superWord, "."])
  .grow primarySeed
    [{ onto := fun construct => construct != .superWord
       role := none
       construct := .objectCreationExpression
       tail := .seq [".", objectCreation] },
     { onto := fun _ => true
       role := some .object
       construct := .methodInvocation
       tail := .seq [
         ".", throughSuper, .field .typeArguments (.optional (.part .typeArguments)),
         .field .name memberName, .field .arguments (.part .arguments)] },
     { onto := fun _ => true
       role := some .object
       construct := .fieldAccess
       tail := .seq [".", throughSuper, .field .field (.choice [thisWord, memberName])] },
     { onto := fun construct => construct != .superWord
       role := none
       construct := .templateExpression
       tail := .seq [".", .part .stringLiteral] },
     { onto := fun construct => construct != .superWord
       role := some .array
       construct := .arrayAccess
       tail := .seq ["[", .field .index expression, "]"] },
     { onto := fun _ => true
       role := none
       construct := .methodReference
       tail := referenceTail }]

/-- Whether a value can be assigned to the construct. -/
def isAssignable (construct : Construct) : Bool :=
  construct == .identifier || construct == .fieldAccess || construct == .arrayAccess

/-- A primary expression, or an assignment to one. -/
def assignment (arrow : Bool) : Grammar.Rule :=
  .grow (.part .primary)
    [{ onto := isAssignable
       role := some .left
       construct := .assignmentExpression
       tail := .seq [
         .field .operator (oneText assignmentOperators),
         .field .right (.part (.expression 0 arrow))] }]

/-- A lambda expression. -/
def lambda : Grammar.Rule :=
  .node .lambdaExpression (.seq [
    .field .parameters (.choice [
      identifier,
      .node .inferredParameters (.seq ["(", .separated "," identifier, ")"]),
      .part .parameters]),
    "->",
    .field .body (.choice [.part .block, expression])])

/-- What operators apply to. A single name in parentheses before a sign is a value: the sign is
an operator between two values. -/
def operand (arrow : Bool) : Grammar.Rule :=
  .choice ((if arrow then [lambda] else []) ++ [
    .seq [
      .node .parenthesizedExpression (.seq ["(", identifier, ")"]),
      .ahead ["+", "-"]],
    .node .castExpression (.seq [
      "(", .separated "&" (.field .type (.part .type)), ")",
      .field .value (.part (.expression (castLevel + 1) arrow))]),
    .node .unaryExpression (.seq [
      .field .operator (oneText ["+", "-", "!", "~"]),
      .field .operand (.part (.expression (unaryLevel + 1) arrow))]),
    .node .updateExpression (.seq [
      oneText ["++", "--"], .part (.expression (unaryLevel + 1) arrow)]),
    .part .switch,
    assignment arrow])

/-- A test of the type of a value, after the value. -/
def typeTest : Grammar.Rule :=
  .seq [
    "instanceof", .optional "final",
    .choice [
      .field .pattern (.part .recordPattern),
      .seq [.field .right (.part .type), .optional (.field .name identifier)]]]

/-- The ways in which an operand grows, each with the tightness of its binding. -/
def operatorGrowths (arrow : Bool) : List (Nat × Growth Grammar.Rule) :=
  binaryOperators.map (fun (text, level) =>
    (level,
      { onto := fun _ => true
        role := some .left
        construct := .binaryExpression
        tail := .seq [
          .field .operator (.text text),
          .field .right (.part (.expression (level + 1) arrow))] })) ++
  [(conditionalLevel,
      { onto := fun _ => true
        role := some .condition
        construct := .ternaryExpression
        tail := .seq [
          "?", .field .consequence expression, ":",
          .field .alternative (.part (.expression conditionalLevel arrow))] }),
    (typeTestLevel,
      { onto := fun _ => true
        role := some .left
        construct := .instanceofExpression
        tail := typeTest }),
    (unaryLevel,
      { onto := fun _ => true
        role := none
        construct := .updateExpression
        tail := oneText ["++", "--"] })]

/-- An expression made with operators that bind at least as tightly as the floor. -/
def expressionAbove (floor : Nat) (arrow : Bool) : Grammar.Rule :=
  .grow (operand arrow)
    (((operatorGrowths arrow).filter fun growth => floor ≤ growth.1).map (·.2))

end CaretName.Grammar
