import CaretName.Grammar.Expressions

/-!
# Grammar of statements

A statement that starts with a keyword is read by its own rule. Of the others, a declaration is
tried before an expression.
-/
namespace CaretName.Grammar

/-- Statements in braces. -/
def block : Grammar.Rule := .node .block (.seq ["\x7b", .many (.part .statement), "\x7d"])

/-- Variables declared inside a block. -/
def localVariable : Grammar.Rule :=
  .node .localVariableDeclaration (.seq [
    modifiers, .field .type (.part .plainType), variableDeclarators, ";"])

/-- An expression evaluated for its effect. -/
def expressionStatement : Grammar.Rule := .node .expressionStatement (.seq [expression, ";"])

/-- The end of a method by an error. -/
def throwStatement : Grammar.Rule := .node .throwStatement (.seq ["throw", expression, ";"])

/-- A component of a record that a value is taken apart by. -/
def recordComponent : Grammar.Rule :=
  let underscore : Grammar.Rule := .leaf .underscorePattern "_"
  .choice [
    .part .recordPattern,
    .node .recordPatternComponent (.choice [
      .seq [underscore, .ahead [",", ")"]],
      .seq [.part .plainType, .choice [underscore, identifier]]])]

/-- The name of a record and its components, by which a value is taken apart. -/
def recordPatternOf (components : Grammar.Rule) : Grammar.Rule :=
  .node .recordPattern (.seq [
    .choice [.only [.genericType] simpleType, identifier],
    .node .recordPatternBody (.seq ["(", components, ")"])])

/-- A record pattern with any number of components. -/
def recordPattern : Grammar.Rule := recordPatternOf (.commas recordComponent)

/-- A pattern of a switch label: a record pattern, or a type with the name of a variable. -/
def patternWith (record : Grammar.Rule) : Grammar.Rule :=
  .node .pattern (.choice [
    record,
    .node .typePattern (.seq [.part .plainType, .name .identifier ("when" :: reserved)])])

/-- What a branch of a switch is for. A name with nothing in its parentheses is a pattern at
the end of a label and a call in front of a guard. -/
def switchLabel : Grammar.Rule :=
  .node .switchLabel (.choice [
    .seq [
      "case",
      .choice [
        .seq [patternWith (.part .recordPattern), .ahead [":", "->"]],
        patternWith (recordPatternOf (.separated "," recordComponent)),
        .separated "," (.choice [arrowless, "default"])],
      .optional (.node .guard (.seq ["when", arrowless]))],
    "default"])

/-- The branches of a switch, all with colons or all with arrows. -/
def switchBlock : Grammar.Rule :=
  let group : Grammar.Rule :=
    .node .switchBlockStatementGroup (.seq [switchLabel, ":", .many (.part .statement)])
  let rule : Grammar.Rule :=
    .node .switchRule (.seq [
      switchLabel, "->", .choice [.part .block, throwStatement, expressionStatement]])
  .node .switchBlock (.choice [
    .seq ["\x7b", .some group, "\x7d"],
    .seq ["\x7b", .many rule, "\x7d"]])

/-- A switch, which is a statement and an expression. -/
def switch : Grammar.Rule :=
  .node .switchExpression (.seq [
    "switch", .field .condition parenthesized, .field .body switchBlock])

/-- A branch of a try statement that handles errors. -/
def catchClause : Grammar.Rule :=
  .node .catchClause (.seq [
    "catch", "(",
    .node .catchFormalParameter (.seq [
      modifiers, .node .catchType (.separated "|" (.part .plainType)), variableName]),
    ")", .field .body (.part .block)])

/-- The branch of a try statement that always runs. -/
def finallyClause : Grammar.Rule := .node .finallyClause (.seq ["finally", .part .block])

/-- Something that a try statement closes at its end. -/
def resource : Grammar.Rule :=
  .node .resource (.choice [
    .seq [
      modifiers, .field .type (.part .plainType), variableName, "=",
      .field .value expression],
    .only [.fieldAccess] (.part .primary),
    identifier])

/-- A try statement with or without resources. -/
def tryStatement : Grammar.Rule :=
  .choice [
    .node .tryWithResourcesStatement (.seq [
      "try",
      .field .resources (.node .resourceSpecification (.seq [
        "(", .separated ";" resource, .optional ";", ")"])),
      .field .body (.part .block), .many catchClause, .optional finallyClause]),
    .node .tryStatement (.seq [
      "try", .field .body (.part .block),
      .choice [.seq [.some catchClause, .optional finallyClause], finallyClause]])]

/-- A loop with a header. -/
def forStatement : Grammar.Rule :=
  .choice [
    .node .enhancedForStatement (.seq [
      "for", "(", modifiers, .field .type (.part .plainType), variableName, ":",
      .field .value expression, ")", .field .body (.part .statement)]),
    .node .forStatement (.seq [
      "for", "(",
      .choice [
        .field .init (.part .localVariable),
        .seq [.commas (.field .init expression), ";"]],
      .optional (.field .condition expression), ";",
      .commas (.field .update expression), ")",
      .field .body (.part .statement)])]

/-- A statement that its first word tells. -/
def keywordStatement : Grammar.Rule :=
  .choice [
    .part .block, ";",
    .node .ifStatement (.seq [
      "if", .field .condition parenthesized, .field .consequence (.part .statement),
      .optional (.seq ["else", .field .alternative (.part .statement)])]),
    .node .whileStatement (.seq [
      "while", .field .condition parenthesized, .field .body (.part .statement)]),
    forStatement,
    .node .doStatement (.seq [
      "do", .field .body (.part .statement), "while", .field .condition parenthesized, ";"]),
    tryStatement,
    .node .synchronizedStatement (.seq [
      "synchronized", parenthesized, .field .body (.part .block)]),
    .node .assertStatement (.seq [
      "assert", expression, .optional (.seq [":", expression]), ";"]),
    .node .breakStatement (.seq ["break", .optional declaredName, ";"]),
    .node .continueStatement (.seq ["continue", .optional declaredName, ";"]),
    .node .returnStatement (.seq ["return", .optional expression, ";"]),
    .node .yieldStatement (.seq ["yield", expression, ";"]),
    throwStatement]

/-- A statement. -/
def statement : Grammar.Rule :=
  .choice [
    keywordStatement,
    .part .declaration,
    .part .localVariable,
    expressionStatement,
    .part .switch,
    .node .labeledStatement (.seq [identifier, ":", .part .statement])]

end CaretName.Grammar
