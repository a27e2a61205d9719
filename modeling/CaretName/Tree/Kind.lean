/-!
# Kinds of nodes

A node of a syntax tree is either a construct of the grammar, such as a class declaration, or a
bare mark: a keyword, an operator or a punctuation character standing for itself. `Construct`
names the constructs, `Kind` adds the marks, and `Kind.name` writes either the way a tree is
printed.
-/
namespace CaretName

/-- What a node of the grammar is. -/
inductive Construct where
  | program
  | lineComment
  | blockComment
  | identifier
  | typeIdentifier
  | scopedIdentifier
  | scopedTypeIdentifier
  | genericType
  | arrayType
  | annotatedType
  | integralType
  | floatingPointType
  | booleanType
  | voidType
  | typeArguments
  | wildcard
  | dimensions
  | dimensionsExpr
  | typeParameters
  | typeParameter
  | typeBound
  | typeList
  | superclass
  | superInterfaces
  | extendsInterfaces
  | permits
  | throws
  | packageDeclaration
  | importDeclaration
  | asterisk
  | moduleDeclaration
  | moduleBody
  | requiresModuleDirective
  | requiresModifier
  | exportsModuleDirective
  | opensModuleDirective
  | usesModuleDirective
  | providesModuleDirective
  | modifiers
  | annotationMarker
  | annotationWithArguments
  | annotationArgumentList
  | elementValuePair
  | elementValueArrayInitializer
  | classDeclaration
  | classBody
  | interfaceDeclaration
  | interfaceBody
  | enumDeclaration
  | enumBody
  | enumBodyDeclarations
  | enumConstant
  | recordDeclaration
  | annotationTypeDeclaration
  | annotationTypeBody
  | annotationTypeElementDeclaration
  | constantDeclaration
  | fieldDeclaration
  | variableDeclarator
  | methodDeclaration
  | constructorDeclaration
  | constructorBody
  | compactConstructorDeclaration
  | explicitConstructorInvocation
  | staticInitializer
  | formalParameters
  | formalParameter
  | receiverParameter
  | spreadParameter
  | block
  | localVariableDeclaration
  | expressionStatement
  | labeledStatement
  | ifStatement
  | whileStatement
  | doStatement
  | forStatement
  | enhancedForStatement
  | assertStatement
  | breakStatement
  | continueStatement
  | returnStatement
  | yieldStatement
  | throwStatement
  | synchronizedStatement
  | tryStatement
  | tryWithResourcesStatement
  | resourceSpecification
  | resource
  | catchClause
  | catchFormalParameter
  | catchType
  | finallyClause
  | switchExpression
  | switchBlock
  | switchBlockStatementGroup
  | switchRule
  | switchLabel
  | pattern
  | typePattern
  | recordPattern
  | recordPatternBody
  | recordPatternComponent
  | underscorePattern
  | guard
  | assignmentExpression
  | binaryExpression
  | instanceofExpression
  | lambdaExpression
  | inferredParameters
  | ternaryExpression
  | unaryExpression
  | updateExpression
  | castExpression
  | parenthesizedExpression
  | arrayAccess
  | arrayCreationExpression
  | arrayInitializer
  | objectCreationExpression
  | classLiteral
  | fieldAccess
  | methodInvocation
  | methodReference
  | argumentList
  | templateExpression
  | thisWord
  | superWord
  | trueWord
  | falseWord
  | nullLiteral
  | decimalIntegerLiteral
  | hexIntegerLiteral
  | octalIntegerLiteral
  | binaryIntegerLiteral
  | decimalFloatingPointLiteral
  | hexFloatingPointLiteral
  | characterLiteral
  | stringLiteral
  | stringFragment
  | multilineStringFragment
  | escapeSequence
  | stringInterpolation
  | error
  deriving DecidableEq, Repr, Inhabited

/-- The name a construct is printed with. -/
def Construct.name : Construct → String
  | .program => "program"
  | .lineComment => "line_comment"
  | .blockComment => "block_comment"
  | .identifier => "identifier"
  | .typeIdentifier => "type_identifier"
  | .scopedIdentifier => "scoped_identifier"
  | .scopedTypeIdentifier => "scoped_type_identifier"
  | .genericType => "generic_type"
  | .arrayType => "array_type"
  | .annotatedType => "annotated_type"
  | .integralType => "integral_type"
  | .floatingPointType => "floating_point_type"
  | .booleanType => "boolean_type"
  | .voidType => "void_type"
  | .typeArguments => "type_arguments"
  | .wildcard => "wildcard"
  | .dimensions => "dimensions"
  | .dimensionsExpr => "dimensions_expr"
  | .typeParameters => "type_parameters"
  | .typeParameter => "type_parameter"
  | .typeBound => "type_bound"
  | .typeList => "type_list"
  | .superclass => "superclass"
  | .superInterfaces => "super_interfaces"
  | .extendsInterfaces => "extends_interfaces"
  | .permits => "permits"
  | .throws => "throws"
  | .packageDeclaration => "package_declaration"
  | .importDeclaration => "import_declaration"
  | .asterisk => "asterisk"
  | .moduleDeclaration => "module_declaration"
  | .moduleBody => "module_body"
  | .requiresModuleDirective => "requires_module_directive"
  | .requiresModifier => "requires_modifier"
  | .exportsModuleDirective => "exports_module_directive"
  | .opensModuleDirective => "opens_module_directive"
  | .usesModuleDirective => "uses_module_directive"
  | .providesModuleDirective => "provides_module_directive"
  | .modifiers => "modifiers"
  | .annotationMarker => "marker_annotation"
  | .annotationWithArguments => "annotation"
  | .annotationArgumentList => "annotation_argument_list"
  | .elementValuePair => "element_value_pair"
  | .elementValueArrayInitializer => "element_value_array_initializer"
  | .classDeclaration => "class_declaration"
  | .classBody => "class_body"
  | .interfaceDeclaration => "interface_declaration"
  | .interfaceBody => "interface_body"
  | .enumDeclaration => "enum_declaration"
  | .enumBody => "enum_body"
  | .enumBodyDeclarations => "enum_body_declarations"
  | .enumConstant => "enum_constant"
  | .recordDeclaration => "record_declaration"
  | .annotationTypeDeclaration => "annotation_type_declaration"
  | .annotationTypeBody => "annotation_type_body"
  | .annotationTypeElementDeclaration => "annotation_type_element_declaration"
  | .constantDeclaration => "constant_declaration"
  | .fieldDeclaration => "field_declaration"
  | .variableDeclarator => "variable_declarator"
  | .methodDeclaration => "method_declaration"
  | .constructorDeclaration => "constructor_declaration"
  | .constructorBody => "constructor_body"
  | .compactConstructorDeclaration => "compact_constructor_declaration"
  | .explicitConstructorInvocation => "explicit_constructor_invocation"
  | .staticInitializer => "static_initializer"
  | .formalParameters => "formal_parameters"
  | .formalParameter => "formal_parameter"
  | .receiverParameter => "receiver_parameter"
  | .spreadParameter => "spread_parameter"
  | .block => "block"
  | .localVariableDeclaration => "local_variable_declaration"
  | .expressionStatement => "expression_statement"
  | .labeledStatement => "labeled_statement"
  | .ifStatement => "if_statement"
  | .whileStatement => "while_statement"
  | .doStatement => "do_statement"
  | .forStatement => "for_statement"
  | .enhancedForStatement => "enhanced_for_statement"
  | .assertStatement => "assert_statement"
  | .breakStatement => "break_statement"
  | .continueStatement => "continue_statement"
  | .returnStatement => "return_statement"
  | .yieldStatement => "yield_statement"
  | .throwStatement => "throw_statement"
  | .synchronizedStatement => "synchronized_statement"
  | .tryStatement => "try_statement"
  | .tryWithResourcesStatement => "try_with_resources_statement"
  | .resourceSpecification => "resource_specification"
  | .resource => "resource"
  | .catchClause => "catch_clause"
  | .catchFormalParameter => "catch_formal_parameter"
  | .catchType => "catch_type"
  | .finallyClause => "finally_clause"
  | .switchExpression => "switch_expression"
  | .switchBlock => "switch_block"
  | .switchBlockStatementGroup => "switch_block_statement_group"
  | .switchRule => "switch_rule"
  | .switchLabel => "switch_label"
  | .pattern => "pattern"
  | .typePattern => "type_pattern"
  | .recordPattern => "record_pattern"
  | .recordPatternBody => "record_pattern_body"
  | .recordPatternComponent => "record_pattern_component"
  | .underscorePattern => "underscore_pattern"
  | .guard => "guard"
  | .assignmentExpression => "assignment_expression"
  | .binaryExpression => "binary_expression"
  | .instanceofExpression => "instanceof_expression"
  | .lambdaExpression => "lambda_expression"
  | .inferredParameters => "inferred_parameters"
  | .ternaryExpression => "ternary_expression"
  | .unaryExpression => "unary_expression"
  | .updateExpression => "update_expression"
  | .castExpression => "cast_expression"
  | .parenthesizedExpression => "parenthesized_expression"
  | .arrayAccess => "array_access"
  | .arrayCreationExpression => "array_creation_expression"
  | .arrayInitializer => "array_initializer"
  | .objectCreationExpression => "object_creation_expression"
  | .classLiteral => "class_literal"
  | .fieldAccess => "field_access"
  | .methodInvocation => "method_invocation"
  | .methodReference => "method_reference"
  | .argumentList => "argument_list"
  | .templateExpression => "template_expression"
  | .thisWord => "this"
  | .superWord => "super"
  | .trueWord => "true"
  | .falseWord => "false"
  | .nullLiteral => "null_literal"
  | .decimalIntegerLiteral => "decimal_integer_literal"
  | .hexIntegerLiteral => "hex_integer_literal"
  | .octalIntegerLiteral => "octal_integer_literal"
  | .binaryIntegerLiteral => "binary_integer_literal"
  | .decimalFloatingPointLiteral => "decimal_floating_point_literal"
  | .hexFloatingPointLiteral => "hex_floating_point_literal"
  | .characterLiteral => "character_literal"
  | .stringLiteral => "string_literal"
  | .stringFragment => "string_fragment"
  | .multilineStringFragment => "multiline_string_fragment"
  | .escapeSequence => "escape_sequence"
  | .stringInterpolation => "string_interpolation"
  | .error => "ERROR"

/-- A construct of the grammar, or a mark that stands for itself. -/
inductive Kind where
  | construct (what : Construct)
  | mark (text : String)
  deriving DecidableEq, Repr, Inhabited

/-- The name of a construct, or the text of a mark. -/
def Kind.name : Kind → String
  | .construct what => what.name
  | .mark text => text

end CaretName
