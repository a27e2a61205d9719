import CaretName.Caret
import CaretName.Json.Value
import CaretName.Resolution

/-!
# Elements and carets as JSON

A value of several kinds is an object that names its kind beside its fields. When it is read,
an array of the kind and the fields in order is accepted as well, and so is a structure given
as the array of its fields. Unknown members of objects are ignored, and missing ones refused.
Inside an element the kind of a parameter type may also be given by its number.
-/
namespace CaretName

namespace Json

/-- The kinds of a value, each with the names of its fields. -/
abbrev Variants := List (String × List String)

/-- The kind that a value names, with its fields. -/
def tagOf? (variants : Variants) (byNumber : Bool) (tag : Json) :
    Option (String × List String) :=
  match tag with
  | .string name => variants.find? (·.1 == name)
  | .integer (.ofNat number) => if byNumber then variants[number]? else none
  | _ => none

/-- The name of the kind of a value and its fields in order. -/
def variant? (variants : Variants) (byNumber : Bool) : Json → Option (String × List Json)
  | object members => do
    let (name, fields) ← tagOf? variants byNumber (← (object members).member? "kind")
    some (name, ← fields.mapM fun field => (object members).member? field)
  | array (tag :: values) => do
    let (name, fields) ← tagOf? variants byNumber tag
    if fields.length == values.length then some (name, values) else none
  | _ => none

/-- The fields of a structure in order. -/
def fields? (names : List String) : Json → Option (List Json)
  | object members => names.mapM fun name => (object members).member? name
  | array values => if names.length == values.length then some values else none
  | _ => none

end Json

namespace TypeRef

/-- A parameter type as JSON. -/
def toJson : TypeRef → Json
  | declared simpleName text =>
    .object [("kind", .string "declared"), ("simple_name", .string simpleName),
      ("text", .string text)]
  | primitive text => .object [("kind", .string "primitive"), ("text", .string text)]
  | array text => .object [("kind", .string "array"), ("text", .string text)]
  | typeVariable text => .object [("kind", .string "type_variable"), ("text", .string text)]

/-- The kinds of parameter types. -/
def variants : Json.Variants :=
  [("declared", ["simple_name", "text"]), ("primitive", ["text"]), ("array", ["text"]),
    ("type_variable", ["text"])]

/-- The parameter type that a JSON value stands for. -/
def ofJson? (byNumber : Bool) (json : Json) : Option TypeRef := do
  match ← json.variant? variants byNumber with
  | ("declared", [simpleName, text]) => some (.declared (← simpleName.string?) (← text.string?))
  | ("primitive", [text]) => some (.primitive (← text.string?))
  | ("array", [text]) => some (.array (← text.string?))
  | ("type_variable", [text]) => some (.typeVariable (← text.string?))
  | _ => none

/-- The parameter types that a JSON array stands for. -/
def listOfJson? (byNumber : Bool) (json : Json) : Option (List TypeRef) := do
  (← json.array?).mapM (ofJson? byNumber)

end TypeRef

namespace Element

/-- An element as JSON. -/
def toJson : Element → Json
  | .type qualifiedName =>
    .object [("kind", .string "type"), ("qualified_name", .string qualifiedName)]
  | .variable declaredType simpleName =>
    .object [("kind", .string "variable"), ("declared_type", .string declaredType),
      ("simple_name", .string simpleName)]
  | .method enclosingType simpleName parameters =>
    .object [("kind", .string "method"), ("enclosing_type", .string enclosingType),
      ("simple_name", .string simpleName),
      ("parameters", .array (parameters.map TypeRef.toJson))]
  | .constructor enclosingType parameters =>
    .object [("kind", .string "constructor"), ("enclosing_type", .string enclosingType),
      ("parameters", .array (parameters.map TypeRef.toJson))]
  | .other => .object [("kind", .string "other")]

/-- The kinds of elements. -/
def variants : Json.Variants :=
  [("type", ["qualified_name"]), ("variable", ["declared_type", "simple_name"]),
    ("method", ["enclosing_type", "simple_name", "parameters"]),
    ("constructor", ["enclosing_type", "parameters"]), ("other", [])]

/-- The element that a JSON value stands for. -/
def ofJson? (json : Json) : Option Element := do
  match ← json.variant? variants false with
  | ("type", [qualifiedName]) => some (.type (← qualifiedName.string?))
  | ("variable", [declaredType, simpleName]) =>
    some (.variable (← declaredType.string?) (← simpleName.string?))
  | ("method", [enclosingType, simpleName, parameters]) =>
    some (.method (← enclosingType.string?) (← simpleName.string?)
      (← TypeRef.listOfJson? true parameters))
  | ("constructor", [enclosingType, parameters]) =>
    some (.constructor (← enclosingType.string?) (← TypeRef.listOfJson? true parameters))
  | ("other", []) => some .other
  | _ => none

end Element

namespace Declaration

/-- A declared type as JSON. -/
def toJson (declaration : Declaration) : Json :=
  .object [("qualified_name", .string declaration.qualifiedName),
    ("is_public", .bool declaration.isPublic)]

/-- The declared type that a JSON value stands for. -/
def ofJson? (json : Json) : Option Declaration := do
  match ← json.fields? ["qualified_name", "is_public"] with
  | [qualifiedName, isPublic] => some ⟨← qualifiedName.string?, ← isPublic.bool?⟩
  | _ => none

end Declaration

/-- The members that a resolution is written as. -/
def Resolution.members (resolution : Resolution) : List (String × Json) :=
  ("qualified_name", .string resolution.qualifiedName) ::
    match resolution.origin with
    | .element kind => [("origin", .string "element"), ("kind", .string kind.name)]
    | .file => [("origin", .string "file")]

/-- A resolution as JSON. -/
def Resolution.toJson (resolution : Resolution) : Json := .object resolution.members

namespace Caret

/-- A caret as JSON. -/
def toJson : Caret → Json
  | offset count => .object [("offset", .integer count)]
  | lineColumn line column =>
    .object [("line_column", .object [("line", .integer line), ("column", .integer column)])]

/-- The caret that a JSON value stands for: an object with one member. -/
def ofJson? : Json → Option Caret
  | .object [("offset", count)] => count.count?.map .offset
  | .object [("line_column", .object members)] => do
    some (.lineColumn (← (← (Json.object members).member? "line").count?)
      (← (← (Json.object members).member? "column").count?))
  | _ => none

end Caret

end CaretName
