import CaretName.Config.Conversion
import CaretName.Config.Environment
import CaretName.Json.Reader
import CaretName.Language
import CaretName.Toml.Document

/-!
# Loading the configuration

Three layers lie one over the other: the usual values, those of a file, and those of the
environment. Only then are they converted, so a value that another one covers need not be
right. The kind of a file is told by its extension.
-/
namespace CaretName

mutual

/-- Settings with dates and times taken for text. -/
def Setting.spelled : Setting → Setting
  | .moment text => .string text
  | .list items => .list (spelledAll items)
  | .table members => .table (spelledMembers members)
  | .null => .null
  | .bool value => .bool value
  | .integer value => .integer value
  | .real value => .real value
  | .string value => .string value

/-- Several settings with dates and times taken for text. -/
def Setting.spelledAll : List Setting → List Setting
  | [] => []
  | setting :: rest => setting.spelled :: spelledAll rest

/-- Members with dates and times taken for text. -/
def Setting.spelledMembers : List (String × Setting) → List (String × Setting)
  | [] => []
  | (name, setting) :: rest => (name, setting.spelled) :: spelledMembers rest

end

namespace Config

/-- The usual values as settings. -/
def usual : Setting :=
  let config : Config := {}
  .table
    [("clipboard", .table
      [("provider", .string config.clipboard.provider),
        ("command", .list (config.clipboard.command.map .string)),
        ("clear_on_unresolved", .bool config.clipboard.clearOnUnresolved)]),
      ("output", .table [("echo_status", .bool config.output.echoStatus)])]

/-- Settings with others laid over them, each at its path. -/
def layered (below : Setting) (above : List (List String × Setting)) : Setting :=
  above.foldl (fun setting (path, value) => value.overAt path (some setting)) below

/-- The members of a file, each with the path that its name stands for. -/
def layerOf (file : Setting) : List (List String × Setting) :=
  file.spelled.members.map fun (name, value) => (Environment.pathOf name, value)

/-- Why a layer cannot be read. -/
def notBuilt : Failure := .config "Failed to build config"

/-- Why the layers make no configuration. -/
def notConverted : Failure := .config "Failed to deserialize config"

/-- Why a document makes no configuration. -/
def notParsed : Failure := .config "Failed to parse TOML"

/-- The settings of a JSON document, which must be an object. -/
def jsonSettings? (text : String) : Option Setting :=
  match Json.read? text with
  | some (.object members) => some (Setting.ofJson (.object members))
  | _ => none

/-- The settings of a file by the extension of its path. -/
def fileSettings? (path text : String) : Option Setting :=
  match extension? path with
  | some "toml" => Toml.settings? text
  | some "json" => jsonSettings? text
  | _ => none

/-- The configuration of a file, if there is one, and the environment. -/
def ofLayers (file : Option Setting) (environment : Environment) : Except Failure Config :=
  let below := match file with
    | some file => layered usual (layerOf file)
    | none => usual
  match Conversion.loose.config? (layered below environment.settings) with
  | some config => .ok config
  | none => .error notConverted

/-- The configuration that a document alone gives. -/
def ofToml (text : String) : Except Failure Config :=
  match (Toml.settings? text).bind Conversion.strict.config? with
  | some config => .ok config
  | none => .error notParsed

end Config

end CaretName
