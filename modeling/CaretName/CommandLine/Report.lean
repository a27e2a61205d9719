import CaretName.Clipboard.Provider
import CaretName.CommandLine.Request
import CaretName.Config.File
import CaretName.CopyName
import CaretName.Json.Encoding
import CaretName.Json.Writer

/-!
# Running a command

A command prints text, may run programs, and ends with a status: zero, one where there was
trouble, and two for a command line that makes no sense. A name that is copied to standard
output is not printed there once more.
-/
namespace CaretName

/-- What running a command comes to. -/
structure Report where
  /-- What is printed to standard output. -/
  output : String := ""
  runs : List Run := []
  trouble : Option Trouble := none
  status : Nat := 0
  deriving Repr

namespace Report

/-- A report of printed text. -/
def printing (output : String) : Report := { output }

/-- A report of trouble. -/
def failing (trouble : Trouble) : Report := { trouble := some trouble, status := 1 }

/-- The report of a command line that makes no sense. -/
def refused : Report := { status := 2 }

/-- A report with the events at a clipboard put before its output. -/
def after (events : List ClipboardEvent) (report : Report) : Report :=
  let printed := events.filterMap fun
    | .printed text => some text
    | .ran _ => none
  let runs := events.filterMap fun
    | .ran run => some run
    | .printed _ => none
  { report with output := String.join printed ++ report.output, runs := runs ++ report.runs }

end Report

/-- A text on a line of its own. -/
def onLine (text : String) : String := text ++ "\n"

namespace CommandLine

/-- What is said about the program. -/
def versionText : String := "copyqn 0.1.0"

/-- How the program is used. -/
def helpText : String :=
  "Copy the qualified name of the Java element under the caret\n\n" ++
    "Usage: copyqn [OPTIONS] <COMMAND>"

/-- What is printed after a name has been copied. -/
def echo (config : Config) (path : String) : Outcome → String
  | .unsupported => onLine (Outcome.status path .unsupported)
  | .resolved resolution =>
    if config.output.echoStatus && config.clipboard.provider != "stdout" then
      onLine resolution.qualifiedName
    else ""
  | .unresolved => ""

/-- What copying the name for a caret comes to with a configuration that can be used, and what
happens at the clipboard, which a file of another language does not need. -/
def copyOutcome (surroundings : Surroundings) (config : Config) (path : String)
    (caret : Option Caret) : Except Trouble Outcome × List ClipboardEvent :=
  if (Language.ofPath? path).isNone then (.ok .unsupported, [])
  else match config.clipboard.openClipboard surroundings with
    | .error failure => (.error (.failed failure), [])
    | .ok clipboard =>
      surroundings.copyName path caret config.clipboard.clearOnUnresolved clipboard

/-- Copy the name for a caret, with a configuration that can be used. -/
def copyWith (surroundings : Surroundings) (config : Config) (path : String)
    (caret : Option Caret) : Report :=
  let (result, events) := copyOutcome surroundings config path caret
  Report.after events (match result with
    | .ok outcome => .printing (echo config path outcome)
    | .error trouble => .failing trouble)

/-- Copy the name for a caret. -/
def copy (surroundings : Surroundings) (path : String) (caret : Option Caret)
    (configPath : Option String) : Report :=
  match Config.load surroundings configPath with
  | .error failure => .failing (.during "Failed to load configuration" (.failed failure))
  | .ok config =>
    match config.fault? with
    | some failure => .failing (.failed failure)
    | none => copyWith surroundings config path caret

/-- An outcome as JSON. -/
def outcomeJson (path : String) (outcome : Outcome) : Json :=
  .object ([("file", .string path), ("supported", .bool (outcome != .unsupported))] ++
    match outcome with
    | .resolved resolution => resolution.members
    | _ => [("qualified_name", .null)])

/-- An outcome as a line, where there is anything to say. -/
def outcomeLine (path : String) : Outcome → String
  | .unresolved => ""
  | outcome => onLine (outcome.status path)

/-- Print the name for a caret. -/
def resolve (surroundings : Surroundings) (path : String) (caret : Option Caret) (json : Bool) :
    Report :=
  match surroundings.resolvePath path caret with
  | .error trouble => .failing trouble
  | .ok outcome =>
    if json then .printing (onLine (outcomeJson path outcome).compact)
    else .printing (outcomeLine path outcome)

/-- A declared type as a line: its name, and whether it is public. -/
def declarationLine (declaration : Declaration) : String :=
  onLine (declaration.qualifiedName ++ "\t" ++ if declaration.isPublic then "public" else "")

/-- Print the types declared at the top of a file. -/
def declarations (surroundings : Surroundings) (path : String) (json : Bool) : Report :=
  match surroundings.listDeclarations path with
  | .error trouble => .failing trouble
  | .ok none => .printing (onLine (Outcome.unsupportedStatus path))
  | .ok (some declarations) =>
    if json then
      .printing (onLine (Json.array (declarations.map Declaration.toJson)).pretty)
    else .printing (String.join (declarations.map declarationLine))

/-- Do what a command line asks for. -/
def run (surroundings : Surroundings) (words : List String) : Report :=
  match read? words with
  | none => .refused
  | some .version => .printing (onLine versionText)
  | some .help => .printing (onLine helpText)
  | some (.copy file caret config) => copy surroundings file caret config
  | some (.resolve file caret json) => resolve surroundings file caret json
  | some (.declarations file json) => declarations surroundings file json

end CommandLine

end CaretName
