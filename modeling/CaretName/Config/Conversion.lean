import CaretName.Config.Basic
import CaretName.Config.Setting

/-!
# From settings to a configuration

A section of the configuration is a table, where members that are missing keep their usual
values, or a list of the values in order, where those at the end may be missing. How a single
value is taken differs: strictly, only as what it is, or loosely, where numbers are texts as
well and texts and numbers can be truth values.
-/
namespace CaretName

/-- How settings are taken as values. -/
structure Conversion where
  text? : Setting → Option String
  flag? : Setting → Option Bool
  /-- Whether a list may hold more values than a section has. -/
  ignoresExtra : Bool

namespace Conversion

/-- A text, and nothing else. -/
def strictText? : Setting → Option String
  | .string value => some value
  | _ => none

/-- A truth value, and nothing else. -/
def strictFlag? : Setting → Option Bool
  | .bool value => some value
  | _ => none

/-- The text of a single value. -/
def looseText? : Setting → Option String
  | .bool value => some (if value then "true" else "false")
  | .integer value => some (toString value)
  | .real value => some value.text
  | .string value => some value
  | _ => none

/-- The truth value that a word stands for. -/
def flagOfWord? (word : String) : Option Bool :=
  let word := word.toLower
  if ["1", "true", "on", "yes"].contains word then some true
  else if ["0", "false", "off", "no"].contains word then some false
  else none

/-- The truth value of a single value. A number is true unless it is zero. -/
def looseFlag? : Setting → Option Bool
  | .bool value => some value
  | .integer value => some (value != 0)
  | .real value => some !value.isZero
  | .string value => flagOfWord? value
  | _ => none

/-- Every value must be what it is taken as. -/
def strict : Conversion := ⟨strictText?, strictFlag?, true⟩

/-- As strict, and a list may hold no more values than a section has. -/
def exact : Conversion := ⟨strictText?, strictFlag?, false⟩

/-- Values are converted where they can be. -/
def loose : Conversion := ⟨looseText?, looseFlag?, true⟩

/-- A list of texts. -/
def texts? (conversion : Conversion) : Setting → Option (List String)
  | .list items => items.mapM conversion.text?
  | _ => none

/-- The members of a section with the given names, as far as it has them. A date has none of
them but is taken for a section. -/
def section? (conversion : Conversion) (names : List String) (setting : Setting) :
    Option (List (Option Setting)) :=
  match setting with
  | .table _ => some (names.map fun name => setting.member? name)
  | .list items =>
    if names.length < items.length && !conversion.ignoresExtra then none
    else some ((List.range names.length).map fun index => items[index]?)
  | .moment _ => some (names.map fun _ => none)
  | _ => none

/-- A value that may be missing. -/
def orElse (usual : α) (convert : Setting → Option α) : Option Setting → Option α
  | none => some usual
  | some setting => convert setting

/-- The part of a configuration that is about the clipboard. -/
def clipboard? (conversion : Conversion) (setting : Setting) : Option ClipboardConfig := do
  let usual : ClipboardConfig := {}
  match ← conversion.section? ["provider", "command", "clear_on_unresolved"] setting with
  | [provider, command, clear] =>
    some ⟨← orElse usual.provider conversion.text? provider,
      ← orElse usual.command conversion.texts? command,
      ← orElse usual.clearOnUnresolved conversion.flag? clear⟩
  | _ => none

/-- The part of a configuration that is about output. -/
def output? (conversion : Conversion) (setting : Setting) : Option OutputConfig := do
  let usual : OutputConfig := {}
  match ← conversion.section? ["echo_status"] setting with
  | [echo] => some ⟨← orElse usual.echoStatus conversion.flag? echo⟩
  | _ => none

/-- The whole configuration. -/
def config? (conversion : Conversion) (setting : Setting) : Option Config := do
  match ← conversion.section? ["clipboard", "output"] setting with
  | [clipboard, output] =>
    some ⟨← orElse {} conversion.clipboard? clipboard, ← orElse {} conversion.output? output⟩
  | _ => none

end Conversion

end CaretName
