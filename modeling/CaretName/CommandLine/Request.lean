import CaretName.Caret
import CaretName.Json.Value

/-!
# Requests on a command line

A command line names a command, a file and options, in any order as long as the command comes
before what belongs to it. An option may be given once before the command and once after it,
where the latter counts. Values may be attached to their options. After two dashes everything
is a file.
-/
namespace CaretName

/-- What a command line asks for. -/
inductive Request where
  /-- Copy the name for a caret, with the configuration at a path. -/
  | copy (file : String) (caret : Option Caret) (config : Option String)
  /-- Print the name for a caret, as JSON or bare. -/
  | resolve (file : String) (caret : Option Caret) (json : Bool)
  /-- Print the types declared at the top of a file, as JSON or bare. -/
  | declarations (file : String) (json : Bool)
  | version
  | help
  deriving DecidableEq, Repr

namespace CommandLine

/-- The commands. -/
inductive Verb where
  | copy
  | resolve
  | declarations
  deriving DecidableEq, Repr

/-- The command with a name. -/
def Verb.ofName? : String → Option Verb
  | "copy" => some .copy
  | "resolve" => some .resolve
  | "declarations" => some .declarations
  | _ => none

/-- The options. -/
inductive Switch where
  | config
  | verbose
  | line
  | column
  | offset
  | json
  | help
  | version
  deriving DecidableEq, Repr

namespace Switch

/-- The options that may come with a command, or before it. -/
def known : Option Verb → List Switch
  | none => [config, verbose, help, version]
  | some .copy => [config, verbose, help, line, column, offset]
  | some .resolve => [config, verbose, help, line, column, offset, json]
  | some .declarations => [config, verbose, help, json]

/-- The name of an option, which two dashes come before. -/
def longName : Switch → String
  | config => "config"
  | verbose => "verbose"
  | line => "line"
  | column => "column"
  | offset => "offset"
  | json => "json"
  | help => "help"
  | version => "version"

/-- The letter of an option, which one dash comes before. -/
def letter? : Switch → Option Char
  | config => some 'c'
  | verbose => some 'v'
  | help => some 'h'
  | version => some 'V'
  | _ => none

/-- Whether an option has a value. -/
def hasValue : Switch → Bool
  | config => true
  | line => true
  | column => true
  | offset => true
  | _ => false

end Switch

/-- What has been given so far. -/
structure Given where
  verb : Option Verb := none
  /-- The options given since the command, or before there is one, with their values. -/
  switches : List (Switch × String) := []
  /-- The file of the configuration given before the command. -/
  outerConfig : Option String := none
  file : Option String := none
  deriving Repr

/-- Why reading a command line ends early. -/
inductive Stop where
  | refused
  | help
  | version
  deriving DecidableEq, Repr

/-- The count that a text stands for: digits, maybe after a plus sign, for at most 64 bits. -/
def count? (text : String) : Option Nat :=
  let digits := match text.toList with
    | '+' :: rest => rest
    | chars => chars
  if digits.isEmpty || !digits.all Char.isDigit then none
  else
    let value := natOfDigits 0 digits
    if value ≤ Json.maxCount then some value else none

/-- Whether a text will do as the value of an option. -/
def accepts (switch : Switch) (text : String) : Bool :=
  if switch == .config then !text.isEmpty else (count? text).isSome

namespace Given

/-- Add an option with its value, which is empty for those without one. -/
def add (given : Given) (switch : Switch) (text : String) : Except Stop Given :=
  if switch == .help then .error .help
  else if switch == .version then .error .version
  else if (given.switches.lookup switch).isSome then .error .refused
  else if switch.hasValue && !accepts switch text then .error .refused
  else .ok { given with switches := (switch, text) :: given.switches }

/-- Add a word that is no option: the command, and then its file. -/
def addWord (given : Given) (trailing : Bool) (word : String) : Except Stop Given :=
  match given.verb with
  | none =>
    if trailing then .error .refused
    else match Verb.ofName? word with
      | some verb =>
        .ok { verb := some verb, outerConfig := given.switches.lookup .config }
      | none => if word == "help" then .error .help else .error .refused
  | some _ =>
    if given.file.isSome || word.isEmpty then .error .refused
    else .ok { given with file := some word }

/-- The option that a test tells from the others. -/
def switch? (given : Given) (test : Switch → Bool) : Option Switch :=
  (Switch.known given.verb).find? test

/-- The value of an option that counts a position. -/
def position (given : Given) (switch : Switch) : Option Nat :=
  (given.switches.lookup switch).bind count?

end Given

/-- Whether a word can be the value of the option before it. -/
def isValue (word : String) : Bool := !word.startsWith "-" || word == "-"

/-- Read the letters after a single dash. The last one may have its value attached. An option
that is still to get its value is given back with what has been given. -/
def readLetters (given : Given) : List Char → Except Stop (Given × Option Switch)
  | [] => .ok (given, none)
  | letter :: rest =>
    match given.switch? (·.letter? == some letter) with
    | none => .error .refused
    | some switch =>
      if switch.hasValue then
        match rest with
        | [] => .ok (given, some switch)
        | '=' :: value => (given.add switch (String.ofList value)).map fun given => (given, none)
        | value => (given.add switch (String.ofList value)).map fun given => (given, none)
      else do readLetters (← given.add switch "") rest

/-- Read what comes after two dashes: the name of an option, and maybe its value. -/
def readLong (given : Given) (text : List Char) : Except Stop (Given × Option Switch) :=
  let name := text.takeWhile (· != '=')
  match given.switch? (·.longName == String.ofList name), text.drop name.length with
  | none, _ => .error .refused
  | some switch, [] =>
    if switch.hasValue then .ok (given, some switch)
    else (given.add switch "").map fun given => (given, none)
  | some switch, _ :: value =>
    if switch.hasValue then
      (given.add switch (String.ofList value)).map fun given => (given, none)
    else .error .refused

/-- Read the words of a command line after what has been given, where an option may be waiting
for its value. -/
def readWords (given : Given) (waiting : Option Switch) (trailing : Bool) :
    List String → Except Stop Given
  | [] => if waiting.isSome then .error .refused else .ok given
  | word :: rest =>
    match waiting with
    | some switch =>
      if isValue word then do readWords (← given.add switch word) none trailing rest
      else .error .refused
    | none =>
      if trailing then do readWords (← given.addWord true word) none true rest
      else match word.toList with
        | ['-', '-'] => readWords given none true rest
        | '-' :: '-' :: text => do
          let (given, waiting) ← readLong given text
          readWords given waiting false rest
        | '-' :: letter :: letters => do
          let (given, waiting) ← readLetters given (letter :: letters)
          readWords given waiting false rest
        | _ => do readWords (← given.addWord false word) none false rest

/-- The caret among what has been given, if there is one. A line needs a column and excludes an
offset. A column needs a line, unless an offset excludes it. -/
def caret? (given : Given) : Except Stop (Option Caret) :=
  match given.position .line, given.position .column, given.position .offset with
  | some _, _, some _ => .error .refused
  | some line, some column, none => .ok (some (.lineColumn line column))
  | some _, none, none => .error .refused
  | none, _, some offset => .ok (some (.offset offset))
  | none, some _, none => .error .refused
  | none, none, none => .ok none

/-- The request that everything given makes. -/
def request (given : Given) : Except Stop Request := do
  let config := given.switches.lookup .config <|> given.outerConfig
  let json := (given.switches.lookup .json).isSome
  match given.verb, given.file with
  | some .copy, some file => .ok (.copy file (← caret? given) config)
  | some .resolve, some file => .ok (.resolve file (← caret? given) json)
  | some .declarations, some file => .ok (.declarations file json)
  | _, _ => .error .refused

/-- The request of a command line, if it makes sense. -/
def read? (words : List String) : Option Request :=
  match readWords {} none false words >>= request with
  | .ok request => some request
  | .error .help => some .help
  | .error .version => some .version
  | .error .refused => none

end CommandLine

end CaretName
