import CaretName.Config.File
import CaretName.Proofs.Config.Overlay
import CaretName.Proofs.Text.Split
import Mathlib.Data.Fintype.Basic

/-!
# Layers of the configuration

The usual values, a file and the environment are laid over one another as trees, and the tree is
converted as a whole. `Config.load_by_key` says what this comes to: each of the four settings is
decided on its own, by the highest layer that gives it, and loading fails exactly if one of the
values that count cannot be converted. A table in a file is laid over what is there member by
member, so one without members gives nothing; `Config.load_empty_table` has an example.
-/
namespace CaretName
namespace Config

/-! ## The four settings -/

/-- The settings that a configuration is made of. -/
inductive Key where
  | provider
  | command
  | clearOnUnresolved
  | echoStatus
  deriving DecidableEq, Repr

instance : Fintype Key :=
  ⟨{.provider, .command, .clearOnUnresolved, .echoStatus}, fun key => by cases key <;> decide⟩

namespace Key

/-- The table that a setting stands in. -/
def around : Key → String
  | echoStatus => "output"
  | _ => "clipboard"

/-- The name of a setting in its table. -/
def name : Key → String
  | provider => "provider"
  | command => "command"
  | clearOnUnresolved => "clear_on_unresolved"
  | echoStatus => "echo_status"

/-- The path of a setting. -/
def path (key : Key) : List String := [key.around, key.name]

/-- What a setting is in the end. -/
def Value : Key → Type
  | provider => String
  | command => List String
  | clearOnUnresolved => Bool
  | echoStatus => Bool

instance : (key : Key) → DecidableEq key.Value
  | provider => inferInstanceAs (DecidableEq String)
  | command => inferInstanceAs (DecidableEq (List String))
  | clearOnUnresolved => inferInstanceAs (DecidableEq Bool)
  | echoStatus => inferInstanceAs (DecidableEq Bool)

/-- The value of a setting in a configuration. -/
def get (config : Config) : (key : Key) → key.Value
  | provider => config.clipboard.provider
  | command => config.clipboard.command
  | clearOnUnresolved => config.clipboard.clearOnUnresolved
  | echoStatus => config.output.echoStatus

/-- The value that a setting is converted to, if it can be. -/
def convert? : (key : Key) → Setting → Option key.Value
  | provider => Conversion.looseText?
  | command => Conversion.loose.texts?
  | clearOnUnresolved => Conversion.looseFlag?
  | echoStatus => Conversion.looseFlag?

/-- The value that a setting is taken as by a conversion, if it is. -/
def take? (conversion : Conversion) : (key : Key) → Setting → Option key.Value
  | provider => conversion.text?
  | command => conversion.texts?
  | clearOnUnresolved => conversion.flag?
  | echoStatus => conversion.flag?

/-- The value of a setting that a conversion takes, or the usual one where it is not given. -/
def taken? (conversion : Conversion) (key : Key) : Option Setting → Option key.Value :=
  Conversion.orElse (key.get {}) (key.take? conversion)

/-- The value of a setting that is given or not. -/
def decided? (key : Key) : Option Setting → Option key.Value
  | none => some (key.get {})
  | some setting => key.convert? setting

/-- No setting is converted from a table. -/
theorem convert?_table (key : Key) (members : List (String × Setting)) :
    key.convert? (.table members) = none := by
  cases key <;> rfl

/-- The usual value of a setting is at its path, and it is converted to itself. -/
theorem exists_usual (key : Key) :
    ∃ value, usual.at? key.path = some value ∧ key.convert? value = some (key.get {}) := by
  cases key <;> exact ⟨_, rfl, rfl⟩

end Key

/-- What has members is a table. -/
theorem exists_table {setting value : Setting} {name : String}
    (found : setting.member? name = some value) : ∃ members, setting = .table members := by
  cases setting with
  | table members => exact ⟨members, rfl⟩
  | null | bool | integer | real | string | moment | list => contradiction

/-- What stands at the path of a setting is a member of the table that it stands in. -/
theorem Key.exists_members {tree value : Setting} {key : Key}
    (found : tree.at? key.path = some value) : ∃ members,
      tree.member? key.around = some (.table members) ∧ members.lookup key.name = some value := by
  obtain ⟨table, foundTable, foundInner⟩ := Option.bind_eq_some_iff.1 found
  obtain ⟨inner, foundValue, same⟩ := Option.bind_eq_some_iff.1 foundInner
  obtain ⟨members, rfl⟩ := exists_table foundValue
  obtain rfl := Option.some.inj same
  exact ⟨members, foundTable, foundValue⟩

section Conversions

variable {conversion : Conversion} {part : Option Setting}

/-- The section about the clipboard is converted one setting at a time. -/
theorem orElse_clipboard?_iff {clipboard : ClipboardConfig}
    (table : ∀ setting ∈ part, ∃ members, setting = .table members) :
    Conversion.orElse {} conversion.clipboard? part = some clipboard ↔
      Key.provider.taken? conversion (part.bind (Setting.member? "provider")) =
          some clipboard.provider ∧
        Key.command.taken? conversion (part.bind (Setting.member? "command")) =
            some clipboard.command ∧
          Key.clearOnUnresolved.taken? conversion
              (part.bind (Setting.member? "clear_on_unresolved")) =
            some clipboard.clearOnUnresolved := by
  obtain ⟨provider, command, clear⟩ := clipboard
  cases part with
  | none =>
    show some ({} : ClipboardConfig) = _ ↔
      some ({} : ClipboardConfig).provider = _ ∧ some ({} : ClipboardConfig).command = _ ∧
        some ({} : ClipboardConfig).clearOnUnresolved = _
    simp
  | some setting =>
    obtain ⟨members, rfl⟩ := table setting rfl
    have sections : conversion.clipboard? (.table members) =
        (Key.provider.taken? conversion (members.lookup "provider")).bind fun provider =>
          (Key.command.taken? conversion (members.lookup "command")).bind fun command =>
            (Key.clearOnUnresolved.taken? conversion (members.lookup "clear_on_unresolved")).bind
              fun clear => some ⟨provider, command, clear⟩ := by
      simp only [Conversion.clipboard?, Conversion.section?, List.map_cons, List.map_nil,
        Option.bind_eq_bind, Option.bind_some]
      rfl
    show conversion.clipboard? (.table members) = _ ↔ _
    simp only [sections, Option.bind_eq_some_iff]
    constructor
    · rintro ⟨_, forProvider, _, forCommand, _, forClear, ⟨⟩⟩
      exact ⟨forProvider, forCommand, forClear⟩
    · rintro ⟨forProvider, forCommand, forClear⟩
      exact ⟨_, forProvider, _, forCommand, _, forClear, rfl⟩

/-- The section about output is converted by its one setting. -/
theorem orElse_output?_iff {output : OutputConfig}
    (table : ∀ setting ∈ part, ∃ members, setting = .table members) :
    Conversion.orElse {} conversion.output? part = some output ↔
      Key.echoStatus.taken? conversion (part.bind (Setting.member? "echo_status")) =
        some output.echoStatus := by
  obtain ⟨echo⟩ := output
  cases part with
  | none =>
    show some ({} : OutputConfig) = _ ↔ some ({} : OutputConfig).echoStatus = _
    simp
  | some setting =>
    obtain ⟨members, rfl⟩ := table setting rfl
    have sections : conversion.output? (.table members) =
        (Key.echoStatus.taken? conversion (members.lookup "echo_status")).bind
          fun echo => some ⟨echo⟩ := by
      simp only [Conversion.output?, Conversion.section?, List.map_cons, List.map_nil,
        Option.bind_eq_bind, Option.bind_some]
      rfl
    show conversion.output? (.table members) = _ ↔ _
    rw [sections, Option.bind_eq_some_iff]
    constructor
    · rintro ⟨_, forEcho, ⟨⟩⟩
      exact forEcho
    · intro forEcho
      exact ⟨_, forEcho, rfl⟩

/-- A table is converted section by section. -/
theorem config?_table (members : List (String × Setting)) :
    conversion.config? (.table members) =
      (Conversion.orElse {} conversion.clipboard? (members.lookup "clipboard")).bind
        fun clipboard =>
          (Conversion.orElse {} conversion.output? (members.lookup "output")).bind fun output =>
            some ⟨clipboard, output⟩ := by
  simp only [Conversion.config?, Conversion.section?, List.map_cons, List.map_nil,
    Option.bind_eq_bind, Option.bind_some]
  rfl

/-- A tree whose sections are tables is converted one setting at a time. -/
theorem config?_table_iff {members : List (String × Setting)} {config : Config}
    (tables : ∀ key : Key, ∀ part ∈ (Setting.table members).member? key.around,
      ∃ inner, part = .table inner) :
    conversion.config? (.table members) = some config ↔ ∀ key : Key,
      key.taken? conversion ((Setting.table members).at? key.path) = some (key.get config) := by
  obtain ⟨clipboard, output⟩ := config
  have ofClipboard : Conversion.orElse {} conversion.clipboard?
      ((Setting.table members).member? "clipboard") = some clipboard ↔ _ :=
    orElse_clipboard?_iff (tables .provider)
  have ofOutput : Conversion.orElse {} conversion.output?
      ((Setting.table members).member? "output") = some output ↔ _ :=
    orElse_output?_iff (tables .echoStatus)
  simp only [config?_table, Option.bind_eq_some_iff, Key.path, Setting.at?_pair]
  constructor
  · rintro ⟨_, first, _, second, ⟨⟩⟩ key
    obtain ⟨forProvider, forCommand, forClear⟩ := ofClipboard.1 first
    cases key with
    | provider => exact forProvider
    | command => exact forCommand
    | clearOnUnresolved => exact forClear
    | echoStatus => exact ofOutput.1 second
  · intro each
    have first := ofClipboard.2 ⟨each .provider, each .command, each .clearOnUnresolved⟩
    exact ⟨_, first, _, ofOutput.2 (each .echoStatus), rfl⟩

/-- A tree with all four settings is converted one setting at a time. -/
theorem config?_eq_some_iff {tree : Setting} {config : Config}
    (whole : ∀ key : Key, ∃ value, tree.at? key.path = some value) :
    Conversion.loose.config? tree = some config ↔
      ∀ key : Key, (tree.at? key.path).bind key.convert? = some (key.get config) := by
  obtain ⟨value, found⟩ := whole .provider
  obtain ⟨part, first, -⟩ := Option.bind_eq_some_iff.1 found
  obtain ⟨members, rfl⟩ := exists_table first
  rw [config?_table_iff]
  · refine forall_congr' fun key => ?_
    obtain ⟨value, found⟩ := whole key
    rw [found]
    cases key <;> rfl
  · intro key part held
    obtain ⟨value, found⟩ := whole key
    obtain ⟨inner, around, -⟩ := Key.exists_members found
    exact ⟨inner, Option.some.inj (held.symm.trans around)⟩

end Conversions

/-! ## Loading -/

/-- Whether a layer names no section as a whole, and gives each setting at most once. -/
structure Separate (entries : Entries) : Prop where
  clear : ∀ key : Key, Clear key.path entries
  once : ∀ key : Key, entries.countP (key.path <+: ·.1) ≤ 1

instance (entries : Entries) : Decidable (Separate entries) :=
  decidable_of_iff ((∀ key : Key, Clear key.path entries) ∧
    ∀ key : Key, entries.countP (key.path <+: ·.1) ≤ 1)
    ⟨fun both => ⟨both.1, both.2⟩, fun separate => ⟨separate.clear, separate.once⟩⟩

/-- The value that a layer gives a setting, if it does. What is given inside a setting makes a
table of it. -/
def given? (entries : Entries) (key : Key) : Option Setting :=
  (entries.findSome? (inside? key.path)).map fun found => found.2.overAt found.1 none

/-- The value that a file gives a setting. A table without members is as good as none. -/
def fileGiven? (file : Option Setting) (key : Key) : Option Setting :=
  (given? (fileEntries file) key).filter Setting.filled

/-- The value that counts for a setting: that of the environment, or else that of the file. -/
def winner? (file : Option Setting) (environment : Environment) (key : Key) : Option Setting :=
  given? environment.settings key <|> fileGiven? file key

/-- The value of a setting under a layer is what the layer gives, or what it was before. -/
theorem exists_layered {entries : Entries} {tree old : Setting} {key : Key}
    (separate : Separate entries) (found : tree.at? key.path = some old) :
    ∃ new, (layered tree entries).at? key.path = some new ∧
      key.convert? new =
        ((given? entries key).filter Setting.filled).elim (key.convert? old) key.convert? := by
  have laid := at?_layered (separate.clear key) (separate.once key) tree
  rw [given?]
  cases given : entries.findSome? (inside? key.path) with
  | none =>
    rw [given] at laid
    exact ⟨old, laid.trans found, rfl⟩
  | some entry =>
    obtain ⟨inner, value⟩ := entry
    rw [given] at laid
    refine ⟨value.overAt inner (some old), by rw [laid, found], ?_⟩
    rw [Option.map_some]
    rcases Setting.overAt_cases value inner old with
      ⟨empty, same⟩ | ⟨full, same | ⟨members, more, above, alone⟩⟩
    · rw [Option.filter_some, empty, same]
      rfl
    · rw [Option.filter_some, full, same]
      rfl
    · rw [Option.filter_some, full, above, alone, if_pos rfl, Option.elim_some,
        key.convert?_table, key.convert?_table]

/-- The value of a variable is not a table. -/
theorem filled_environment_value (name text : String) :
    (Environment.value name text).filled = true := by
  unfold Environment.value
  repeat' split
  all_goals rfl

/-- Whatever the environment gives a setting counts. -/
theorem filter_given?_settings (environment : Environment) (key : Key) :
    (given? environment.settings key).filter Setting.filled = given? environment.settings key := by
  rw [given?]
  cases given : environment.settings.findSome? (inside? key.path) with
  | none => rfl
  | some found =>
    obtain ⟨inner, value⟩ := found
    obtain ⟨entry, held, same⟩ := List.exists_of_findSome?_eq_some given
    obtain rfl := inside?_eq_some_iff.1 same
    obtain ⟨⟨label, text⟩, -, made⟩ := List.mem_filterMap.1 held
    obtain ⟨name, -, made⟩ := Option.map_eq_some_iff.1 made
    have full : value.filled = true := by
      rw [← (Prod.mk.inj made).2]
      exact filled_environment_value name text
    simp only [Option.map_some, Option.filter_some]
    rw [if_pos (Setting.filled_overAt inner fun _ => full)]

/-- A configuration can have any values. -/
theorem exists_config (values : (key : Key) → key.Value) :
    ∃ config : Config, ∀ key : Key, key.get config = values key := by
  refine ⟨⟨⟨values .provider, values .command, values .clearOnUnresolved⟩,
    ⟨values .echoStatus⟩⟩, ?_⟩
  intro key
  cases key <;> rfl

/-- All layers over one another. -/
def tree (file : Option Setting) (environment : Environment) : Setting :=
  layered (file.elim usual fun file => layered usual (layerOf file)) environment.settings

/-- The settings below the environment are those of the file, or the usual ones. -/
theorem exists_below (file : Option Setting) (separate : Separate (fileEntries file))
    (key : Key) : ∃ value,
      (file.elim usual fun file => layered usual (layerOf file)).at? key.path = some value ∧
        key.convert? value = key.decided? (fileGiven? file key) := by
  obtain ⟨old, found, converted⟩ := key.exists_usual
  obtain ⟨new, laid, same⟩ := exists_layered separate found
  refine ⟨new, ?_, ?_⟩
  · cases file with
    | none => exact laid
    | some file => exact (at?_layer (separate.clear key)).trans laid
  · rw [same, fileGiven?, converted]
    cases (given? (fileEntries file) key).filter Setting.filled <;> rfl

/-- Every setting is in the tree of all layers, and what it is converted to is decided by the
value that counts. -/
theorem exists_winner {file : Option Setting} {environment : Environment}
    (ofFile : Separate (fileEntries file)) (ofEnvironment : Separate environment.settings)
    (key : Key) : ∃ value, (tree file environment).at? key.path = some value ∧
      key.convert? value = key.decided? (winner? file environment key) := by
  obtain ⟨old, found, converted⟩ := exists_below file ofFile key
  obtain ⟨new, laid, same⟩ := exists_layered ofEnvironment found
  refine ⟨new, laid, ?_⟩
  rw [same, filter_given?_settings, converted, winner?]
  cases given? environment.settings key <;> rfl

/-- The tree of all layers is converted one setting at a time. -/
theorem config?_tree {file : Option Setting} {environment : Environment}
    (ofFile : Separate (fileEntries file)) (ofEnvironment : Separate environment.settings)
    (config : Config) : Conversion.loose.config? (tree file environment) = some config ↔
      ∀ key : Key, key.decided? (winner? file environment key) = some (key.get config) := by
  have winners := exists_winner ofFile ofEnvironment
  rw [config?_eq_some_iff fun key => (winners key).imp fun value found => found.1]
  refine forall_congr' fun key => ?_
  obtain ⟨value, found, same⟩ := winners key
  rw [found, Option.bind_some, same]

/-- The tree of all layers is not converted exactly if a value that counts is not. -/
theorem config?_tree_eq_none_iff {file : Option Setting} {environment : Environment}
    (ofFile : Separate (fileEntries file)) (ofEnvironment : Separate environment.settings) :
    Conversion.loose.config? (tree file environment) = none ↔
      ∃ key : Key, key.decided? (winner? file environment key) = none := by
  constructor
  · intro unconverted
    by_contra decided
    have each : ∀ key : Key, ∃ value,
        key.decided? (winner? file environment key) = some value := by
      intro key
      exact Option.ne_none_iff_exists'.1 fun undecided => decided ⟨key, undecided⟩
    choose values same using each
    obtain ⟨config, gets⟩ := exists_config values
    have converted : Conversion.loose.config? (tree file environment) = some config := by
      rw [config?_tree ofFile ofEnvironment]
      intro key
      rw [same key, gets key]
    rw [unconverted] at converted
    contradiction
  · rintro ⟨key, undecided⟩
    rw [Option.eq_none_iff_forall_ne_some]
    intro config converted
    have decided := (config?_tree ofFile ofEnvironment config).1 converted key
    rw [undecided] at decided
    contradiction

/-- The entries of a layer that lead to a setting. -/
def leading (entries : Entries) (key : Key) : Entries :=
  entries.filter fun entry => key.path <+: entry.1

/-- What a layer gives a setting depends on the entries that lead to it. -/
theorem given?_leading (entries : Entries) (key : Key) :
    given? (leading entries key) key = given? entries key := by
  induction entries with
  | nil => rfl
  | cons entry rest ih =>
    by_cases own : key.path <+: entry.1
    · obtain ⟨inner, same⟩ := own
      have found : inside? key.path entry = some (inner, entry.2) :=
        inside?_eq_some_iff.2 (Prod.ext same.symm rfl)
      have kept : leading (entry :: rest) key = entry :: leading rest key :=
        List.filter_cons_of_pos (by simp [← same])
      rw [kept, given?, given?, List.findSome?_cons, List.findSome?_cons, found]
    · have missed : inside? key.path entry = none := inside?_eq_none_iff.2 own
      have dropped : leading (entry :: rest) key = leading rest key :=
        List.filter_cons_of_neg (by simpa using own)
      rw [dropped, ih, given?, given?, List.findSome?_cons, missed]

/-- Two layers with the same entries leading to a setting give it the same. -/
theorem given?_congr {entries others : Entries} {key : Key}
    (same : leading entries key = leading others key) : given? entries key = given? others key := by
  rw [← given?_leading entries, same, given?_leading]

/-- What is loaded from the surroundings of a command: a file, or none, and the environment, where
neither names a section as a whole or gives a setting twice. -/
structure Loads (surroundings : Surroundings) (path : Option String) (file : Option Setting) :
    Prop where
  readable : (filePath surroundings path).bind (fileLayer surroundings) = .ok file
  ofFile : Separate (fileEntries file)
  ofEnvironment : Separate surroundings.environment.settings

variable {surroundings : Surroundings} {path : Option String} {file : Option Setting}

/-- A configuration is converted from the tree of all layers. -/
theorem load_eq (loads : Loads surroundings path file) : load surroundings path =
    match Conversion.loose.config? (tree file surroundings.environment) with
    | some config => .ok config
    | none => .error notConverted := by
  have readable := loads.readable
  rw [load]
  cases reached : filePath surroundings path with
  | error failure => simp [reached, Except.bind] at readable
  | ok place =>
    rw [reached] at readable
    have layer : fileLayer surroundings place = .ok file := readable
    show (fileLayer surroundings place).bind _ = _
    rw [layer]
    cases file <;> rfl

/-- A configuration is loaded if it has for every setting what the value that counts is
converted to. -/
theorem load_eq_ok_iff (loads : Loads surroundings path file) (config : Config) :
    load surroundings path = .ok config ↔ ∀ key : Key,
      key.decided? (winner? file surroundings.environment key) = some (key.get config) := by
  rw [← config?_tree loads.ofFile loads.ofEnvironment, load_eq loads]
  cases Conversion.loose.config? (tree file surroundings.environment) <;> simp

/-- Every setting is decided on its own, by the highest layer that gives it, and loading fails
exactly if a value that counts is not converted. What does not lead to a setting never changes
it. -/
theorem load_by_key (loads : Loads surroundings path file) :
    (∀ config, load surroundings path = .ok config ↔ ∀ key : Key,
      key.decided? (winner? file surroundings.environment key) = some (key.get config)) ∧
    (∀ failure, load surroundings path = .error failure ↔ failure = notConverted ∧
      ∃ key : Key, key.decided? (winner? file surroundings.environment key) = none) ∧
    (∀ {others : Surroundings} {otherPath : Option String} {otherFile : Option Setting}
      (_ : Loads others otherPath otherFile) (key : Key),
      leading (fileEntries file) key = leading (fileEntries otherFile) key →
      leading surroundings.environment.settings key = leading others.environment.settings key →
      ∀ {config other : Config}, load surroundings path = .ok config →
        load others otherPath = .ok other → key.get config = key.get other) := by
  refine ⟨load_eq_ok_iff loads, ?_, ?_⟩
  · intro failure
    rw [← config?_tree_eq_none_iff loads.ofFile loads.ofEnvironment, load_eq loads]
    cases Conversion.loose.config? (tree file surroundings.environment) with
    | some config => simp
    | none => simp [eq_comm]
  · intro others otherPath otherFile otherLoads key sameFile sameVariables config other ok otherOk
    have winners : winner? file surroundings.environment key =
        winner? otherFile others.environment key := by
      rw [winner?, winner?, fileGiven?, fileGiven?, given?_congr sameFile,
        given?_congr sameVariables]
    have decided := (load_eq_ok_iff loads config).1 ok key
    have otherDecided := (load_eq_ok_iff otherLoads other).1 otherOk key
    rw [winners, otherDecided] at decided
    exact (Option.some.inj decided).symm

/-- A file whose text can be read gives its settings. -/
theorem fileLayer_of_text {name text : String} {file : Setting}
    (content : surroundings.read name = .ok text.toUTF8)
    (read : fileSettings? name text = some file) :
    fileLayer surroundings name = .ok (some file) := by
  have bytes : String.fromUTF8? text.toUTF8 = some text := by
    rw [String.fromUTF8?, dif_pos (show text.toUTF8.IsValidUTF8 from text.isValidUTF8)]
    rfl
  have held : surroundings.holds name = true := by rw [Surroundings.holds, content]
  have words : surroundings.readText name = .ok text := by
    simp only [Surroundings.readText, content, bind, Except.bind, bytes]
  simp only [fileLayer, held, words, read, Bool.not_true, Bool.false_eq_true, ite_false]

/-- The settings of a file that is named as a document are those of the document. -/
theorem fileSettings?_of_toml {name : String} (kind : extension? name = some "toml")
    (text : String) : fileSettings? name text = Toml.settings? text := by
  rw [fileSettings?, kind]
  rfl

/-- What a program sees that runs beside one file and is given variables. -/
def beside (name text : String) (environment : Environment) : Surroundings where
  read path := if path = name then .ok text.toUTF8 else .error .missing
  find? _ := none
  start _ := .error .missing
  environment := environment
  home := none

/-- The file beside a program holds its text. -/
theorem read_beside (name text : String) (environment : Environment) :
    (beside name text environment).read name = .ok text.toUTF8 := if_pos rfl

/-- Names are taken apart at points. -/
theorem splitOn_point (text : String) :
    text.splitOn "." = (text.toList.splitOn '.').map String.ofList :=
  splitOn_singleton text '.'

/-- Words are taken apart at spaces. -/
theorem splitOn_space (text : String) :
    text.splitOn " " = (text.toList.splitOn ' ').map String.ofList :=
  splitOn_singleton text ' '

/-- Paths are taken apart at slashes. -/
theorem splitOn_slash (text : String) :
    text.splitOn "/" = (text.toList.splitOn '/').map String.ofList :=
  splitOn_singleton text '/'

/-- A file right here that is named as a document. -/
theorem extension?_document : extension? "c.toml" = some "toml" := by
  rw [extension?, fileName?, pathComponents, splitOn_slash]
  decide +kernel

/-- The settings of a document are loaded from a file right here. -/
theorem loads_document (text : String) (environment : Environment)
    (read : (Toml.settings? text).isSome = true)
    (ofFile : Separate (fileEntries (Toml.settings? text)))
    (ofEnvironment : Separate environment.settings) :
    Loads (beside "c.toml" text environment) (some "c.toml") (Toml.settings? text) := by
  refine ⟨?_, ofFile, ofEnvironment⟩
  obtain ⟨file, same⟩ := Option.isSome_iff_exists.1 read
  rw [same]
  exact fileLayer_of_text (read_beside "c.toml" text environment)
    ((fileSettings?_of_toml extension?_document text).trans same)

/-- A file with a command, and with a list where the name of a provider should be. -/
def sampleText : String := "[clipboard]\nprovider = []\ncommand = [\"xclip\", \"-i\"]\n"

/-- Variables for the same two settings. -/
def sampleVariables : Environment :=
  [("COPYQN_CLIPBOARD__PROVIDER", "command"), ("COPYQN_CLIPBOARD__COMMAND", "xsel --clipboard")]

/-- The list of the environment replaces that of the file, and what the environment covers need
not be right. -/
theorem load_sample :
    Loads (beside "c.toml" sampleText sampleVariables) (some "c.toml")
      (Toml.settings? sampleText) ∧
    load (beside "c.toml" sampleText sampleVariables) (some "c.toml") =
      .ok ⟨⟨"command", ["xsel", "--clipboard"], false⟩, ⟨true⟩⟩ := by
  have loads : Loads (beside "c.toml" sampleText sampleVariables) (some "c.toml")
      (Toml.settings? sampleText) := by
    refine loads_document sampleText sampleVariables (by decide +kernel) ?_ ?_
    · simp only [fileEntries, layerOf, Environment.pathOf, splitOn_point, String.all_bool_eq]
      decide +kernel
    · simp only [Environment.settings, Environment.pathOf, splitOn_point, String.all_bool_eq]
      decide +kernel
  refine ⟨loads, ((load_by_key loads).1 _).2 ?_⟩
  show ∀ key : Key, key.decided? (winner? (Toml.settings? sampleText) sampleVariables key) = _
  simp only [winner?, fileGiven?, Environment.settings, Environment.value, fileEntries, layerOf,
    Environment.pathOf, splitOn_point, splitOn_space, String.all_bool_eq]
  decide +kernel

/-- A provider that is a table without members. -/
def emptyTable : String := "[clipboard]\nprovider = \x7b\x7d\n"

/-- A table without members is given by a file and not converted, and yet loading does not fail:
the usual value stays. -/
theorem load_empty_table :
    given? (Environment.settings []) .provider = none ∧
    (given? (fileEntries (Toml.settings? emptyTable)) .provider).map Key.provider.convert? =
      some none ∧
    load (beside "c.toml" emptyTable []) (some "c.toml") = .ok {} := by
  refine ⟨rfl, ?_, ?_⟩
  · simp only [fileEntries, layerOf, Environment.pathOf, splitOn_point, String.all_bool_eq]
    decide +kernel
  · have loads : Loads (beside "c.toml" emptyTable []) (some "c.toml")
        (Toml.settings? emptyTable) := by
      refine loads_document emptyTable [] (by decide +kernel) ?_ (by decide +kernel)
      simp only [fileEntries, layerOf, Environment.pathOf, splitOn_point, String.all_bool_eq]
      decide +kernel
    rw [load_eq_ok_iff loads]
    show ∀ key : Key, key.decided? (winner? (Toml.settings? emptyTable) [] key) = _
    simp only [winner?, fileGiven?, fileEntries, layerOf, Environment.pathOf, splitOn_point,
      String.all_bool_eq]
    decide +kernel

end Config
end CaretName
