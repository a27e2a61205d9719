import CaretName.Proofs.Config.Agreement

/-!
# The command in the environment

The variable for the command holds its words with one space between each two of them, and the text is
taken apart at its spaces. Before that, however, a text that looks like a truth value or a number is
taken for one, and a command is not converted from it. `Config.load_command` says that every list of
words without spaces can be given to the command like this, over any file, except for a single word
that looks like one of these.
-/
namespace CaretName

namespace Environment

variable {chars : List Char} {text : String} {words : List String}

/-! ## Texts of single values -/

/-- Whether a text is taken for a truth value or a number. -/
def isSingle (text : String) : Bool :=
  text.toLower == "true" || text.toLower == "false" || (integer? text.toList).isSome ||
    (real? text.toList).isSome

/-- The text of a word is converted to the word. -/
theorem mapM_looseText?_string (words : List String) :
    (words.map Setting.string).mapM Conversion.looseText? = some words := by
  induction words with
  | nil => rfl
  | cons word rest ih =>
    rw [List.map_cons, List.mapM_cons, ih]
    rfl

/-- The value of the command is converted to the pieces of its text, unless the text is that of a
single value. -/
theorem texts?_value (text : String) :
    Conversion.loose.texts? (value listName text) =
      if isSingle text then none else some (text.splitOn " ") := by
  unfold value isSingle
  by_cases holds : (text.toLower == "true") = true
  · rw [if_pos holds, holds]
    rfl
  by_cases fails : (text.toLower == "false") = true
  · rw [if_neg holds, if_pos fails, fails, Bool.or_true]
    rfl
  rw [if_neg holds, if_neg fails, Bool.eq_false_iff.mpr holds, Bool.eq_false_iff.mpr fails]
  cases integer? text.toList with
  | some value => rfl
  | none =>
    cases real? text.toList with
    | some value => rfl
    | none => exact mapM_looseText?_string (text.splitOn " ")

/-- The digits at the front of a text end before its first space. -/
theorem space_mem_dropWhile (space : ' ' ∈ chars) : ' ' ∈ chars.dropWhile Char.isDigit := by
  rw [← List.takeWhile_append_dropWhile (p := Char.isDigit) (l := chars), List.mem_append] at space
  refine space.resolve_left fun among => ?_
  exact absurd (List.all_eq_true.mp (List.all_takeWhile ..) ' ' among) (by decide)

/-- What is left after the digits at the front of a text. -/
theorem drop_length_takeWhile (chars : List Char) :
    chars.drop (chars.takeWhile Char.isDigit).length = chars.dropWhile Char.isDigit := by
  have cut : (chars.takeWhile Char.isDigit ++ chars.dropWhile Char.isDigit).drop
      (chars.takeWhile Char.isDigit).length = chars.dropWhile Char.isDigit := List.drop_left
  rwa [List.takeWhile_append_dropWhile] at cut

/-- An integer has no space among its digits. -/
theorem signed?_of_space (space : ' ' ∈ chars) : signed? chars = none := by
  have undone : ∀ digits : List Char, ' ' ∈ digits → digits.all Char.isDigit = false := by
    intro digits inside
    rw [Bool.eq_false_iff]
    intro all
    exact absurd (List.all_eq_true.mp all ' ' inside) (by decide)
  unfold signed?
  split
  next negative digits parted =>
  have inside : ' ' ∈ digits := by
    split at parted
    · obtain ⟨-, rfl⟩ := Prod.mk.inj parted
      simpa using space
    · obtain ⟨-, rfl⟩ := Prod.mk.inj parted
      simpa using space
    · obtain ⟨-, rfl⟩ := Prod.mk.inj parted
      exact space
  rw [undone digits inside, Bool.not_false, Bool.or_true, if_pos rfl]

/-- A text with a space is none without one, in lower case either. -/
theorem toLower_ne (space : ' ' ∈ text.toList) {word : String} (solid : ' ' ∉ word.toList) :
    (text.toLower == word) = false := by
  have mapped : text.toLower.toList = text.toList.map Char.toLower := String.toList_map
  rw [beq_eq_false_iff_ne]
  rintro rfl
  rw [mapped] at solid
  exact solid (List.mem_map.mpr ⟨' ', space, by decide⟩)

/-- A number has no space among its digits, after its point or in its exponent. -/
theorem magnitude?_of_space (space : ' ' ∈ chars) (negative : Bool) :
    magnitude? negative chars = none := by
  have spaced : ' ' ∈ (String.ofList chars).toList := by simpa using space
  have after := space_mem_dropWhile space
  have noWord : ((String.ofList chars).toLower == "inf" ||
      (String.ofList chars).toLower == "infinity") = false := by
    rw [toLower_ne spaced (by decide), toLower_ne spaced (by decide), Bool.or_false]
  have noNumber : ((String.ofList chars).toLower == "nan") = false := toLower_ne spaced (by decide)
  unfold magnitude?
  dsimp only
  rw [noWord, noNumber, drop_length_takeWhile, if_neg Bool.false_ne_true,
    if_neg Bool.false_ne_true]
  -- The space is left over behind the digits, with a point or without, and belongs to no exponent.
  split
  case' h_1 rest parted =>
    rw [parted] at after
    replace after := space_mem_dropWhile (by simpa using after : ' ' ∈ rest)
  all_goals
    refine ite_eq_left_iff.mpr fun _ => Option.map_eq_none_iff.mpr ?_
    dsimp only
    split
    · next ended =>
      rw [ended] at after
      contradiction
    · next spelled =>
      rw [spelled] at after
      exact signed?_of_space (by simpa using after)
    · next spelled =>
      rw [spelled] at after
      exact signed?_of_space (by simpa using after)
    · rfl

/-- What has a space is no number. -/
theorem real?_of_space (space : ' ' ∈ chars) : real? chars = none := by
  unfold real?
  split
  · exact magnitude?_of_space (by simpa using space) true
  · exact magnitude?_of_space (by simpa using space) false
  · exact magnitude?_of_space space false

/-- A text with a space is that of no single value. -/
theorem isSingle_of_space (space : ' ' ∈ text.toList) : isSingle text = false := by
  have noInteger : integer? text.toList = none := by
    rw [integer?, signed?_of_space space, Option.filter_none]
  rw [isSingle, toLower_ne space (by decide), toLower_ne space (by decide), noInteger,
    real?_of_space space]
  rfl

/-! ## Words and their text -/

/-- A text of words: one space stands between each two of them. -/
def joined (words : List String) : String := " ".intercalate words

/-- The pieces of a text of words without spaces are the words. -/
theorem splitOn_joined (filled : words ≠ []) (solid : ∀ word ∈ words, ' ' ∉ word.toList) :
    (joined words).splitOn " " = words := by
  have chars : (joined words).toList = [' '].intercalate (words.map String.toList) := by
    rw [joined, String.toList_intercalate]
    rfl
  have apart : ([' '].intercalate (words.map String.toList)).splitOn ' ' =
      words.map String.toList :=
    List.splitOn_intercalate ' ' (by simpa using solid) (by simpa using filled)
  rw [Config.splitOn_space, chars, apart, List.map_map]
  simp [Function.comp_def]

/-- A text of words is that of a single value only if there is one word. -/
theorem isSingle_joined (filled : words ≠ []) :
    isSingle (joined words) = true ↔ ∃ word, words = [word] ∧ isSingle word = true := by
  match words, filled with
  | [word], _ => simp [joined]
  | first :: second :: rest, _ =>
    have space : ' ' ∈ (joined (first :: second :: rest)).toList := by
      simp [joined]
    simp [isSingle_of_space space]

end Environment

/-! ## Over any layer -/

namespace Setting

variable {setting value below : Setting} {members : List (String × Setting)}

/-- What is laid over a setting at a path with a name makes a table of it. -/
theorem isTable_overAt {path : List String} (named : path ≠ []) :
    (value.overAt path (some below)).isTable = true := by
  cases path with
  | nil => contradiction
  | cons name path => rfl

end Setting

namespace Config

open Environment (joined isSingle)

variable {below value : Setting} {entries : Entries} {part : Option Setting}

/-- A layer of settings that all have names keeps a table a table. -/
theorem isTable_layered (table : below.isTable = true)
    (named : ∀ entry ∈ entries, entry.1 ≠ []) : (layered below entries).isTable = true := by
  induction entries generalizing below with
  | nil => exact table
  | cons entry rest ih =>
    obtain ⟨own, later⟩ := List.forall_mem_cons.mp named
    exact ih (Setting.isTable_overAt own) later

/-- The path that a name stands for is never empty. -/
theorem pathOf_ne_nil (name : String) : Environment.pathOf name ≠ [] := by
  unfold Environment.pathOf
  dsimp only
  split
  · rw [splitOn_point]
    simp
  · exact List.cons_ne_nil _ _

/-- The settings below the environment are a table. -/
theorem isTable_below (file : Option Setting) :
    (file.elim usual fun file => layered usual (layerOf file)).isTable = true := by
  cases file with
  | none => rfl
  | some file =>
    refine isTable_layered rfl fun entry listed => ?_
    obtain ⟨member, _, rfl⟩ := List.mem_map.mp listed
    exact pathOf_ne_nil member.1

/-- Where a section about the clipboard is converted, so are the settings that it gives as a table. -/
theorem exists_taken {clipboard : ClipboardConfig} (key : Key)
    (converted : Conversion.orElse {} Conversion.loose.clipboard? part = some clipboard)
    (own : key.around = "clipboard") :
    ∃ value, key.taken? .loose (part.bind (Setting.member? key.name)) = some value := by
  cases part with
  | none => exact ⟨_, rfl⟩
  | some setting =>
    cases setting with
    | table members =>
      obtain ⟨forProvider, forCommand, forClear⟩ :=
        (orElse_clipboard?_iff fun _ same => ⟨members, (Option.some.inj same).symm⟩).mp converted
      cases key with
      | provider => exact ⟨_, forProvider⟩
      | command => exact ⟨_, forCommand⟩
      | clearOnUnresolved => exact ⟨_, forClear⟩
      | echoStatus => contradiction
    | null | bool | integer | real | string | moment | list => exact ⟨_, rfl⟩

/-- A value for the command that is laid over settings that are converted on their own decides what
the command is, and whether the settings are converted still. -/
theorem exists_config?_withCommand {members : List (String × Setting)} {alone : Config}
    (converted : Conversion.loose.config? (.table members) = some alone)
    (single : ∀ below, value.laidOver below = value) : ∃ provider clear output,
      Conversion.loose.config? (value.overAt Key.command.path (some (.table members))) =
        (Conversion.loose.texts? value).map fun command =>
          (⟨⟨provider, command, clear⟩, output⟩ : Config) := by
  rw [config?_table] at converted
  obtain ⟨clipboard, forClipboard, rest⟩ := Option.bind_eq_some_iff.mp converted
  obtain ⟨output, forOutput, _⟩ := Option.bind_eq_some_iff.mp rest
  obtain ⟨provider, forProvider⟩ : ∃ provider : String, Key.provider.taken? .loose
      ((members.lookup "clipboard").bind (Setting.member? "provider")) = some provider :=
    exists_taken .provider forClipboard rfl
  obtain ⟨clear, forClear⟩ : ∃ clear : Bool, Key.clearOnUnresolved.taken? .loose
      ((members.lookup "clipboard").bind (Setting.member? "clear_on_unresolved")) = some clear :=
    exists_taken .clearOnUnresolved forClipboard rfl
  refine ⟨provider, clear, output, ?_⟩
  -- The section about the clipboard has its own members and the new command.
  let inner := ((members.lookup "clipboard").getD (.table [])).members
  have laid : value.overAt Key.command.path (some (.table members)) =
      .table (Setting.put "clipboard" (.table (Setting.put "command" value inner)) members) := by
    show Setting.table (Setting.put "clipboard" (.table (Setting.put "command"
      (value.laidOver _) inner)) members) = _
    rw [single]
  have others (name : String) : inner.lookup name =
      (members.lookup "clipboard").bind (Setting.member? name) := by
    show ((members.lookup "clipboard").getD (.table [])).members.lookup name = _
    cases members.lookup "clipboard" <;> rfl
  have section_iff (clipboard : ClipboardConfig) :
      Conversion.orElse {} Conversion.loose.clipboard?
          (some (.table (Setting.put "command" value inner))) = some clipboard ↔
        provider = clipboard.provider ∧
          Conversion.loose.texts? value = some clipboard.command ∧
            clear = clipboard.clearOnUnresolved := by
    have given (name : String) :
        (some (Setting.table (Setting.put "command" value inner))).bind (Setting.member? name) =
          if name = "command" then some value
          else (members.lookup "clipboard").bind (Setting.member? name) := by
      rw [← others, Option.bind_some]
      exact Setting.lookup_put
    rw [orElse_clipboard?_iff fun _ same => ⟨_, (Option.some.inj same).symm⟩, given, given, given,
      if_neg (by decide), if_pos rfl, if_neg (by decide)]
    rw [forProvider, forClear]
    exact and_congr Option.some_inj (and_congr Iff.rfl Option.some_inj)
  rw [laid, config?_table, Setting.lookup_put, Setting.lookup_put, if_pos rfl,
    if_neg (by decide), forOutput]
  cases texts : Conversion.loose.texts? value with
  | none =>
    have undone : Conversion.orElse {} Conversion.loose.clipboard?
        (some (.table (Setting.put "command" value inner))) = none := by
      rw [Option.eq_none_iff_forall_ne_some]
      intro clipboard done
      have decided := ((section_iff clipboard).mp done).2.1
      rw [texts] at decided
      contradiction
    rw [undone]
    rfl
  | some command =>
    rw [(section_iff ⟨provider, command, clear⟩).mpr ⟨rfl, texts, rfl⟩]
    rfl

/-! ## Loading -/

/-- The variable for the command. -/
def commandVariable : String := "COPYQN_CLIPBOARD__COMMAND"

/-- The variable for the command is the setting of that name. -/
theorem settingName?_commandVariable :
    Environment.settingName? commandVariable = some Environment.listName := by decide +kernel

/-- The name of the command is its path. -/
theorem pathOf_listName : Environment.pathOf Environment.listName = Key.command.path := by
  simp only [Environment.pathOf, splitOn_point, String.all_bool_eq]
  decide +kernel

/-- The setting that the variable for the command gives, if it is the only one that is a setting. -/
theorem settings_of_command {before after : Environment} {text : String}
    (unset : Unset (before ++ after)) :
    Environment.settings (before ++ (commandVariable, text) :: after) =
      [(Key.command.path, Environment.value Environment.listName text)] := by
  have none := settings_of_unset unset
  rw [Environment.settings, List.filterMap_append, List.append_eq_nil_iff] at none
  rw [Environment.settings, List.filterMap_append, none.1, List.filterMap_cons, none.2]
  simp only [settingName?_commandVariable, Option.map_some, pathOf_listName, List.nil_append]

/-- The value of a variable takes the place of what is below it. -/
theorem laidOver_value (name text : String) (below : Option Setting) :
    (Environment.value name text).laidOver below = Environment.value name text := by
  unfold Environment.value
  repeat' split
  all_goals rfl

variable {surroundings : Surroundings} {asked : Option String} {before after : Environment}
  {alone : Config} {words : List String}

/-- A configuration is converted from the tree of a file and the environment. -/
theorem ofLayers_eq (file : Option Setting) (environment : Environment) :
    ofLayers file environment = match Conversion.loose.config? (tree file environment) with
      | some config => .ok config
      | none => .error notConverted := by
  cases file <;> rfl

/-- What the layers make with a single variable, the one for the command, where they make a
configuration without it: one with the words of the variable, or nothing where its text is that of a
single value. -/
theorem exists_ofLayers_command {file : Option Setting} {text : String}
    (unset : Unset (before ++ after)) (loads : ofLayers file (before ++ after) = .ok alone) :
    ∃ provider clear output,
      ofLayers file (before ++ (commandVariable, text) :: after) =
        if isSingle text then .error notConverted
        else .ok ⟨⟨provider, text.splitOn " ", clear⟩, output⟩ := by
  obtain ⟨members, under⟩ : ∃ members,
      (file.elim usual fun file => layered usual (layerOf file)) = .table members :=
    ⟨_, Setting.eq_table_of_isTable (isTable_below file)⟩
  have treeAlone : tree file (before ++ after) = .table members := by
    rw [tree, under, settings_of_unset unset]
    rfl
  have treeWith : tree file (before ++ (commandVariable, text) :: after) =
      (Environment.value Environment.listName text).overAt Key.command.path
        (some (.table members)) := by
    rw [tree, under, settings_of_command unset]
    rfl
  have converted : Conversion.loose.config? (.table members) = some alone := by
    rw [ofLayers_eq, treeAlone] at loads
    cases made : Conversion.loose.config? (.table members) with
    | none => simp [made] at loads
    | some config => simpa [made] using loads
  obtain ⟨provider, clear, output, decided⟩ :=
    exists_config?_withCommand converted (laidOver_value Environment.listName text)
  refine ⟨provider, clear, output, ?_⟩
  rw [ofLayers_eq, treeWith, decided, Environment.texts?_value]
  cases isSingle text <;> rfl

/-- The same for what is loaded. -/
theorem exists_load_command {text : String}
    (given : surroundings.environment = before ++ (commandVariable, text) :: after)
    (unset : Unset (before ++ after))
    (loads : load { surroundings with environment := before ++ after } asked = .ok alone) :
    ∃ provider clear output, load surroundings asked =
      if isSingle text then .error notConverted
      else .ok ⟨⟨provider, text.splitOn " ", clear⟩, output⟩ := by
  -- The file is found and read in the same way with the variable and without it.
  have loads : (filePath surroundings asked).bind (fun path =>
      (fileLayer surroundings path).bind fun file => ofLayers file (before ++ after)) =
        .ok alone := loads
  show ∃ provider clear output, ((filePath surroundings asked).bind fun path =>
    (fileLayer surroundings path).bind fun file => ofLayers file surroundings.environment) = _
  cases reached : filePath surroundings asked with
  | error failure => simp [reached, Except.bind] at loads
  | ok path =>
    rw [reached] at loads
    have loads : ((fileLayer surroundings path).bind fun file =>
      ofLayers file (before ++ after)) = .ok alone := loads
    show ∃ provider clear output, ((fileLayer surroundings path).bind fun file =>
      ofLayers file surroundings.environment) = _
    cases read : fileLayer surroundings path with
    | error failure => simp [read, Except.bind] at loads
    | ok file =>
      rw [read] at loads
      rw [given]
      exact exists_ofLayers_command unset loads

/-- A command without spaces in its words is given by a variable of its own exactly if it is no
single word that looks like a truth value or a number: over every file that is loaded without the
variable, its words are those of the variable. Such a single word makes loading fail. -/
theorem load_command
    (given : surroundings.environment = before ++ (commandVariable, joined words) :: after)
    (unset : Unset (before ++ after))
    (loads : load { surroundings with environment := before ++ after } asked = .ok alone)
    (filled : words ≠ []) (solid : ∀ word ∈ words, ' ' ∉ word.toList) :
    ((∃ config, load surroundings asked = .ok config ∧ config.clipboard.command = words) ↔
      ∀ word, words = [word] → isSingle word = false) ∧
    (∀ word, words = [word] → isSingle word = true →
      load surroundings asked = .error notConverted) := by
  obtain ⟨provider, clear, output, loaded⟩ := exists_load_command given unset loads
  rw [Environment.splitOn_joined filled solid] at loaded
  have single := Environment.isSingle_joined filled
  refine ⟨⟨?_, fun plain => ?_⟩, fun word one looks => ?_⟩
  · rintro ⟨config, done, -⟩ word one
    rw [Bool.eq_false_iff]
    intro looks
    rw [loaded, if_pos (single.mpr ⟨word, one, looks⟩)] at done
    contradiction
  · have list : ¬ isSingle (joined words) = true := by
      intro looks
      obtain ⟨word, one, looks⟩ := single.mp looks
      rw [plain word one] at looks
      contradiction
    exact ⟨_, by rw [loaded, if_neg list], rfl⟩
  · rw [loaded, if_pos (single.mpr ⟨word, one, looks⟩)]

/-- A file that leaves the command to the environment. -/
def providerText : String := "[clipboard]\nprovider = \"command\"\n"

/-- The file beside a program without variables of its own is loaded. -/
theorem load_providerText (environment : Environment) (unset : Unset environment) :
    load (beside "c.toml" providerText environment) (some "c.toml") =
      .ok ⟨⟨"command", [], false⟩, ⟨true⟩⟩ := by
  have none := settings_of_unset unset
  have loads : Loads (beside "c.toml" providerText environment) (some "c.toml")
      (Toml.settings? providerText) := by
    refine loads_document providerText environment (by decide +kernel) ?_ (by rw [none]; decide)
    simp only [fileEntries, layerOf, Environment.pathOf, splitOn_point, String.all_bool_eq]
    decide +kernel
  rw [load_eq_ok_iff loads]
  show ∀ key : Key, key.decided? (winner? (Toml.settings? providerText) environment key) = _
  simp only [winner?, none, fileGiven?, fileEntries, layerOf, Environment.pathOf, splitOn_point,
    String.all_bool_eq]
  decide +kernel

/-- A command of two words, one of which looks like a number, beside a variable that is no
setting. -/
theorem load_command_twoWords :
    Unset [("HOME", "/home")] ∧
    load (beside "c.toml" providerText [("HOME", "/home")]) (some "c.toml") =
      .ok ⟨⟨"command", [], false⟩, ⟨true⟩⟩ ∧
    ∃ config, load (beside "c.toml" providerText
        [("HOME", "/home"), (commandVariable, joined ["nice", "7"])]) (some "c.toml") =
          .ok config ∧
      config.clipboard.command = ["nice", "7"] := by
  have unset : Unset [("HOME", "/home")] := by decide +kernel
  have alone := load_providerText _ unset
  refine ⟨unset, alone, ?_⟩
  have decided := @load_command (beside "c.toml" providerText
      [("HOME", "/home"), (commandVariable, joined ["nice", "7"])]) (some "c.toml")
    [("HOME", "/home")] [] _ ["nice", "7"] rfl unset alone (List.cons_ne_nil _ _) (by decide)
  exact decided.1.mpr fun word one => by simp at one

/-- A command that is the one word `true` is not loaded, although the configuration is without it. -/
theorem load_command_true :
    load (beside "c.toml" providerText []) (some "c.toml") =
      .ok ⟨⟨"command", [], false⟩, ⟨true⟩⟩ ∧
    joined ["true"] = "true" ∧
    load (beside "c.toml" providerText [(commandVariable, joined ["true"])]) (some "c.toml") =
      .error notConverted := by
  have unset : Unset [] := by decide
  have alone := load_providerText [] unset
  obtain ⟨provider, clear, output, loaded⟩ := @exists_load_command
    (beside "c.toml" providerText [(commandVariable, joined ["true"])]) (some "c.toml")
    [] [] _ _ rfl unset alone
  have looks : isSingle (joined ["true"]) = true := by decide +kernel
  exact ⟨alone, by decide +kernel, by rw [loaded, if_pos looks]⟩

end Config

end CaretName
