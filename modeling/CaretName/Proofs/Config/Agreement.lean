import CaretName.Proofs.Config.Layers
import CaretName.Proofs.Toml.Distinct

/-!
# A document alone and as a file

A document can be read on its own, where every value must be what it is taken as, or as a file among
the layers of the configuration, where values are converted if need be. `Config.load_of_ofToml` says
that the two agree on every document with no names but those of the settings: what is accepted on its
own is loaded from a file too, with the same result, whichever of the settings it gives.
-/
namespace CaretName

namespace Setting

variable {members : List (String × Setting)} {setting value : Setting} {name : String}

/-- Whether a setting is a table. -/
def isTable : Setting → Bool
  | table _ => true
  | _ => false

/-- What is a table has its members. -/
theorem eq_table_of_isTable (table : setting.isTable = true) :
    setting = .table setting.members := by
  cases setting with
  | table members => rfl
  | null | bool | integer | real | string | moment | list => contradiction

/-- The members of a table keep their names when dates are taken for text. -/
theorem spelledMembers_eq_map (members : List (String × Setting)) :
    spelledMembers members = members.map fun member => (member.1, member.2.spelled) := by
  induction members with
  | nil => rfl
  | cons member rest ih => rw [spelledMembers, ih, List.map_cons]

/-- Where each name is there once, looking it up finds every member. -/
theorem lookup_eq_some_iff_mem (once : (members.map Prod.fst).Nodup) :
    members.lookup name = some value ↔ (name, value) ∈ members := by
  induction members with
  | nil => simp
  | cons member rest ih =>
    obtain ⟨own, first⟩ := member
    rw [List.map_cons, List.nodup_cons] at once
    rw [lookup_cons_eq, List.mem_cons, Prod.mk.injEq]
    by_cases same : name = own
    · subst same
      have new : (name, value) ∉ rest := fun held => once.1 (List.mem_map.2 ⟨_, held, rfl⟩)
      simp [new, eq_comm]
    · simp [same, ih once.2]

/-- Looking up a name in a distinct table finds every member. -/
theorem Distinct.member?_iff (distinct : (Setting.table members).Distinct) :
    (Setting.table members).member? name = some value ↔ (name, value) ∈ members := by
  cases distinct with
  | table once each => exact lookup_eq_some_iff_mem once

end Setting

namespace Config

/-! ## Documents with nothing but settings -/

/-- Whether a document has no names but those of the four settings, in sections that are tables. -/
def OnlyKnown (document : Setting) : Prop :=
  ∀ part ∈ document.members, (∃ key : Key, key.around = part.1) ∧ part.2.isTable = true ∧
    ∀ member ∈ part.2.members, ∃ key : Key, key.path = [part.1, member.1]

instance (document : Setting) : Decidable (OnlyKnown document) :=
  inferInstanceAs (Decidable (∀ part ∈ document.members,
    (∃ key : Key, key.around = part.1) ∧ part.2.isTable = true ∧
      ∀ member ∈ part.2.members, ∃ key : Key, key.path = [part.1, member.1]))

variable {members : List (String × Setting)} {key : Key}

/-- The name of a section is the path of the section. -/
theorem pathOf_around (key : Key) : Environment.pathOf key.around = [key.around] := by
  cases key <;> (simp only [Environment.pathOf, splitOn_point, String.all_bool_eq]; decide +kernel)

/-- The entries of such a document as a file are the members of its sections. -/
theorem fileEntries_of_known (known : OnlyKnown (.table members)) :
    fileEntries (some (.table members)) = members.flatMap fun part =>
      part.2.members.map fun member => ([part.1, member.1], member.2.spelled) := by
  have spelled : (Setting.table members).spelled.members = Setting.spelledMembers members := rfl
  rw [fileEntries, Option.elim_some, layerOf, spelled, Setting.spelledMembers_eq_map, List.map_map,
    List.flatMap_map]
  refine List.flatMap_congr fun part held => ?_
  obtain ⟨⟨key, around⟩, table, -⟩ := known part held
  obtain ⟨name, setting⟩ := part
  obtain rfl : key.around = name := around
  have same : setting = .table setting.members := Setting.eq_table_of_isTable table
  show entriesOf (Environment.pathOf key.around, setting.spelled) = _
  rw [pathOf_around, same]
  show (Setting.spelledMembers setting.members).map _ = setting.members.map _
  rw [Setting.spelledMembers_eq_map, List.map_map]
  rfl

/-- What stands in a section of such a document is a member of a member. -/
theorem at?_iff (known : OnlyKnown (.table members)) (distinct : (Setting.table members).Distinct)
    {around name : String} {setting : Setting} :
    (Setting.table members).at? [around, name] = some setting ↔
      ∃ part, (around, part) ∈ members ∧ (name, setting) ∈ part.members := by
  rw [Setting.at?_pair, Option.bind_eq_some_iff]
  refine exists_congr fun part => ?_
  rw [distinct.member?_iff]
  refine and_congr_right fun held => ?_
  have table : part = .table part.members := Setting.eq_table_of_isTable (known _ held).2.1
  cases distinct with
  | table once each =>
    have inner : (Setting.table part.members).Distinct := table ▸ each _ held
    rw [← inner.member?_iff, ← table]

/-- The entries of such a document are what stands in its sections. -/
theorem mem_fileEntries_iff (known : OnlyKnown (.table members))
    (distinct : (Setting.table members).Distinct) {path : List String} {value : Setting} :
    (path, value) ∈ fileEntries (some (.table members)) ↔ ∃ around name setting,
      path = [around, name] ∧ (Setting.table members).at? [around, name] = some setting ∧
        value = setting.spelled := by
  rw [fileEntries_of_known known, List.mem_flatMap]
  constructor
  · rintro ⟨⟨around, part⟩, held, entry⟩
    obtain ⟨⟨name, setting⟩, inside, same⟩ := List.mem_map.1 entry
    obtain ⟨rfl, rfl⟩ := Prod.mk.inj same
    exact ⟨around, name, setting, rfl, (at?_iff known distinct).2 ⟨part, held, inside⟩, rfl⟩
  · rintro ⟨around, name, setting, rfl, found, rfl⟩
    obtain ⟨part, held, inside⟩ := (at?_iff known distinct).1 found
    exact ⟨(around, part), held, List.mem_map.2 ⟨(name, setting), inside, rfl⟩⟩

/-- No two entries of such a document have the same path. -/
theorem nodup_fileEntries (known : OnlyKnown (.table members))
    (distinct : (Setting.table members).Distinct) :
    ((fileEntries (some (.table members))).map Prod.fst).Nodup := by
  cases distinct with
  | table once each =>
    rw [fileEntries_of_known known, List.map_flatMap, List.nodup_flatMap]
    simp only [List.map_map]
    constructor
    · intro part held
      have table : part.2 = .table part.2.members :=
        Setting.eq_table_of_isTable (known part held).2.1
      have inner := each part held
      rw [table] at inner
      cases inner with
      | table onceInside _ =>
        have paths := onceInside.map (f := fun name => [part.1, name]) fun one other => by simp
        rw [List.map_map] at paths
        exact paths
    · refine (List.pairwise_map.1 once).imp fun apart path first second => apart ?_
      obtain ⟨member, -, rfl⟩ := List.mem_map.1 first
      obtain ⟨another, -, same⟩ := List.mem_map.1 second
      exact (List.cons.inj same).1.symm

/-- Such a document gives each setting at most once and no section as a whole. -/
theorem separate_fileEntries (known : OnlyKnown (.table members))
    (distinct : (Setting.table members).Distinct) :
    Separate (fileEntries (some (.table members))) := by
  have exact {key : Key} {entry : List String × Setting}
      (held : entry ∈ fileEntries (some (.table members))) : key.path.length = entry.1.length := by
    obtain ⟨around, name, setting, same, -⟩ := (mem_fileEntries_iff known distinct).1 held
    rw [same]
    rfl
  refine ⟨fun key entry held around => ?_, fun key => ?_⟩
  · rw [around.eq_of_length (exact held).symm]
  · calc (fileEntries (some (.table members))).countP (key.path <+: ·.1)
        = ((fileEntries (some (.table members))).map Prod.fst).count key.path := by
          rw [List.count, List.countP_map]
          refine List.countP_congr fun entry held => ?_
          simp only [decide_eq_true_eq, Function.comp_apply, beq_iff_eq]
          exact ⟨fun inside => (inside.eq_of_length (exact held)).symm, fun same => by rw [same]⟩
      _ ≤ 1 := List.nodup_iff_count_le_one.1 (nodup_fileEntries known distinct) _

/-- Such a document gives a setting what stands at its path. -/
theorem given?_fileEntries (known : OnlyKnown (.table members))
    (distinct : (Setting.table members).Distinct) (key : Key) :
    given? (fileEntries (some (.table members))) key =
      ((Setting.table members).at? key.path).map fun setting => setting.spelled.laidOver none := by
  rw [given?]
  cases given : (fileEntries (some (.table members))).findSome? (inside? key.path) with
  | none =>
    cases found : (Setting.table members).at? key.path with
    | none => rfl
    | some setting =>
      have entry : (key.path, setting.spelled) ∈ fileEntries (some (.table members)) :=
        (mem_fileEntries_iff known distinct).2 ⟨_, _, setting, rfl, found, rfl⟩
      have missed := List.findSome?_eq_none_iff.1 given _ entry
      exact absurd List.prefix_rfl (inside?_eq_none_iff.1 missed)
  | some place =>
    obtain ⟨inner, value⟩ := place
    obtain ⟨entry, held, same⟩ := List.exists_of_findSome?_eq_some given
    obtain rfl := inside?_eq_some_iff.1 same
    obtain ⟨around, name, setting, path, found, rfl⟩ := (mem_fileEntries_iff known distinct).1 held
    obtain ⟨rfl, rfl, rfl⟩ : key.around = around ∧ key.name = name ∧ inner = [] := by
      simpa [Key.path] using path
    rw [Key.path, found]
    rfl

/-! ## Strict and loose conversion -/

/-- A text is what it is taken as. -/
theorem eq_string_of_strictText? {setting : Setting} {text : String}
    (taken : Conversion.strictText? setting = some text) : setting = .string text := by
  cases setting with
  | string value => exact congrArg Setting.string (Option.some.inj taken)
  | null | bool | integer | real | moment | list | table => contradiction

/-- A truth value is what it is taken as. -/
theorem eq_bool_of_strictFlag? {setting : Setting} {flag : Bool}
    (taken : Conversion.strictFlag? setting = some flag) : setting = .bool flag := by
  cases setting with
  | bool value => exact congrArg Setting.bool (Option.some.inj taken)
  | null | string | integer | real | moment | list | table => contradiction

/-- A list of texts is what it is taken as, and it is taken so loosely as well. -/
theorem eq_list_of_strict_texts? {items : List Setting} {texts : List String}
    (taken : items.mapM Conversion.strictText? = some texts) :
    Setting.spelledAll items = items ∧ items.mapM Conversion.looseText? = some texts := by
  induction items generalizing texts with
  | nil => exact ⟨rfl, taken⟩
  | cons item rest ih =>
    rw [List.mapM_cons] at taken
    obtain ⟨text, first, after⟩ := Option.bind_eq_some_iff.1 taken
    obtain ⟨others, later, whole⟩ := Option.bind_eq_some_iff.1 after
    obtain rfl := eq_string_of_strictText? first
    obtain ⟨same, loose⟩ := ih later
    refine ⟨by rw [Setting.spelledAll, same]; rfl, ?_⟩
    rw [List.mapM_cons, loose]
    exact whole

/-- What is taken strictly is converted loosely to the same value, and counts in a file. -/
theorem Key.convert?_of_strict {setting : Setting} {value : key.Value}
    (taken : key.take? .strict setting = some value) :
    (setting.spelled.laidOver none).filled = true ∧
      key.convert? (setting.spelled.laidOver none) = some value := by
  cases key with
  | provider =>
    obtain rfl := eq_string_of_strictText? taken
    exact ⟨rfl, rfl⟩
  | command =>
    cases setting with
    | list items =>
      obtain ⟨same, loose⟩ := eq_list_of_strict_texts? taken
      rw [Setting.spelled, same]
      exact ⟨rfl, loose⟩
    | null | bool | string | integer | real | moment | table => contradiction
  | clearOnUnresolved =>
    obtain rfl := eq_bool_of_strictFlag? taken
    exact ⟨rfl, rfl⟩
  | echoStatus =>
    obtain rfl := eq_bool_of_strictFlag? taken
    exact ⟨rfl, rfl⟩

/-- What a document says strictly about a setting is decided by it as a file without variables. -/
theorem decided?_of_taken? (known : OnlyKnown (.table members))
    (distinct : (Setting.table members).Distinct) {environment : Environment}
    (unset : environment.settings = []) {value : key.Value}
    (taken : key.taken? .strict ((Setting.table members).at? key.path) = some value) :
    key.decided? (winner? (some (.table members)) environment key) = some value := by
  have winner : winner? (some (.table members)) environment key =
      (((Setting.table members).at? key.path).map fun setting =>
        setting.spelled.laidOver none).filter Setting.filled := by
    rw [winner?, unset, fileGiven?, given?_fileEntries known distinct]
    rfl
  rw [winner]
  cases found : (Setting.table members).at? key.path with
  | none =>
    rw [found] at taken
    exact taken
  | some setting =>
    rw [found] at taken
    obtain ⟨full, converted⟩ := Key.convert?_of_strict taken
    rw [Option.map_some, Option.filter_some, if_pos full]
    exact converted

/-! ## The two readers -/

/-- Whether no variable of an environment is a setting. -/
def Unset (environment : Environment) : Prop :=
  ∀ entry ∈ environment, ¬ Environment.mark <+: entry.1.toLower.toList

instance (environment : Environment) : Decidable (Unset environment) :=
  inferInstanceAs (Decidable (∀ entry ∈ environment,
    ¬ Environment.mark <+: entry.1.toLower.toList))

/-- Without a variable that is a setting the environment gives nothing. -/
theorem settings_of_unset {environment : Environment} (unset : Unset environment) :
    environment.settings = [] := by
  rw [Environment.settings, List.filterMap_eq_nil_iff]
  rintro ⟨label, text⟩ held
  have foreign : ¬ Environment.mark.isPrefixOf label.toLower.toList = true := by
    rw [List.isPrefixOf_iff_prefix]
    exact unset _ held
  show (Environment.settingName? label).map _ = none
  rw [Environment.settingName?, if_neg foreign]
  rfl

/-- A document with no names but those of the settings that is accepted on its own is loaded from a
file without variables, with the same result. -/
theorem load_of_ofToml {surroundings : Surroundings} {asked : Option String} {path text : String}
    {config : Config} (place : filePath surroundings asked = .ok path)
    (kind : extension? path = some "toml")
    (content : surroundings.read path = .ok text.toUTF8)
    (unset : Unset surroundings.environment)
    (known : ∀ document ∈ Toml.settings? text, OnlyKnown document)
    (accepted : ofToml text = .ok config) : load surroundings asked = .ok config := by
  cases parsed : Toml.settings? text with
  | none => simp [ofToml, parsed] at accepted
  | some document =>
    obtain ⟨members, rfl⟩ := Toml.exists_settings?_table parsed
    have only : OnlyKnown (.table members) := known _ parsed
    have distinct := Toml.distinct_settings? parsed
    have taken : Conversion.strict.config? (.table members) = some config := by
      rw [ofToml, parsed, Option.bind_some] at accepted
      cases converted : Conversion.strict.config? (.table members) with
      | none => simp [converted] at accepted
      | some other => simpa [converted] using accepted
    have tables : ∀ key : Key, ∀ part ∈ (Setting.table members).member? key.around,
        ∃ inner, part = .table inner := by
      intro key part held
      have member := distinct.member?_iff.1 held
      exact ⟨_, Setting.eq_table_of_isTable (only _ member).2.1⟩
    have loads : Loads surroundings asked (some (.table members)) := by
      refine ⟨?_, separate_fileEntries only distinct, ?_⟩
      · rw [place]
        exact fileLayer_of_text content ((fileSettings?_of_toml kind text).trans parsed)
      · rw [settings_of_unset unset]
        decide
    rw [load_eq_ok_iff loads]
    intro key
    exact decided?_of_taken? only distinct (settings_of_unset unset)
      ((config?_table_iff tables).1 taken key)

/-- A document that gives some of the settings and has one section without any. -/
def partText : String :=
  "output = \x7b\x7d\n[clipboard]\ncommand = [\"tee\", '-a']\nprovider = 'command'\n"

/-- A part of the settings is read the same on its own and from a file, and the rest is as usual. -/
theorem load_partText :
    ofToml partText = .ok ⟨⟨"command", ["tee", "-a"], false⟩, ⟨true⟩⟩ ∧
    load (beside "c.toml" partText [("HOME", "/home")]) (some "c.toml") =
      .ok ⟨⟨"command", ["tee", "-a"], false⟩, ⟨true⟩⟩ := by
  have accepted : ofToml partText = .ok ⟨⟨"command", ["tee", "-a"], false⟩, ⟨true⟩⟩ := by
    decide +kernel
  refine ⟨accepted, load_of_ofToml rfl extension?_document (read_beside _ _ _) ?_ ?_ accepted⟩
  · show Unset [("HOME", "/home")]
    decide +kernel
  · decide +kernel

end Config
end CaretName
