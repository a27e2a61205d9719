import CaretName.Toml.Document
import Mathlib.Data.List.Nodup

/-!
# Names in the tables of a document

A document that gives a name twice is worthless, so every table that is read has each of its names
once, however deep it lies and however it came into being. `Toml.distinct_settings?` says this of
every document: one statement keeps what has been read that way, and so do all statements together.
-/
namespace CaretName

/-- Settings where every table has each of its names once. -/
inductive Setting.Distinct : Setting → Prop
  | null : Distinct .null
  | bool {value : Bool} : Distinct (.bool value)
  | integer {value : Int} : Distinct (.integer value)
  | real {value : Binary64} : Distinct (.real value)
  | string {value : String} : Distinct (.string value)
  | moment {text : String} : Distinct (.moment text)
  | list {items : List Setting} (each : ∀ item ∈ items, Distinct item) : Distinct (.list items)
  | table {members : List (String × Setting)} (once : (members.map Prod.fst).Nodup)
    (each : ∀ member ∈ members, Distinct member.2) : Distinct (.table members)

namespace Toml

/-- Entries where every table has each of its names once. -/
inductive Entry.Distinct : Entry → Prop
  | value {setting : Setting} (whole : setting.Distinct) : Distinct (.value setting)
  | table {making : Making} {members : Members} (once : (members.map Prod.fst).Nodup)
    (each : ∀ member ∈ members, Distinct member.2) : Distinct (.table making members)
  | tables {finished : List Setting} {members : Members}
    (before : ∀ setting ∈ finished, setting.Distinct) (once : (members.map Prod.fst).Nodup)
    (each : ∀ member ∈ members, Distinct member.2) : Distinct (.tables finished members)

/-- Members of a table that has each of its names once, as has every table in it. -/
structure Members.Distinct (members : Members) : Prop where
  once : (members.map Prod.fst).Nodup
  each : ∀ member ∈ members, member.2.Distinct

/-- The members of a finished table are its entries, each finished. -/
theorem settings_eq_map (members : Members) :
    settings members = members.map fun member => (member.1, member.2.setting) := by
  induction members with
  | nil => rfl
  | cons member rest ih => rw [settings, ih, List.map_cons]

/-- Finishing keeps the names of a table. -/
theorem names_settings (members : Members) :
    (settings members).map Prod.fst = members.map Prod.fst := by
  rw [settings_eq_map, List.map_map]
  rfl

/-- A finished entry has each name once where the entry has. -/
theorem Entry.Distinct.setting {entry : Entry} (distinct : entry.Distinct) :
    entry.setting.Distinct := by
  have finished {members : Members} (once : (members.map Prod.fst).Nodup)
      (each : ∀ member ∈ members, member.2.setting.Distinct) :
      (Setting.table (settings members)).Distinct := by
    refine .table (by rwa [names_settings]) ?_
    rw [settings_eq_map, List.forall_mem_map]
    exact each
  induction distinct with
  | value whole => exact whole
  | table once each ih => exact finished once ih
  | tables before once each ih =>
    refine .list fun item held => ?_
    rcases List.mem_append.1 held with early | last
    · exact before item early
    · obtain rfl := List.mem_singleton.1 last
      exact finished once ih

/-- A finished table has each name once where its members have. -/
theorem Members.Distinct.settings {members : Members} (distinct : members.Distinct) :
    (Setting.table (settings members)).Distinct := by
  have entry : (Entry.table .opened members).Distinct := .table distinct.once distinct.each
  exact entry.setting

namespace Members

variable {members result : Members} {name : String} {path header : List String}
  {value : Setting}

/-- No members are distinct. -/
theorem distinct_nil : Distinct ([] : Members) := ⟨List.nodup_nil, by simp⟩

/-- To alter what a name stands for is to change its entry where there is one, and to add one
where there is none. -/
theorem alter?_cases {change : Option Entry → Option Entry}
    (altered : alter? name change members = some result) :
    (∃ before old after entry, members = before ++ (name, old) :: after ∧
      change (some old) = some entry ∧ result = before ++ (name, entry) :: after) ∨
    (name ∉ members.map Prod.fst ∧ ∃ entry, change none = some entry ∧
      result = members ++ [(name, entry)]) := by
  induction members generalizing result with
  | nil =>
    obtain ⟨entry, made, rfl⟩ := Option.map_eq_some_iff.1 altered
    exact .inr ⟨by simp, entry, made, rfl⟩
  | cons member rest ih =>
    obtain ⟨other, old⟩ := member
    rw [alter?] at altered
    by_cases here : other = name
    · subst here
      rw [if_pos (beq_self_eq_true other)] at altered
      obtain ⟨entry, changed, rfl⟩ := Option.map_eq_some_iff.1 altered
      exact .inl ⟨[], old, rest, entry, rfl, changed, rfl⟩
    · rw [if_neg (by simpa using here)] at altered
      obtain ⟨more, later, rfl⟩ := Option.map_eq_some_iff.1 altered
      rcases ih later with ⟨before, own, after, entry, rfl, changed, rfl⟩ | ⟨new, entry, made, rfl⟩
      · exact .inl ⟨(other, old) :: before, own, after, entry, rfl, changed, rfl⟩
      · refine .inr ⟨?_, entry, made, rfl⟩
        rw [List.map_cons, List.mem_cons, not_or]
        exact ⟨fun same => here same.symm, new⟩

/-- Altering keeps members distinct if the change does so with what the name stands for. -/
theorem Distinct.alter? {change : Option Entry → Option Entry} (distinct : members.Distinct)
    (keeps : ∀ {old : Option Entry} {entry : Entry}, (∀ held ∈ old, held.Distinct) →
      change old = some entry → entry.Distinct)
    (altered : alter? name change members = some result) : result.Distinct := by
  rcases alter?_cases altered with ⟨before, old, after, entry, rfl, changed, rfl⟩ |
    ⟨new, entry, made, rfl⟩
  · have own : entry.Distinct := by
      refine keeps ?_ changed
      rintro held ⟨⟩
      exact distinct.each (name, old) (by simp)
    refine ⟨by simpa using distinct.once, fun member held => ?_⟩
    rcases List.mem_append.1 held with early | late
    · exact distinct.each member (by simp [early])
    · rcases List.mem_cons.1 late with rfl | later
      · exact own
      · exact distinct.each member (by simp [later])
  · refine ⟨?_, fun member held => ?_⟩
    · rw [List.map_append, List.map_singleton, List.nodup_append_comm, List.singleton_append,
        List.nodup_cons]
      exact ⟨new, distinct.once⟩
    · rcases List.mem_append.1 held with early | last
      · exact distinct.each member early
      · obtain rfl := List.mem_singleton.1 last
        exact keeps (by simp) made

/-- A change at a path keeps members distinct if it does so with those at its end. -/
theorem Distinct.within? {byHeader : Bool} {change : Making → Members → Option Members}
    {making : Making} (distinct : members.Distinct)
    (keeps : ∀ {making : Making} {inner result : Members}, inner.Distinct →
      change making inner = some result → result.Distinct)
    (changed : within? byHeader change path making members = some result) : result.Distinct := by
  induction path generalizing making members result with
  | nil => exact keeps distinct changed
  | cons name path ih =>
    rw [Members.within?] at changed
    refine distinct.alter? ?_ changed
    intro old entry held made
    cases old with
    | none =>
      obtain ⟨inner, within, rfl⟩ := Option.map_eq_some_iff.1 made
      have whole := ih distinct_nil within
      exact .table whole.once whole.each
    | some old =>
      cases held old rfl with
      | value whole => contradiction
      | table once each =>
        rw [Option.ite_none_left_eq_some] at made
        obtain ⟨inner, within, rfl⟩ := Option.map_eq_some_iff.1 made.2
        have whole := ih ⟨once, each⟩ within
        exact .table whole.once whole.each
      | tables before once each =>
        obtain ⟨inner, within, rfl⟩ := Option.map_eq_some_iff.1 made
        have whole := ih ⟨once, each⟩ within
        exact .tables before whole.once whole.each

/-- A name is given a value only if it has none. -/
theorem Distinct.define? (distinct : members.Distinct) (whole : value.Distinct)
    (defined : define? name value members = some result) : result.Distinct := by
  refine distinct.alter? ?_ defined
  intro old entry held made
  cases old with
  | none =>
    obtain rfl := Option.some.inj made
    exact .value whole
  | some old => contradiction

/-- A dotted name is given a value only if it has none. -/
theorem Distinct.assign? (distinct : members.Distinct) (whole : value.Distinct)
    (assigned : assign? path name value members = some result) : result.Distinct := by
  refine distinct.within? ?_ assigned
  intro making inner result own made
  rw [Option.ite_none_right_eq_some] at made
  exact own.define? whole made.2

/-- A name in the table of a header is given a value only if it has none. -/
theorem Distinct.assignUnder? (distinct : members.Distinct) (whole : value.Distinct)
    (assigned : assignUnder? header path name value members = some result) : result.Distinct :=
  distinct.within? (fun own made => own.assign? whole made) assigned

/-- A table is opened only once. -/
theorem Distinct.open? (distinct : members.Distinct)
    (opened : open? path name members = some result) : result.Distinct := by
  refine distinct.within? ?_ opened
  intro making inner result own made
  refine own.alter? ?_ made
  intro old entry held changed
  cases old with
  | none =>
    obtain rfl := Option.some.inj changed
    exact .table List.nodup_nil (by simp)
  | some old =>
    cases held old rfl with
    | value whole => contradiction
    | @table making members once each =>
      cases making with
      | implied =>
        obtain rfl := Option.some.inj changed
        exact .table once each
      | opened | dotted => contradiction
    | tables before once each => contradiction

/-- One more table with the same header is added to those that are finished. -/
theorem Distinct.append? (distinct : members.Distinct)
    (appended : append? path name members = some result) : result.Distinct := by
  refine distinct.within? ?_ appended
  intro making inner result own made
  refine own.alter? ?_ made
  intro old entry held changed
  cases old with
  | none =>
    obtain rfl := Option.some.inj changed
    exact .tables (by simp) List.nodup_nil (by simp)
  | some old =>
    cases held old rfl with
    | value whole => contradiction
    | table once each => contradiction
    | tables before once each =>
      obtain rfl := Option.some.inj changed
      refine .tables (fun setting finished => ?_) List.nodup_nil (by simp)
      rcases List.mem_append.1 finished with early | last
      · exact before setting early
      · obtain rfl := List.mem_singleton.1 last
        exact Members.Distinct.settings ⟨once, each⟩

end Members

/-! ## Values -/

/-- An integer that fits is no list and no table. -/
theorem distinct_whole64? {negative : Bool} {number : Nat} {setting : Setting}
    (read : whole64? negative number = some setting) : setting.Distinct := by
  obtain ⟨-, read⟩ := Option.ite_none_right_eq_some.1 read
  obtain rfl := Option.some.inj read
  exact .integer

/-- What is read as an integer is no list and no table. -/
theorem distinct_integer? {chars : List Char} {setting : Setting}
    (read : integer? chars = some setting) : setting.Distinct := by
  have ofBase {base : Nat} {digits : List Char} (read : ofBase? base digits = some setting) :
      setting.Distinct := by
    obtain ⟨found, -, read⟩ := Option.bind_eq_some_iff.1 read
    exact distinct_whole64? read
  unfold integer? at read
  split at read
  · exact ofBase read
  · exact ofBase read
  · exact ofBase read
  · obtain ⟨found, -, read⟩ := Option.bind_eq_some_iff.1 read
    exact distinct_whole64? read

/-- What is read as a number with a fraction is no list and no table. -/
theorem distinct_real? {chars : List Char} {setting : Setting}
    (read : real? chars = some setting) : setting.Distinct := by
  unfold real? at read
  dsimp only at read
  split at read
  · obtain rfl := Option.some.inj read
    exact .real
  split at read
  · obtain rfl := Option.some.inj read
    exact .real
  obtain ⟨-, read⟩ := Option.ite_none_left_eq_some.1 read
  obtain ⟨whole, -, read⟩ := Option.bind_eq_some_iff.1 read
  split at read
  all_goals
    obtain ⟨part, -, read⟩ := Option.bind_eq_some_iff.1 read
    obtain ⟨exponent, -, read⟩ := Option.bind_eq_some_iff.1 read
    obtain ⟨-, read⟩ := Option.ite_none_left_eq_some.1 read
    obtain rfl := Option.some.inj read
    exact .real

/-- What is read as a date or a time is no list and no table. -/
theorem distinct_moment? {chars : List Char} {setting : Setting}
    (read : moment? chars = some setting) : setting.Distinct := by
  obtain ⟨text, -, rfl⟩ := Option.map_eq_some_iff.1 read
  exact .moment

/-- What a word stands for is no list and no table. -/
theorem distinct_scalar? {word : List Char} {setting : Setting}
    (read : scalar? word = some setting) : setting.Distinct := by
  rw [scalar?] at read
  split at read
  · obtain rfl := Option.some.inj read
    exact .bool
  split at read
  · obtain rfl := Option.some.inj read
    exact .bool
  simp only [Option.orElse_eq_orElse, Option.orElse_eq_or, Option.or_eq_some_iff] at read
  rcases read with moment | ⟨-, real | ⟨-, whole⟩⟩
  · exact distinct_moment? moment
  · exact distinct_real? real
  · exact distinct_integer? whole

/-- A value is a list, a table in braces, a text, or what a word stands for. -/
theorem value?_cases {fuel depth : Nat} {chars rest : List Char} {setting : Setting}
    (read : value? (fuel + 1) depth chars = some (setting, rest)) :
    (∃ deeper inner items, items? fuel deeper inner = some (items, rest) ∧ setting = .list items) ∨
    setting = .table [] ∨
    (∃ deeper inner members, pairs? fuel deeper [] inner = some (members, rest) ∧
      setting = .table (settings members)) ∨
    (∃ text, setting = .string text) ∨ ∃ word, scalar? word = some setting := by
  unfold value? at read
  dsimp only at read
  split at read
  · split at read
    · contradiction
    · obtain ⟨⟨items, after⟩, inner, same⟩ := Option.map_eq_some_iff.1 read
      obtain ⟨rfl, rfl⟩ := Prod.mk.inj same
      exact .inl ⟨_, _, items, inner, rfl⟩
  · split at read
    · contradiction
    · split at read
      · obtain ⟨rfl, -⟩ := Prod.mk.inj (Option.some.inj read)
        exact .inr (.inl rfl)
      · obtain ⟨⟨members, after⟩, inner, same⟩ := Option.map_eq_some_iff.1 read
        obtain ⟨rfl, rfl⟩ := Prod.mk.inj same
        exact .inr (.inr (.inl ⟨_, _, members, inner, rfl⟩))
  · obtain ⟨body, -, same⟩ := Option.map_eq_some_iff.1 read
    exact .inr (.inr (.inr (.inl ⟨_, (Prod.mk.inj same).1.symm⟩)))
  · obtain ⟨body, -, same⟩ := Option.map_eq_some_iff.1 read
    exact .inr (.inr (.inr (.inl ⟨_, (Prod.mk.inj same).1.symm⟩)))
  · obtain ⟨found, scalar, same⟩ := Option.map_eq_some_iff.1 read
    obtain ⟨rfl, -⟩ := Prod.mk.inj same
    exact .inr (.inr (.inr (.inr ⟨_, scalar⟩)))

/-- What is read as a value, as the values of a list or as the members of a table in braces has each
name once. -/
theorem distinct_read (fuel : Nat) :
    (∀ {depth chars setting rest}, value? fuel depth chars = some (setting, rest) →
      setting.Distinct) ∧
    (∀ {depth chars items rest}, items? fuel depth chars = some (items, rest) →
      ∀ item ∈ items, item.Distinct) ∧
    (∀ {depth before chars members rest}, Members.Distinct before →
      pairs? fuel depth before chars = some (members, rest) → members.Distinct) := by
  induction fuel with
  | zero => exact ⟨by simp [value?], by simp [items?], by simp [pairs?]⟩
  | succ fuel ih =>
    obtain ⟨ofValue, ofItems, ofPairs⟩ := ih
    refine ⟨fun read => ?_, fun read => ?_, fun distinct read => ?_⟩
    · rcases value?_cases read with ⟨deeper, inner, items, listed, rfl⟩ | rfl |
        ⟨deeper, inner, members, braced, rfl⟩ | ⟨text, rfl⟩ | ⟨word, scalar⟩
      · exact .list (ofItems listed)
      · exact .table List.nodup_nil (by simp)
      · exact (ofPairs Members.distinct_nil braced).settings
      · exact .string
      · exact distinct_scalar? scalar
    · unfold items? at read
      obtain ⟨gap, -, read⟩ := Option.bind_eq_some_iff.1 read
      split at read
      · obtain ⟨rfl, -⟩ := Prod.mk.inj (Option.some.inj read)
        simp
      obtain ⟨⟨first, after⟩, value, read⟩ := Option.bind_eq_some_iff.1 read
      obtain ⟨more, -, read⟩ := Option.bind_eq_some_iff.1 read
      split at read
      · obtain ⟨rfl, -⟩ := Prod.mk.inj (Option.some.inj read)
        simpa using ofValue value
      · obtain ⟨⟨others, last⟩, later, read⟩ := Option.bind_eq_some_iff.1 read
        obtain ⟨rfl, -⟩ := Prod.mk.inj (Option.some.inj read)
        rw [List.forall_mem_cons]
        exact ⟨ofValue value, ofItems later⟩
      · contradiction
    · unfold pairs? at read
      obtain ⟨⟨path, name, after⟩, -, read⟩ := Option.bind_eq_some_iff.1 read
      dsimp only at read
      split at read
      · obtain ⟨⟨setting, next⟩, value, read⟩ := Option.bind_eq_some_iff.1 read
        obtain ⟨more, assigned, read⟩ := Option.bind_eq_some_iff.1 read
        have whole := distinct.assign? (ofValue value) assigned
        split at read
        · obtain ⟨rfl, -⟩ := Prod.mk.inj (Option.some.inj read)
          exact whole
        · exact ofPairs whole read
        · contradiction
      · contradiction

/-- A statement that gives a value with each name once. -/
inductive Statement.Distinct : Statement → Prop
  | assign {path : List String} {name : String} {value : Setting} (whole : value.Distinct) :
    Distinct (.assign path name value)
  | header {path : List String} {name : String} : Distinct (.header path name)
  | item {path : List String} {name : String} : Distinct (.item path name)

/-- What a statement gives has each name once. -/
theorem distinct_statement? {chars rest : List Char} {statement : Statement}
    (read : statement? chars = some (statement, rest)) : statement.Distinct := by
  unfold statement? at read
  split at read
  · obtain ⟨⟨path, name, after⟩, -, read⟩ := Option.bind_eq_some_iff.1 read
    dsimp only at read
    split at read
    · obtain ⟨rfl, -⟩ := Prod.mk.inj (Option.some.inj read)
      exact .item
    · contradiction
  · obtain ⟨⟨path, name, after⟩, -, read⟩ := Option.bind_eq_some_iff.1 read
    dsimp only at read
    split at read
    · obtain ⟨rfl, -⟩ := Prod.mk.inj (Option.some.inj read)
      exact .header
    · contradiction
  · obtain ⟨⟨path, name, after⟩, -, read⟩ := Option.bind_eq_some_iff.1 read
    dsimp only at read
    split at read
    · obtain ⟨⟨setting, last⟩, value, read⟩ := Option.bind_eq_some_iff.1 read
      obtain ⟨rfl, -⟩ := Prod.mk.inj (Option.some.inj read)
      exact .assign ((distinct_read _).1 value)
    · contradiction

/-- What the statements of a document give has each name once. -/
theorem distinct_statements? {fuel : Nat} {chars : List Char} {statements : List Statement}
    (read : statements? fuel chars = some statements) :
    ∀ statement ∈ statements, statement.Distinct := by
  induction fuel generalizing chars statements with
  | zero => contradiction
  | succ fuel ih =>
    unfold statements? at read
    obtain ⟨gap, -, read⟩ := Option.bind_eq_some_iff.1 read
    split at read
    · obtain rfl := Option.some.inj read
      simp
    · obtain ⟨⟨statement, after⟩, first, read⟩ := Option.bind_eq_some_iff.1 read
      obtain ⟨line, -, read⟩ := Option.bind_eq_some_iff.1 read
      obtain ⟨more, later, read⟩ := Option.bind_eq_some_iff.1 read
      obtain rfl := Option.some.inj read
      rw [List.forall_mem_cons]
      exact ⟨distinct_statement? first, ih later⟩

/-! ## Documents -/

/-- One more statement keeps what has been read distinct. -/
theorem Progress.distinct_step? {before after : Progress} {statement : Statement}
    (distinct : before.members.Distinct) (whole : statement.Distinct)
    (read : before.step? statement = some after) : after.members.Distinct := by
  cases whole with
  | assign whole =>
    obtain ⟨members, assigned, read⟩ := Option.bind_eq_some_iff.1 read
    obtain rfl := Option.some.inj read
    exact distinct.assignUnder? whole assigned
  | header =>
    obtain ⟨members, opened, read⟩ := Option.bind_eq_some_iff.1 read
    obtain rfl := Option.some.inj read
    exact distinct.open? opened
  | item =>
    obtain ⟨members, appended, read⟩ := Option.bind_eq_some_iff.1 read
    obtain rfl := Option.some.inj read
    exact distinct.append? appended

/-- All statements, one after the other, keep what has been read distinct. -/
theorem Progress.distinct_run {before after : Progress} {statements : List Statement}
    (distinct : before.members.Distinct) (whole : ∀ statement ∈ statements, statement.Distinct)
    (read : statements.foldlM Progress.step? before = some after) : after.members.Distinct := by
  induction statements generalizing before with
  | nil =>
    obtain rfl := Option.some.inj read
    exact distinct
  | cons statement rest ih =>
    rw [List.forall_mem_cons] at whole
    obtain ⟨next, stepped, later⟩ := Option.bind_eq_some_iff.1 read
    exact ih (distinct_step? distinct whole.1 stepped) whole.2 later

/-- A document is a table. -/
theorem exists_settings?_table {text : String} {document : Setting}
    (read : settings? text = some document) : ∃ members, document = .table members := by
  obtain ⟨statements, -, read⟩ := Option.bind_eq_some_iff.1 read
  obtain ⟨progress, -, read⟩ := Option.bind_eq_some_iff.1 read
  exact ⟨_, (Option.some.inj read).symm⟩

/-- Every table of a document has each of its names once. -/
theorem distinct_settings? {text : String} {document : Setting}
    (read : settings? text = some document) : document.Distinct := by
  obtain ⟨statements, parsed, read⟩ := Option.bind_eq_some_iff.1 read
  obtain ⟨progress, run, read⟩ := Option.bind_eq_some_iff.1 read
  obtain rfl := Option.some.inj read
  have whole : ∀ statement ∈ statements, statement.Distinct := by
    unfold read? at parsed
    split at parsed
    · exact distinct_statements? parsed
    · exact distinct_statements? parsed
  exact (Progress.distinct_run Members.distinct_nil whole run).settings

end Toml

end CaretName
