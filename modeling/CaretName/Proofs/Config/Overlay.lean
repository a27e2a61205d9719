import CaretName.Config.Load
import Mathlib.Data.List.Count

/-!
# Settings laid over one another

One tree of settings is laid over another member by member. `Config.at?_layered` says what this
does to the setting at one path: it depends on what the upper layer gives at this path and on
nothing else, unless the layer puts something in place of a table around it.
-/
namespace CaretName

/-! ## Settings at paths -/

/-- What is looked up first in a list is its first entry. -/
theorem lookup_cons_eq {α β : Type} [DecidableEq α] (name other : α) (value : β)
    (entries : List (α × β)) : ((name, value) :: entries).lookup other =
      if other = name then some value else entries.lookup other := by
  rw [List.lookup_cons]
  by_cases same : other = name
  · simp [same]
  · have differ : (other == name) = false := by simpa using same
    simp [same, differ]

namespace Setting

variable {setting value : Setting} {name other : String} {members : List (String × Setting)}

/-- A member that was set has its new value, and the others keep theirs. -/
theorem lookup_put : (put name value members).lookup other =
    if other = name then some value else members.lookup other := by
  induction members with
  | nil => rw [put, lookup_cons_eq]
  | cons member rest ih =>
    obtain ⟨own, old⟩ := member
    rw [put]
    by_cases here : own = name
    · by_cases same : other = name <;> simp [lookup_cons_eq, here, same]
    · by_cases same : other = own
      · simp [same, here]
      · simp [lookup_cons_eq, same, here, ih]

/-- A member that was set is found, and the others are found as before. -/
@[simp] theorem member?_withMember : (setting.withMember name value).member? other =
    if other = name then some value else setting.member? other := lookup_put

/-- A table without members has none. -/
@[simp] theorem member?_nil : (table []).member? name = none := rfl

/-- Whether a setting is more than a table without members. -/
def filled : Setting → Bool
  | table [] => false
  | _ => true

/-- A setting with a member set is a table, and not an empty one. -/
theorem exists_withMember_eq (setting : Setting) (name : String) (value : Setting) :
    ∃ members, setting.withMember name value = table members ∧
      (table members).filled = true := by
  refine ⟨_, rfl, ?_⟩
  cases setting.members with
  | nil => rfl
  | cons member rest =>
    rw [put]
    split
    · rfl
    · rfl

/-- Members make a table of whatever they are laid over. -/
theorem exists_overAll_eq (member : String × Setting) (rest : List (String × Setting))
    (below : Setting) : ∃ members, overAll (member :: rest) below = table members ∧
      (table members).filled = true := by
  induction rest generalizing member below with
  | nil => exact exists_withMember_eq _ _ _
  | cons next rest ih => exact ih next _

/-- What is laid over nothing at a path is filled if it was, or if the path is not empty. -/
theorem filled_overAt (inner : List String) (full : inner = [] → value.filled = true) :
    (value.overAt inner none).filled = true := by
  cases inner with
  | nil =>
    cases value with
    | table members =>
      cases members with
      | nil => exact full rfl
      | cons member rest =>
        obtain ⟨made, same, more⟩ := exists_overAll_eq member rest (table [])
        show (overAll (member :: rest) (table [])).filled = true
        rw [same, more]
    | null | bool | integer | real | string | moment | list => rfl
  | cons name path =>
    obtain ⟨made, same, more⟩ := exists_withMember_eq (table []) name (value.overAt path none)
    show ((table []).withMember name (value.overAt path none)).filled = true
    rw [same, more]

/-- What is laid over a setting at a path changes nothing if it is a table without members. It
counts by itself, or is laid over as one table over another. -/
theorem overAt_cases (value : Setting) (inner : List String) (below : Setting) :
    (value.overAt inner none).filled = false ∧ value.overAt inner (some below) = below ∨
      (value.overAt inner none).filled = true ∧
        (value.overAt inner (some below) = value.overAt inner none ∨
          ∃ members more, value.overAt inner (some below) = table members ∧
            value.overAt inner none = table more) := by
  cases inner with
  | nil =>
    cases value with
    | table members =>
      cases members with
      | nil => exact .inl ⟨rfl, rfl⟩
      | cons member rest =>
        obtain ⟨above, same, -⟩ := exists_overAll_eq member rest below
        obtain ⟨alone, sameAlone, -⟩ := exists_overAll_eq member rest (table [])
        exact .inr ⟨filled_overAt [] fun _ => rfl, .inr ⟨above, alone, same, sameAlone⟩⟩
    | null | bool | integer | real | string | moment | list => exact .inr ⟨rfl, .inl rfl⟩
  | cons name path =>
    have full : (value.overAt (name :: path) none).filled = true :=
      filled_overAt (name :: path) fun empty => absurd empty (List.cons_ne_nil name path)
    exact .inr ⟨full, .inr ⟨_, _, rfl, rfl⟩⟩

/-- The setting at a path of names. -/
def at? : List String → Setting → Option Setting
  | [], setting => some setting
  | name :: path, setting => (setting.member? name).bind (at? path)

/-- What is two names deep is a member of a member. -/
theorem at?_pair (tree : Setting) (around name : String) :
    tree.at? [around, name] = (tree.member? around).bind (member? name) := by
  simp [at?]

/-- What is laid over a setting at a path changes what is at the start of the path. -/
theorem at?_overAt_append (path inner : List String) (below : Option Setting) :
    (value.overAt (path ++ inner) below).at? path =
      some (value.overAt inner (below.bind (at? path))) := by
  induction path generalizing below with
  | nil => cases below <;> rfl
  | cons name path ih =>
    rw [List.cons_append, overAt, at?, member?_withMember, if_pos rfl, Option.bind_some, ih]
    cases below with
    | none => rfl
    | some setting => rfl

/-- What is laid over a setting at a path does not change what is elsewhere. -/
theorem at?_overAt_of_apart {path other : List String} (below : Option Setting)
    (above : ¬ path <+: other) (inside : ¬ other <+: path) :
    (value.overAt path below).at? other = below.bind (at? other) := by
  induction path generalizing other below with
  | nil => exact absurd List.nil_prefix above
  | cons name path ih =>
    cases other with
    | nil => exact absurd List.nil_prefix inside
    | cons first other =>
      rw [overAt, at?, member?_withMember]
      by_cases same : first = name
      · subst same
        rw [if_pos rfl, Option.bind_some,
          ih _ (by simpa [List.cons_prefix_cons] using above)
            (by simpa [List.cons_prefix_cons] using inside)]
        cases below <;> rfl
      · rw [if_neg same]
        cases below <;> rfl

end Setting

namespace Config

open Setting (at? member?_withMember)

/-! ## Layers as entries -/

/-- What a layer gives, as paths with values. -/
abbrev Entries := List (List String × Setting)

variable {entries : Entries} {path : List String} {tree other : Setting}

/-- What an entry gives at a path: the value there, or one that is inside it. -/
def inside? (path : List String) (entry : List String × Setting) :
    Option (List String × Setting) := (entry.1.dropPrefix? path).map (·, entry.2)

/-- What an entry gives is at a path that goes on from the one asked for. -/
theorem inside?_eq_some_iff {entry : List String × Setting} {inner : List String}
    {value : Setting} :
    inside? path entry = some (inner, value) ↔ entry = (path ++ inner, value) := by
  obtain ⟨whole, own⟩ := entry
  simp [inside?, List.dropPrefix?_eq_some_iff]

/-- An entry gives nothing at a path if its own path does not go on from it. -/
theorem inside?_eq_none_iff {entry : List String × Setting} :
    inside? path entry = none ↔ ¬ path <+: entry.1 := by
  rw [Option.eq_none_iff_forall_ne_some]
  constructor
  · rintro nothing ⟨inner, same⟩
    exact nothing (inner, entry.2) (inside?_eq_some_iff.2 (Prod.ext same.symm rfl))
  · rintro apart ⟨inner, value⟩ found
    have same := inside?_eq_some_iff.1 found
    exact apart ⟨inner, by rw [same]⟩

/-- Whether no entry is around a path without being at it. -/
def Clear (path : List String) (entries : Entries) : Prop :=
  ∀ entry ∈ entries, entry.1 <+: path → path <+: entry.1

instance : Decidable (Clear path entries) :=
  inferInstanceAs (Decidable (∀ entry ∈ entries, entry.1 <+: path → path <+: entry.1))

/-- What an entry that is not around a path does to what is at the path. -/
theorem at?_overAt {entry : List String × Setting} (clear : entry.1 <+: path → path <+: entry.1)
    (tree : Setting) : (entry.2.overAt entry.1 (some tree)).at? path =
      match inside? path entry with
      | some (inner, value) => some (value.overAt inner (tree.at? path))
      | none => tree.at? path := by
  cases given : inside? path entry with
  | some found =>
    obtain ⟨inner, value⟩ := found
    obtain rfl := inside?_eq_some_iff.1 given
    exact Setting.at?_overAt_append path inner (some tree)
  | none =>
    have apart := inside?_eq_none_iff.1 given
    exact Setting.at?_overAt_of_apart (some tree) (fun around => apart (clear around)) apart

/-- What a layer makes of the setting at a path depends on nothing else below it. -/
theorem at?_layered_congr (clear : Clear path entries) (same : tree.at? path = other.at? path) :
    (layered tree entries).at? path = (layered other entries).at? path := by
  induction entries generalizing tree other with
  | nil => exact same
  | cons entry rest ih =>
    refine ih (fun later held => clear later (by simp [held])) ?_
    have own := clear entry (by simp)
    rw [at?_overAt own, at?_overAt own, same]

/-- A layer that gives nothing at a path leaves what is there. -/
theorem at?_layered_of_none (clear : Clear path entries)
    (nothing : entries.findSome? (inside? path) = none) (tree : Setting) :
    (layered tree entries).at? path = tree.at? path := by
  induction entries generalizing tree with
  | nil => rfl
  | cons entry rest ih =>
    rw [List.findSome?_cons] at nothing
    cases given : inside? path entry with
    | some found => simp [given] at nothing
    | none =>
      have next := ih (fun later held => clear later (by simp [held]))
        (by simpa [given] using nothing) (entry.2.overAt entry.1 (some tree))
      rw [at?_overAt (clear entry (by simp)), given] at next
      exact next

/-- A layer that gives one thing at a path lays it over what is there. -/
theorem at?_layered (clear : Clear path entries)
    (once : entries.countP (path <+: ·.1) ≤ 1) (tree : Setting) :
    (layered tree entries).at? path =
      match entries.findSome? (inside? path) with
      | some (inner, value) => some (value.overAt inner (tree.at? path))
      | none => tree.at? path := by
  induction entries generalizing tree with
  | nil => rfl
  | cons entry rest ih =>
    have later : Clear path rest := fun next held => clear next (by simp [held])
    have step := at?_overAt (clear entry (by simp)) tree
    rw [List.findSome?_cons]
    cases given : inside? path entry with
    | none =>
      have own : ¬ path <+: entry.1 := inside?_eq_none_iff.1 given
      have next := ih later (by simpa [List.countP_cons, own] using once)
        (entry.2.overAt entry.1 (some tree))
      rw [step, given] at next
      exact next
    | some found =>
      obtain ⟨inner, value⟩ := found
      have own : path <+: entry.1 := by
        rw [inside?_eq_some_iff.1 given]
        exact List.prefix_append path inner
      have none : rest.countP (path <+: ·.1) = 0 := by
        simp only [List.countP_cons, own, decide_true, if_true] at once
        omega
      have nothing : rest.findSome? (inside? path) = .none := by
        rw [List.findSome?_eq_none_iff]
        intro next held
        rw [inside?_eq_none_iff]
        simpa using List.countP_eq_zero.1 none next held
      have next := at?_layered_of_none later nothing (entry.2.overAt entry.1 (some tree))
      rw [step, given] at next
      exact next

/-- The entries that a member of a file gives: those of a table are given one by one. -/
def entriesOf : List String × Setting → Entries
  | ([name], .table members) => members.map fun (inner, value) => ([name, inner], value)
  | entry => [entry]

/-- The entries of a file, if there is one. -/
def fileEntries (file : Option Setting) : Entries :=
  file.elim [] fun file => (layerOf file).flatMap entriesOf

/-- A table is laid over a section like its members one by one. -/
theorem at?_overAll (tree : Setting) (name around inner : String)
    (members : List (String × Setting)) :
    (tree.withMember name (Setting.overAll members ((tree.member? name).getD (.table [])))).at?
        [around, inner] =
      (layered tree (members.map fun (inner, value) => ([name, inner], value))).at?
        [around, inner] := by
  induction members generalizing tree with
  | nil =>
    show _ = tree.at? [around, inner]
    rw [at?, at?, member?_withMember, Setting.overAll]
    by_cases same : around = name
    · subst same
      cases tree.member? around <;> simp [at?]
    · rw [if_neg same]
  | cons member rest ih =>
    obtain ⟨first, value⟩ := member
    refine Eq.trans ?_ (ih (value.overAt [name, first] (some tree)))
    rw [at?, at?, member?_withMember, member?_withMember]
    by_cases same : around = name
    · rw [if_pos same, if_pos same, Setting.overAll, Setting.overAt, member?_withMember, if_pos rfl]
      rfl
    · rw [if_neg same, if_neg same, Setting.overAt, member?_withMember, if_neg same]
      rfl

/-- A member of a file is laid over the settings like the entries that it gives. -/
theorem at?_entriesOf (entry : List String × Setting) (around inner : String) :
    (entry.2.overAt entry.1 (some tree)).at? [around, inner] =
      (layered tree (entriesOf entry)).at? [around, inner] := by
  obtain ⟨path, value⟩ := entry
  by_cases split : ∃ name members, path = [name] ∧ value = .table members
  · obtain ⟨name, members, rfl, rfl⟩ := split
    exact at?_overAll tree name around inner members
  · have single : entriesOf (path, value) = [(path, value)] := by
      rw [entriesOf]
      intro name members same
      obtain ⟨samePath, sameValue⟩ := Prod.mk.inj same
      exact split ⟨name, members, samePath, sameValue⟩
    rw [single]
    rfl

/-- The members of a file are laid over the settings like the entries that they give. -/
theorem at?_layer {layer : Entries} {around inner : String}
    (clear : Clear [around, inner] (layer.flatMap entriesOf)) :
    (layered tree layer).at? [around, inner] =
      (layered tree (layer.flatMap entriesOf)).at? [around, inner] := by
  induction layer generalizing tree with
  | nil => rfl
  | cons entry rest ih =>
    have later : Clear [around, inner] (rest.flatMap entriesOf) :=
      fun next held => clear next (by simp [held])
    have parts : layered tree ((entry :: rest).flatMap entriesOf) =
        layered (layered tree (entriesOf entry)) (rest.flatMap entriesOf) := by
      rw [List.flatMap_cons]
      exact List.foldl_append
    rw [parts, ← at?_layered_congr later (at?_entriesOf entry around inner)]
    exact ih later

end Config
end CaretName
