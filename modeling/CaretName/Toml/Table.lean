import CaretName.Config.Setting

/-!
# Tables in the making

A table comes into being when its own header is read, when a longer header passes through it,
or when a dotted name does, and this decides what may still be added to it: a header opens a
table once, and dotted names add only to tables that dotted names have made. Values are closed.
-/
namespace CaretName.Toml

/-- How a table came into being. -/
inductive Making where
  /-- By its own header. -/
  | opened
  /-- By the header of a table inside it. -/
  | implied
  /-- By a dotted name. -/
  | dotted
  deriving DecidableEq, Repr

/-- What a name of a table stands for so far. -/
inductive Entry where
  | value (setting : Setting)
  | table (making : Making) (members : List (String × Entry))
  /-- Tables with the same header: those that are finished and the last one. -/
  | tables (finished : List Setting) (members : List (String × Entry))
  deriving Repr

/-- The names of a table with what they stand for so far. -/
abbrev Members := List (String × Entry)

mutual

/-- What a name stands for in the end. -/
def Entry.setting : Entry → Setting
  | .value setting => setting
  | .table _ members => .table (settings members)
  | .tables finished members => .list (finished ++ [.table (settings members)])

/-- The members of a finished table. -/
def settings : List (String × Entry) → List (String × Setting)
  | [] => []
  | (name, entry) :: rest => (name, entry.setting) :: settings rest

end

namespace Members

/-- Change what a name stands for, or add the name. -/
def alter? (name : String) (change : Option Entry → Option Entry) : Members → Option Members
  | [] => (change none).map fun entry => [(name, entry)]
  | (other, entry) :: rest =>
    if other == name then (change (some entry)).map fun entry => (other, entry) :: rest
    else (alter? name change rest).map fun rest => (other, entry) :: rest

/-- Change the table at a path of names from a table made in some way. Tables on the way that
are missing are made, those that may not be passed are refused, and of several with the same
header the last is meant. -/
def within? (byHeader : Bool) (change : Making → Members → Option Members) :
    List String → Making → Members → Option Members
  | [], making, members => change making members
  | name :: path, _, members =>
    alter? name (fun
      | none =>
        let making := if byHeader then Making.implied else Making.dotted
        (within? byHeader change path making []).map (.table making)
      | some (.value _) => none
      | some (.table making members) =>
        if !byHeader && making == .opened then none
        else (within? byHeader change path making members).map (.table making)
      | some (.tables finished last) =>
        (within? byHeader change path .opened last).map (.tables finished)) members

/-- Give a name a value that it does not have yet. -/
def define? (name : String) (value : Setting) : Members → Option Members :=
  alter? name fun
    | none => some (.value value)
    | some _ => none

/-- Give a dotted name a value. -/
def assign? (path : List String) (name : String) (value : Setting) (members : Members) :
    Option Members :=
  within? false (fun making members =>
    if path.isEmpty || making == .dotted then define? name value members else none)
    path .opened members

/-- Open a table by its header. -/
def open? (path : List String) (name : String) : Members → Option Members :=
  within? true (fun _ => alter? name fun
    | none => some (.table .opened [])
    | some (.table .implied members) => some (.table .opened members)
    | some _ => none) path .opened

/-- Start one more table with the same header. -/
def append? (path : List String) (name : String) : Members → Option Members :=
  within? true (fun _ => alter? name fun
    | none => some (.tables [] [])
    | some (.tables finished last) => some (.tables (finished ++ [.table (settings last)]) [])
    | some _ => none) path .opened

/-- Give a dotted name a value in the table that a header has opened. -/
def assignUnder? (header path : List String) (name : String) (value : Setting)
    (members : Members) : Option Members :=
  within? true (fun _ members => assign? path name value members) header .opened members

end Members

end CaretName.Toml
