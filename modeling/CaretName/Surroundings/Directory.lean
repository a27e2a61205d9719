import CaretName.Surroundings.Basic

/-!
# Directories

A directory with all that lies below it, and the surroundings it makes for a command that runs
in it: paths start at the directory, and programs are found by name in one folder of it.
-/
namespace CaretName

/-- What can lie in a directory. -/
inductive Item where
  /-- A file, which may be a program. -/
  | file (content : ByteArray) (program : Option Program)
  | folder

/-- A directory: everything below it, each by the names of the folders around it, the outermost
first, and its own. -/
structure Directory where
  items : List (List String × Item) := []

namespace Directory

/-- The names that a path is made of. -/
def namesOf (path : String) : List String :=
  (path.splitOn "/").filter fun name => name != "" && name != "."

/-- What lies at a place. The directory itself is a folder. -/
def item? (directory : Directory) : List String → Option Item
  | [] => some .folder
  | names => directory.items.lookup names

/-- Whether a folder is at a place. -/
def isFolder (directory : Directory) (names : List String) : Bool :=
  match directory.item? names with
  | some .folder => true
  | _ => false

/-- The directory without what lies at a place and below it. -/
def without (directory : Directory) (names : List String) : Directory :=
  ⟨directory.items.filter fun item => !names.isPrefixOf item.1⟩

/-- Add a folder where nothing lies yet. -/
def withFolder (directory : Directory) (names : List String) : Directory :=
  if (directory.item? names).isSome then directory
  else ⟨(names, .folder) :: directory.items⟩

/-- Put something at a path, in folders that are made as they are needed. -/
def put (directory : Directory) (path : String) (item : Item) : Directory :=
  let names := namesOf path
  let around := ((List.range names.length).map names.take).foldl withFolder directory
  match item with
  | .folder => around.withFolder names
  | .file _ _ => ⟨(names, item) :: (around.without names).items⟩

/-- Remove what lies at a path. -/
def remove (directory : Directory) (path : String) : Directory :=
  directory.without (namesOf path)

/-- The place that the components of a path lead to. Every component on the way must be reached
from a folder. -/
def walk (directory : Directory) : List String → List String → Except Refusal (List String)
  | names, [] => .ok names
  | names, component :: rest =>
    if !directory.isFolder names then .error .notFolder
    else if component == "" || component == "." then directory.walk names rest
    else if component == ".." then
      if names.isEmpty then .error .missing else directory.walk names.dropLast rest
    else if (directory.item? (names ++ [component])).isNone then .error .missing
    else directory.walk (names ++ [component]) rest

/-- What lies at a path. -/
def itemAt (directory : Directory) (path : String) : Except Refusal Item :=
  if path.isEmpty || path.startsWith "/" then .error .missing
  else do
    let names ← directory.walk [] (path.splitOn "/")
    match directory.item? names with
    | some item => .ok item
    | none => .error .missing

/-- The bytes of the file at a path. -/
def read (directory : Directory) (path : String) : Except Refusal ByteArray := do
  match ← directory.itemAt path with
  | .file content _ => .ok content
  | .folder => .error .isFolder

/-- The program at a path. -/
def programAt (directory : Directory) (path : String) : Except Refusal Program := do
  match ← directory.itemAt path with
  | .file _ (some program) => .ok program
  | _ => .error .forbidden

/-- The program with a name in a folder. -/
def programIn? (directory : Directory) (folder name : String) : Option Program :=
  match directory.item? (namesOf folder ++ [name]) with
  | some (.file _ program) => program
  | _ => none

/-- The surroundings of a command that runs in the directory. Programs are found in one of its
folders, and shown with the path of the directory in front. -/
def surroundings (directory : Directory) (shown folder home : String)
    (environment : Environment) : Surroundings where
  read := directory.read
  find? name := (directory.programIn? folder name).map fun program =>
    (shown ++ "/" ++ folder ++ "/" ++ name, program)
  start name :=
    if name.contains '/' then directory.programAt name
    else match directory.programIn? folder name with
      | some program => .ok program
      | none => .error .missing
  environment := environment
  home := some home

end Directory

end CaretName
