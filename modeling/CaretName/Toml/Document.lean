import CaretName.Toml.Statement

/-!
# TOML documents

The statements of a document fill one table. Each assignment counts in the table that the last
header before it has opened. A name that is given two values, or a table that is opened twice,
makes a document worthless.
-/
namespace CaretName.Toml

/-- What has been read: the table so far and the header that counts. -/
structure Progress where
  members : Members := []
  header : List String := []

/-- Read one more statement. -/
def Progress.step? (progress : Progress) : Statement → Option Progress
  | .assign path name value => do
    let members ← progress.members.assignUnder? progress.header path name value
    some ⟨members, progress.header⟩
  | .header path name => do
    some ⟨← progress.members.open? path name, path ++ [name]⟩
  | .item path name => do
    some ⟨← progress.members.append? path name, path ++ [name]⟩

/-- The table that statements fill. -/
def ofStatements? (statements : List Statement) : Option Setting := do
  let progress ← statements.foldlM Progress.step? {}
  some (.table (settings progress.members))

/-- The settings of a document. -/
def settings? (text : String) : Option Setting := do ofStatements? (← read? text)

end CaretName.Toml
