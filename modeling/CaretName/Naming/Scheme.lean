import CaretName.Tree.Place

/-!
# Names by nesting

The name of a declaration is put together from the declarations around it. A naming scheme
says which constructs give a part of the name and which ones end it: what is declared inside
such a boundary is local and goes by its own name alone.
-/
namespace CaretName

/-- How the declarations of a language are named by nesting. -/
structure Scheme where
  /-- What stands between two parts of a name. -/
  separator : String
  /-- Constructs that give a part of the name. -/
  named : List Construct
  /-- Constructs that make everything inside them local. -/
  boundaries : List Construct

/-- The names of the declarations around a place. -/
structure ScopePath where
  /-- Names from the outermost to the innermost. -/
  segments : List String
  /-- Whether a boundary cuts the path off. -/
  isLocal : Bool
  separator : String
  deriving DecidableEq, Repr

/-- The path as one name. -/
def ScopePath.joined (path : ScopePath) : String := path.separator.intercalate path.segments

namespace Scheme

/-- The scheme of a language that is not known: nothing has a name. -/
def unknown : Scheme := ⟨".", [], []⟩

/-- The part that a place gives to the names inside it. -/
def segment? (scheme : Scheme) (place : Place) : Option String :=
  if place.isAny scheme.named then (place.child? .name).map Place.text else none

/-- Whether names inside a place are local. -/
def isBoundary (scheme : Scheme) (place : Place) : Bool := place.isAny scheme.boundaries

/-- The path of a place, which is itself part of it where it gives a name. -/
def path (scheme : Scheme) (place : Place) : ScopePath where
  segments :=
    ((place.outward.takeWhile (!scheme.isBoundary ·)).filterMap scheme.segment?).reverse
  isLocal := place.outward.any scheme.isBoundary
  separator := scheme.separator

end Scheme

end CaretName
