/-!
# Sets of characters

The character classes of text are given as ranges of code points, in order and inclusive at
both ends. ASCII is decided by a direct test before any table is looked into.
-/
namespace CaretName

/-- Code points from the first to the second, both included. -/
abbrev CharRange := Nat × Nat

/-- Whether a character lies in one of the ranges. -/
def CharRange.anyHolds (ranges : List CharRange) (char : Char) : Bool :=
  ranges.any fun range => range.1 ≤ char.toNat && char.toNat ≤ range.2

/-- Whether a character is one of the 128 of ASCII. -/
def isAscii (char : Char) : Bool := char.toNat < 0x80

end CaretName
