import CaretName.Text.CharRange

/-!
# White space

The characters of the Unicode property `White_Space`, which separate words in rendered types
and in dotted names.
-/
namespace CaretName

/-- White space outside ASCII. -/
def wideBlanks : List CharRange :=
  [(0x85, 0x85), (0xA0, 0xA0), (0x1680, 0x1680), (0x2000, 0x200A), (0x2028, 0x2029),
    (0x202F, 0x202F), (0x205F, 0x205F), (0x3000, 0x3000)]

/-- Whether a character is white space. -/
def isBlank (char : Char) : Bool :=
  if isAscii char then (9 ≤ char.toNat && char.toNat ≤ 13) || char == ' '
  else CharRange.anyHolds wideBlanks char

end CaretName
