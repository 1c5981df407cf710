import Unformat.Text.CodePointSet

/-!
# White space

The Unicode property `White_Space`. The four information separators U+001C to U+001F do not have it.
-/

namespace Unformat.Text

/-- Code points with the property `White_Space`. -/
def blankPoints : CodePointSet where
  changes := #[
    9, 14, 32, 33, 133, 134, 160, 161, 5760, 5761, 8192, 8203, 8232, 8234, 8239, 8240, 8287,
    8288, 12288, 12289]

/-- A white-space character. -/
def isBlank (c : Char) : Bool :=
  if c.toNat < 128 then (9 ≤ c.toNat && c.toNat ≤ 13) || c == ' ' else blankPoints.contains c.toNat

/-- White space in the wide sense, which the four information separators belong to as well. -/
def isMargin (c : Char) : Bool := isBlank c || (0x1C ≤ c.toNat && c.toNat ≤ 0x1F)

end Unformat.Text
