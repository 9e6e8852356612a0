import Tabletop.Text.CodeRange

/-!
# Blank characters

The Unicode property White_Space: what may surround a line without being part of it.
-/

namespace Tabletop.Text

/-- The ranges of White_Space. -/
def blankRanges : List CodeRange :=
  [(0x9, 0xd), (0x20, 0x20), (0x85, 0x85), (0xa0, 0xa0), (0x1680, 0x1680), (0x2000, 0x200a),
   (0x2028, 0x2029), (0x202f, 0x202f), (0x205f, 0x205f), (0x3000, 0x3000)]

/-- Whether a character has the property White_Space. -/
def isBlank (char : Char) : Bool :=
  covers blankRanges char.toNat

theorem blankRanges_ascending : Ascending blankRanges := by
  unfold Ascending
  decide

end Tabletop.Text
