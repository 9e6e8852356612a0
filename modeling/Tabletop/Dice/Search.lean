import Tabletop.Dice
import Tabletop.Text.Digit

/-!
# Finding dice in a text

The first dice term of any text is found without reading what stands around it. The search takes
the digits of every script and a capital `F` for sides; what it finds still has to be read.
-/

namespace Tabletop.Dice

/-- Whether the search takes a character for a part of the sides. -/
def isSide (char : Char) : Bool :=
  Text.isDigit char || char = 'F'

/-- The dice term that begins a text: digits or none, the delimiter, and sides as far as they go. -/
def leading? (chars : List Char) : Option (List Char) :=
  match chars.dropWhile Text.isDigit with
  | [] => none
  | delimiter :: rest =>
    let sides := rest.takeWhile isSide
    if isDelimiter delimiter && !sides.isEmpty then
      some (chars.takeWhile Text.isDigit ++ delimiter :: sides)
    else none

/-- The dice term that begins furthest to the left. -/
def find? : List Char → Option (List Char)
  | [] => none
  | char :: rest =>
    match leading? (char :: rest) with
    | some found => some found
    | none => find? rest

end Tabletop.Dice
