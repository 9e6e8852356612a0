import Tabletop.Sides

/-!
# Dice

A dice term is a number of equal dice rolled together, such as `2d20`, `d6` or `4dF`.
-/

namespace Tabletop

/-- Equal dice rolled together. -/
structure Dice where
  rolls : Tally
  sides : Sides
  deriving DecidableEq

/-- Why a text is not a dice term. -/
inductive DiceError where
  | noDelimiter
  | rolls (fault : Numeral.Fault)
  | zeroRolls
  | sides (error : SidesError)
  deriving DecidableEq

def DiceError.message : DiceError → String
  | .noDelimiter => "cannot parse string as dice without 'd' delimiter"
  | .rolls fault => fault.message
  | .zeroRolls => "dice must be rolled at least once"
  | .sides error => error.message

namespace Dice

instance : ToString Dice where
  toString dice := toString dice.rolls ++ "d" ++ toString dice.sides

/-- The letter between the number of dice and their sides. -/
def isDelimiter (char : Char) : Bool :=
  char = 'd' || char = 'D'

theorem isDelimiter_iff {char : Char} : isDelimiter char = true ↔ char = 'd' ∨ char = 'D' := by
  simp [isDelimiter]

/-- Reads how many dice are rolled; nothing stands for one. -/
def readRolls (chars : List Char) : Except DiceError Tally :=
  if chars = [] then .ok .one
  else
    match Tally.read chars with
    | .ok rolls => .ok rolls
    | .error (.numeral fault) => .error (.rolls fault)
    | .error .zero => .error .zeroRolls

/-- Reads the sides after the delimiter. -/
def readSides (chars : List Char) : Except DiceError Sides :=
  (Sides.ofChars chars).mapError .sides

/-- Reads a dice term, which its first delimiter divides. A fault before the delimiter is reported
before one after it. -/
def ofChars (chars : List Char) : Except DiceError Dice :=
  match chars.dropWhile (!isDelimiter ·) with
  | [] => .error .noDelimiter
  | _ :: sides => do
    let rolls ← readRolls (chars.takeWhile (!isDelimiter ·))
    return ⟨rolls, ← readSides sides⟩

/-- Reads a dice term from a text. -/
def read (text : String) : Except DiceError Dice :=
  ofChars text.toList

end Dice

end Tabletop
