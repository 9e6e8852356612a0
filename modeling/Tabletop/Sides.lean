import Tabletop.Score
import Tabletop.Tally
import Tabletop.Text.Quoted

/-!
# Sides of a die

A die either has numbered faces from 1 upwards or is a fate die, with the faces -1, 0 and 1. Fate
sides remember which of their two spellings they were written with.
-/

namespace Tabletop

/-- The faces of a die. -/
inductive Sides where
  | numbered (count : Tally)
  | fate (abbreviated : Bool)
  deriving DecidableEq

/-- The least and the greatest face of a die. -/
structure Bounds where
  low : Score
  high : Score
  deriving DecidableEq

/-- Why a text does not name the sides of a die. -/
inductive SidesError where
  | numeral (fault : Numeral.Fault)
  | zero
  | unknown (text : String)
  deriving DecidableEq

def SidesError.message : SidesError → String
  | .numeral fault => fault.message
  | .zero => "dice must have at least one side"
  | .unknown text => Text.quote text ++ " is neither a number nor a fate die"

/-- Why a number is not the number of sides of a die. -/
inductive SideCountError where
  | zero
  deriving DecidableEq

def SideCountError.message : SideCountError → String
  | .zero => "number would be zero for non-zero type"

/-- A tally as the score of a face. -/
def Tally.toScore (tally : Tally) : Score :=
  ⟨tally.val, by
    have := tally.le_highest
    omega⟩

namespace Sides

/-- The faces a single die can show lie between these bounds, both included. -/
def bounds : Sides → Bounds
  | .numbered count => ⟨.one, count.toScore⟩
  | .fate _ => ⟨.minusOne, .one⟩

instance : ToString Sides where
  toString
    | .numbered count => toString count
    | .fate true => "f"
    | .fate false => "fate"

/-- A die with this many numbered faces. -/
def ofCount (count : Nat) : Except SideCountError Sides :=
  match Tally.ofNat? count with
  | some tally => .ok (.numbered tally)
  | none => .error .zero

/-- Reads sides: a spelling of the fate sides in any case, or a numeral without a sign. -/
def ofChars (chars : List Char) : Except SidesError Sides :=
  if chars.map Char.toLower = ['f'] then .ok (.fate true)
  else if chars.map Char.toLower = ['f', 'a', 't', 'e'] then .ok (.fate false)
  else if chars ≠ [] ∧ chars.all Char.isDigit then
    match Tally.read chars with
    | .ok count => .ok (.numbered count)
    | .error (.numeral fault) => .error (.numeral fault)
    | .error .zero => .error .zero
  else .error (.unknown (String.ofList chars))

/-- Reads sides from a text. -/
def read (text : String) : Except SidesError Sides :=
  ofChars text.toList

end Sides

end Tabletop
