import Tabletop.Dice.Search
import Tabletop.ParseError

/-!
# Errors

All that can go wrong between a text and its rolls.
-/

namespace Tabletop

inductive Error where
  | parse (error : ParseError)
  | roll (error : RollError)
  /-- A text in which dice were looked for has none. -/
  | noDice (text : String)
  /-- One expression of several failed; the first has the index zero. -/
  | batch (index : Nat) (source : Error)
  deriving DecidableEq

def Error.message : Error → String
  | .parse error => error.message
  | .roll error => error.message
  | .noDice text => "no dice term found in " ++ Text.quote text
  | .batch index source => "expression " ++ toString (index + 1) ++ ": " ++ source.message

namespace Dice

/-- The first dice term of a text as it stands there. -/
def search (text : String) : Except Error String :=
  match find? text.toList with
  | some found => .ok (String.ofList found)
  | none => .error (.noDice text)

/-- The first dice term of a text. One that cannot be read counts as none. -/
def extract (text : String) : Except Error Dice := do
  match read (← search text) with
  | .ok dice => return dice
  | .error _ => throw (.noDice text)

end Dice

end Tabletop
