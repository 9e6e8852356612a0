import Tabletop.Rolled

/-!
# Operands

Arithmetic asks for numbers and selection asks for pools. Rolled dice serve as either, by their
total or by their results.
-/

namespace Tabletop

/-- What an operator works on, and what it gives. -/
inductive Operand where
  | number (score : Score)
  | pool (results : Pool)
  | dice (rolled : Rolled)
  deriving DecidableEq

namespace Operand

/-- The operand as a number. -/
def toScore : Operand → Except RollError Score
  | .number score => .ok score
  | .pool _ => .error .poolAsNumber
  | .dice rolled => .ok rolled.total

/-- The operand as a list of results, which `user` asks for. -/
def toPool (user : PoolUser) : Operand → Except RollError Pool
  | .number _ => .error (.numberAsPool user)
  | .pool results => .ok results
  | .dice rolled => .ok rolled.results

instance : ToString Operand where
  toString
    | .number score => toString score
    | .pool results => results.display
    | .dice rolled => toString rolled.dice

end Operand

end Tabletop
