import Tabletop.Dice
import Tabletop.Pool

/-!
# Rolled dice

What a dice term has given: the results in the order the dice came up, and their total.
-/

namespace Tabletop

/-- A dice term with what came up, one result for each die. -/
structure Rolled where
  dice : Dice
  results : Pool
  total : Score
  deriving DecidableEq

end Tabletop
