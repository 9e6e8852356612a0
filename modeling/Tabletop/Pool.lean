import Tabletop.Score.Narrow

/-!
# Pools

A pool is a list of results in the order they came up. It can be summed, its best or worst member
can be taken, and its highest members can be kept or its lowest dropped without a change of order.
-/

namespace Tabletop

/-- A list of results. -/
abbrev Pool := List Score

namespace Pool

/-- The sum of the results, added from left to right. -/
def total (pool : Pool) : Except RollError Score :=
  pool.foldlM (fun sum result => Score.narrow (sum.val + result.val)) Score.zero

/-- The greatest result. -/
def advantage (pool : Pool) : Except RollError Score :=
  match pool.max? with
  | some best => .ok best
  | none => .error (.emptyPool .advantage)

/-- The least result. -/
def disadvantage (pool : Pool) : Except RollError Score :=
  match pool.min? with
  | some worst => .ok worst
  | none => .error (.emptyPool .disadvantage)

/-- The pool less its lowest result, the first one of these if there are several. -/
def discardLeast (pool : Pool) : Pool :=
  match pool.min? with
  | some least => pool.erase least
  | none => []

/-- The pool less its `n` lowest results. -/
def discard (pool : Pool) : Nat → Pool
  | 0 => pool
  | n + 1 => pool.discardLeast.discard n

/-- The `n` highest results in their order; a count below zero stands for none. -/
def keep (pool : Pool) (n : Score) : Pool :=
  if n.val ≤ 0 then [] else pool.discard (pool.length - n.val.toNat)

/-- The pool less its `n` lowest results; a count below zero stands for none. -/
def drop (pool : Pool) (n : Score) : Pool :=
  if pool.length ≤ n.val then [] else pool.discard n.val.toNat

/-- For each result of the pool whether it is among the selected ones; equal results are matched
from left to right. -/
def marks : Pool → Pool → List Bool
  | [], _ => []
  | result :: rest, selected => selected.contains result :: marks rest (selected.erase result)

/-- The results between brackets. -/
def display (pool : Pool) : String :=
  "[" ++ ", ".intercalate (pool.map toString) ++ "]"

end Pool

end Tabletop
