import Tabletop.BinaryOp
import Tabletop.Operand

/-!
# Operators on results

An operator holds its operands and can be evaluated as often as wanted.
-/

namespace Tabletop

/-- An operator with its operands. -/
inductive Operator where
  | binary (op : BinaryOp) (left right : Operand)
  | advantage (target : Operand)
  | disadvantage (target : Operand)
  | keep (target count : Operand)
  | drop (target count : Operand)
  | total (target : Operand)
  | grow (target : Operand)
  | shrink (target : Operand)
  | reroll (target : Operand)
  deriving DecidableEq

namespace Operator

/-- The operator that a flag stands for. -/
def ofFlag (flag : Flag) (target : Operand) : Operator :=
  match flag.kind with
  | .advantage => .advantage target
  | .disadvantage => .disadvantage target
  | .keep => .keep target (.number flag.amount)
  | .drop => .drop target (.number flag.amount)
  | .grow => .grow target
  | .shrink => .shrink target
  | .reroll => .reroll target

/-- The operands in the order they are written. -/
def operands : Operator → List Operand
  | .binary _ left right => [left, right]
  | .keep target count | .drop target count => [target, count]
  | .advantage target | .disadvantage target | .total target
  | .grow target | .shrink target | .reroll target => [target]

instance : ToString Operator where
  toString
    | .binary op left right => toString left ++ toString op ++ toString right
    | .advantage target => toString target ++ "!advantage"
    | .disadvantage target => toString target ++ "!disadvantage"
    | .keep target count => toString target ++ "!keep(" ++ toString count ++ ")"
    | .drop target count => toString target ++ "!drop(" ++ toString count ++ ")"
    | .total target => toString target ++ "!total"
    | .grow target => toString target ++ "!grow"
    | .shrink target => toString target ++ "!shrink"
    | .reroll target => toString target ++ "!reroll"

/-- Evaluates an operator. Operands are converted from left to right before anything else is
looked at, so a number in place of a pool is reported even by the kinds that are not supported. -/
def evaluate : Operator → Except RollError Operand
  | .binary op left right => do
    let a ← left.toScore
    let b ← right.toScore
    return .number (← op.apply a b)
  | .advantage target => do
    let pool ← target.toPool (.flag .advantage)
    return .number (← pool.advantage)
  | .disadvantage target => do
    let pool ← target.toPool (.flag .disadvantage)
    return .number (← pool.disadvantage)
  | .keep target count => do
    let pool ← target.toPool (.flag .keep)
    return .pool (pool.keep (← count.toScore))
  | .drop target count => do
    let pool ← target.toPool (.flag .drop)
    return .pool (pool.drop (← count.toScore))
  | .total target => do
    let pool ← target.toPool .total
    return .number (← pool.total)
  | .grow target => do
    let _ ← target.toPool (.flag .grow)
    throw (.unsupported .grow)
  | .shrink target => do
    let _ ← target.toPool (.flag .shrink)
    throw (.unsupported .shrink)
  | .reroll target => do
    let _ ← target.toPool (.flag .reroll)
    throw (.unsupported .reroll)

end Operator

end Tabletop
