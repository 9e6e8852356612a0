import Tabletop.Expr
import Tabletop.Operator

/-!
# Outcomes

The outcome of an expression is a tree of the same shape, with the results that came up. Every total
is stored when the tree is built, and a pool is computed from what is stored, so that reading either
rolls nothing.
-/

namespace Tabletop

/-- What an expression has come to. A flagged node holds the results that its flag chose from and
the ones that it chose. -/
inductive Outcome where
  | literal (score : Score)
  | dice (rolled : Rolled)
  | group (text : String) (inner : Outcome)
  | flagged (target : Outcome) (flag : Flag) (choices selected : Pool) (total : Score)
  | binary (op : BinaryOp) (left right : Outcome) (total : Score)
  deriving DecidableEq

namespace Outcome

def total : Outcome → Score
  | .literal score => score
  | .dice rolled => rolled.total
  | .group _ inner => inner.total
  | .flagged _ _ _ _ sum => sum
  | .binary _ _ _ result => result

/-- The results that a flag on the node would choose from. Arithmetic is done with each result of
the left side and the total of the right one. -/
def pool : Outcome → Except RollError Pool
  | .literal _ => .error (.numberAsPool .literal)
  | .dice rolled => .ok rolled.results
  | .group _ inner => inner.pool
  | .flagged _ _ _ selected _ => .ok selected
  | .binary op left right _ => do
    (← left.pool).mapM fun result => op.apply result right.total

/-- The node as an operand of arithmetic. -/
def numberOperand : Outcome → Operand
  | .dice rolled => .dice rolled
  | outcome => .number outcome.total

/-- The node as an operand of a flag. Without dice it is a plain number, which the flag refuses in
its own name. -/
def poolOperand : Outcome → Except RollError Operand
  | .dice rolled => .ok (.dice rolled)
  | outcome =>
    match outcome.pool with
    | .ok results => .ok (.pool results)
    | .error (.numberAsPool _) => .ok (.number outcome.total)
    | .error error => .error error

/-- The expression that was evaluated. -/
def toExpr : Outcome → Expr
  | .literal score => .int score
  | .dice rolled => .dice rolled.dice
  | .group text inner => .group text inner.toExpr
  | .flagged target flag _ _ _ => .flagged target.toExpr flag
  | .binary op left right _ => .binary op left.toExpr right.toExpr

end Outcome

/-- The outcome of an expression with the text it was read from. -/
structure Roll where
  text : String
  outcome : Outcome
  deriving DecidableEq

namespace Roll

def total (roll : Roll) : Score := roll.outcome.total

def pool (roll : Roll) : Except RollError Pool := roll.outcome.pool

end Roll

end Tabletop
