import Tabletop.BinaryOp
import Tabletop.Dice
import Tabletop.Flag

/-!
# Expressions

The trees of dice notation. A group keeps the text between its parentheses, and an expression keeps
the whole text that it was read from.
-/

namespace Tabletop

/-- A tree of dice notation. -/
inductive Expr where
  | int (score : Score)
  | dice (term : Dice)
  | group (text : String) (body : Expr)
  | flagged (target : Expr) (flag : Flag)
  | binary (op : BinaryOp) (left right : Expr)
  deriving DecidableEq

namespace Expr

/-- The notation in its normal spelling. Left operands need no parentheses. -/
def display : Expr → String
  | .int score => toString score
  | .dice term => toString term
  | .group _ body => "(" ++ body.display ++ ")"
  | .flagged target suffix => target.display ++ toString suffix
  | .binary op left right => left.display ++ " " ++ toString op ++ " " ++ right.display

instance : ToString Expr := ⟨display⟩

/-- Whether a flag may follow directly. -/
def admitsFlag : Expr → Bool
  | .dice _ | .group _ _ => true
  | _ => false

end Expr

/-- A tree with the text it was read from. -/
structure Expression where
  text : String
  root : Expr
  deriving DecidableEq

instance : ToString Expression := ⟨fun expression => toString expression.root⟩

end Tabletop
