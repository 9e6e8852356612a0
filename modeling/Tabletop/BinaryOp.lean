import Tabletop.Score.Narrow

/-!
# Arithmetic on scores

The four operators share one level of precedence. A difference is never less than one, since the
total of a roll does not sink below that, and a quotient is rounded down.
-/

namespace Tabletop

/-- An arithmetic operator. -/
inductive BinaryOp where
  | add
  | subtract
  | multiply
  | divide
  deriving DecidableEq

namespace Score

def add (a b : Score) : Except RollError Score :=
  narrow (a.val + b.val)

/-- The difference, raised to one where it is less. A difference that leaves the range overflows
before it could be raised. -/
def subtract (a b : Score) : Except RollError Score :=
  (narrow (a.val - b.val)).map (max one)

def multiply (a b : Score) : Except RollError Score :=
  narrow (a.val * b.val)

/-- What is left when the quotient is rounded towards zero. -/
def remainder (a b : Score) : Score :=
  wrap (a.val.tmod b.val)

/-- Whether rounding towards zero rounds the quotient up: it is negative and something is left. -/
def roundsUp (a b : Score) : Bool :=
  (a.remainder b).val != 0 && decide (a.val < 0) != decide (b.val < 0)

/-- The quotient, rounded down. It is first rounded towards zero, and where that is up it is lowered
by one. Only the first of these results is checked. -/
def divide (a b : Score) : Except RollError Score :=
  if b.val = 0 then .error .divisionByZero
  else (narrow (a.val.tdiv b.val)).map fun quotient =>
    if a.roundsUp b then wrap (quotient.val - 1) else quotient

end Score

namespace BinaryOp

/-- Every operator. -/
def all : List BinaryOp := [.add, .subtract, .multiply, .divide]

def symbol : BinaryOp → Char
  | .add => '+'
  | .subtract => '-'
  | .multiply => '*'
  | .divide => '/'

instance : ToString BinaryOp := ⟨fun op => op.symbol.toString⟩

/-- The operator whose symbol this text is. -/
def read? (text : String) : Option BinaryOp :=
  all.find? fun op => text.toList = [op.symbol]

def apply : BinaryOp → Score → Score → Except RollError Score
  | .add => Score.add
  | .subtract => Score.subtract
  | .multiply => Score.multiply
  | .divide => Score.divide

end BinaryOp

end Tabletop
