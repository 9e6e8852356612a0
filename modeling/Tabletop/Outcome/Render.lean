import Tabletop.Outcome

/-!
# Rendering rolls

A roll is written as its notation with the results behind each dice term and each flag, and the
total at the end. A `Style` says how totals, literals and single results look; all else is the same
in every style.
-/

namespace Tabletop

/-- How numbers are written. A result comes with the sides of its die, if it is the face of one, and
with whether it was kept. -/
structure Style where
  total : Score → String
  literal : Score → String
  result : Score → Option Sides → Bool → String

namespace Style

/-- Numbers without any mark. -/
def plain : Style where
  total := toString
  literal := toString
  result score _ _ := toString score

/-- Whether a result is the lowest or the highest face of a numbered die. -/
def isCritical (score : Score) : Option Sides → Bool
  | some (.numbered count) => score.val = 1 || score.val = count.val
  | _ => false

/-- Markup for chat: the total is code, critical faces are bold, and results that a flag left out
are struck through. -/
def markdown : Style where
  total score := "\x60" ++ toString score ++ "\x60"
  literal := toString
  result score sides kept :=
    let face := if isCritical score sides then "**" ++ toString score ++ "**" else toString score
    if kept then face else "~~" ++ face ++ "~~"

/-- Results with a comma between them. -/
def results (style : Style) (sides : Option Sides) (pool : Pool) (kept : List Bool) : String :=
  ", ".intercalate (pool.zipWith (style.result · sides ·) kept)

end Style

namespace Outcome

/-- The sides that every result of a node is a face of. -/
def sides? : Outcome → Option Sides
  | .dice rolled => some rolled.dice.sides
  | _ => none

/-- Writes an outcome. A dice term under a flag shows its results once, behind the flag. -/
def render (style : Style) : Outcome → String
  | .literal score => style.literal score
  | .dice rolled =>
    toString rolled.dice ++ " (" ++
      style.results (some rolled.dice.sides) rolled.results (rolled.results.map fun _ => true) ++
      ")"
  | .group _ inner => "(" ++ inner.render style ++ ")"
  | .flagged target flag choices selected _ =>
    let base :=
      match target with
      | .dice rolled => toString rolled.dice
      | outcome => outcome.render style
    base ++ toString flag ++ " (" ++
      style.results target.sides? choices (choices.marks selected) ++ ")"
  | .binary op left right _ =>
    left.render style ++ " " ++ toString op ++ " " ++ right.render style

end Outcome

namespace Roll

/-- Writes a roll with its total. -/
def render (style : Style) (roll : Roll) : String :=
  roll.outcome.render style ++ " = " ++ style.total roll.total

instance : ToString Roll := ⟨render .plain⟩

end Roll

end Tabletop
