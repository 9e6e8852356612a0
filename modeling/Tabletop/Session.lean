import Tabletop.Outcome
import Tabletop.Source

/-!
# Sessions

A session evaluates expressions. It takes faces from a source, counts the dice of the present
expression against a limit, and keeps a journal of every face drawn and every step done. A roll that
fails leaves the session as far as it got.
-/

namespace Tabletop

/-- A step of an evaluation. -/
inductive Step where
  | rolled (rolled : Rolled)
  | applied (operator : Operator) (result : Operand)
  | selected (operator : Operator) (result : Operand)
  deriving DecidableEq

instance : ToString Step where
  toString
    | .rolled rolled => "rolled " ++ toString rolled.dice ++ " -> " ++ rolled.results.display
    | .applied operator result => "applied " ++ toString operator ++ " = " ++ toString result
    | .selected operator result => "selected " ++ toString operator ++ " = " ++ toString result

/-- What a journal records: a face that was drawn within some bounds, or a step. -/
inductive Event where
  | drawn (bounds : Bounds) (face : Score)
  | step (step : Step)
  deriving DecidableEq

/-- The events of a session, the earliest first. -/
abbrev Journal := Array Event

namespace Journal

/-- The bounds of each face that was drawn. -/
def bounds (journal : Journal) : List Bounds :=
  journal.toList.filterMap fun
    | .drawn bounds _ => some bounds
    | .step _ => none

def steps (journal : Journal) : List Step :=
  journal.toList.filterMap fun
    | .drawn .. => none
    | .step step => some step

end Journal

structure Session (σ : Type) where
  source : σ
  /-- How many dice an expression may roll. -/
  limit : Option Nat
  /-- How many dice the present expression has asked for. -/
  counted : Nat
  journal : Journal

namespace Session

variable {σ : Type}

/-- A session in which nothing has been rolled. -/
def start (limit : Option Nat) (source : σ) : Session σ :=
  ⟨source, limit, 0, #[]⟩

/-- The limit where no other is asked for. -/
def defaultLimit : Nat := 1000

/-- The largest number that the count of dice can reach; it stays there from then on. -/
def countCeiling : Nat := 18446744073709551615

/-- Counts `n` more dice. -/
def count (session : Session σ) (n : Nat) : Session σ :=
  { session with counted := min (session.counted + n) countCeiling }

/-- Whether more dice have been asked for than the limit allows. -/
def exceeded (session : Session σ) : Bool :=
  session.limit.any (· < session.counted)

def record (session : Session σ) (event : Event) : Session σ :=
  { session with journal := session.journal.push event }

/-- Draws one face. -/
def draw [Source σ] (bounds : Bounds) (session : Session σ) : Score × Session σ :=
  let (face, source) := Source.next bounds session.source
  (face, { session with source }.record (.drawn bounds face))

/-- Draws `n` faces and puts them, the last one first, before the given ones. -/
def drawOnto [Source σ] (bounds : Bounds) : Nat → Pool → Session σ → Pool × Session σ
  | 0, faces, session => (faces, session)
  | n + 1, faces, session =>
    let (face, session) := session.draw bounds
    drawOnto bounds n (face :: faces) session

/-- Draws `n` faces. -/
def drawMany [Source σ] (bounds : Bounds) (n : Nat) (session : Session σ) : Pool × Session σ :=
  let (faces, session) := drawOnto bounds n [] session
  (faces.reverse, session)

theorem drawOnto_succ [Source σ] (bounds : Bounds) (n : Nat) (faces : Pool) (session : Session σ) :
    drawOnto bounds (n + 1) faces session =
      drawOnto bounds n ((session.draw bounds).1 :: faces) (session.draw bounds).2 :=
  rfl

/-- The given faces are left as they are. -/
theorem drawOnto_eq [Source σ] (bounds : Bounds) (n : Nat) (faces : Pool) (session : Session σ) :
    drawOnto bounds n faces session =
      ((drawOnto bounds n [] session).1 ++ faces, (drawOnto bounds n [] session).2) := by
  induction n generalizing faces session with
  | zero => rfl
  | succ n ih =>
    rw [drawOnto_succ, drawOnto_succ, ih, ih [_]]
    simp only [List.append_assoc, List.singleton_append]

/-- Of several faces, the first one is drawn before all others. -/
theorem drawMany_succ [Source σ] (bounds : Bounds) (n : Nat) (session : Session σ) :
    session.drawMany bounds (n + 1) =
      ((session.draw bounds).1 :: ((session.draw bounds).2.drawMany bounds n).1,
        ((session.draw bounds).2.drawMany bounds n).2) := by
  unfold drawMany
  rw [drawOnto_succ, drawOnto_eq]
  simp only [List.reverse_append, List.reverse_cons, List.reverse_nil, List.nil_append,
    List.singleton_append]

end Session

/-- Work in a session that may fail; the session goes on from where the failure left it. -/
abbrev RollM (σ : Type) := EStateM RollError (Session σ)

namespace RollM

variable {σ : Type}

/-- A computation that needs no session. -/
def lift {α : Type} : Except RollError α → RollM σ α
  | .ok value => pure value
  | .error error => throw error

/-- Records a step. -/
def record (step : Step) : RollM σ Unit :=
  modify (·.record (.step step))

/-- Counts `n` dice, and fails if they are too many. -/
def count (n : Nat) : RollM σ Unit := do
  modify (·.count n)
  if (← get).exceeded then throw .limitExceeded

/-- The results that an operator selected, with their total. -/
def selection : Operand → RollM σ (Pool × Score)
  | .number score => return ([score], score)
  | operand => do
    let selected ← lift (operand.toPool .total)
    return (selected, ← lift selected.total)

end RollM

open RollM (lift record)

variable {σ : Type}

/-- Rolls a dice term. The dice are counted before any of them is drawn. -/
def Dice.roll [Source σ] (dice : Dice) : RollM σ Rolled := do
  RollM.count dice.rolls.val
  let results ← modifyGet (·.drawMany dice.sides.bounds dice.rolls.val)
  let rolled := ⟨dice, results, ← lift results.total⟩
  record (.rolled rolled)
  return rolled

/-- Rolls a tree: operands before operators, and left before right. -/
def Expr.roll [Source σ] : Expr → RollM σ Outcome
  | .int score => return .literal score
  | .dice term => return .dice (← term.roll)
  | .group text body => return .group text (← body.roll)
  | .flagged target flag => do
    let target ← target.roll
    let operator := Operator.ofFlag flag (← lift target.poolOperand)
    let result ← lift operator.evaluate
    let choices ← lift target.pool
    record (.selected operator result)
    let (selected, total) ← RollM.selection result
    return .flagged target flag choices selected total
  | .binary op left right => do
    let left ← left.roll
    let right ← right.roll
    let operator := Operator.binary op left.numberOperand right.numberOperand
    let result ← lift operator.evaluate
    record (.applied operator result)
    return .binary op left right (← lift result.toScore)

/-- Rolls an expression. Its dice are counted from zero. -/
def Expression.roll [Source σ] (expression : Expression) : RollM σ Roll := do
  modify fun session => { session with counted := 0 }
  return ⟨expression.text, ← expression.root.roll⟩

end Tabletop
