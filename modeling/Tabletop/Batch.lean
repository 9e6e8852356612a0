import Tabletop.Error
import Tabletop.Reading
import Tabletop.Session

/-!
# Batches

Several expressions can stand in one text, with a comma or a semicolon between them. They are rolled
one after another in one session, and the first failure ends the batch. A failure among several
expressions is reported with the index of its expression.
-/

namespace Tabletop

/-- Work in a session that may fail in any way. -/
abbrev BatchM (σ : Type) := EStateM Error (Session σ)

namespace Batch

/-- Whether a character ends an expression. -/
def isSeparator (char : Char) : Bool :=
  char = ',' || char = ';'

/-- What stands before the first separator, and the pieces after each of them. -/
def splitChars : List Char → List Char × List (List Char)
  | [] => ([], [])
  | char :: rest =>
    let (piece, pieces) := splitChars rest
    if isSeparator char then ([], piece :: pieces) else (char :: piece, pieces)

/-- The texts of the expressions of a batch: one more than there are separators. -/
def split (text : String) : List String :=
  let (piece, pieces) := splitChars text.toList
  (piece :: pieces).map String.ofList

variable {σ : Type}

/-- Reads and rolls an expression that begins `start` bytes into the batch. -/
def rollPiece [Source σ] (start : Nat) (piece : String) : BatchM σ Roll :=
  match Expression.parse piece with
  | .error error => throw (.parse (error.shift start))
  | .ok expression => expression.roll.adaptExcept Error.roll

/-- Rolls expressions one after another, the first of which has the number `index` and begins
`start` bytes into the batch. A separator takes one byte. -/
def rollPieces [Source σ] (index start : Nat) : List String → BatchM σ (List Roll)
  | [] => return []
  | piece :: rest => do
    let roll ← (rollPiece start piece).adaptExcept (Error.batch index)
    let rolls ← rollPieces (index + 1) (start + byteLength piece.toList + 1) rest
    return roll :: rolls

/-- Rolls every expression of a text. An expression that stands alone fails with its own error. -/
def roll [Source σ] (text : String) : BatchM σ (List Roll) :=
  match split text with
  | [piece] => return [← rollPiece 0 piece]
  | pieces => rollPieces 0 0 pieces

/-- The totals of all expressions of a text. -/
def totals [Source σ] (text : String) : BatchM σ (List Score) :=
  return (← roll text).map Roll.total

end Batch

end Tabletop
