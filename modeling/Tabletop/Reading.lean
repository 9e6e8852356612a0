import Tabletop.Expr
import Tabletop.ParseError

/-!
# Reading expressions

An expression is read one token at a time. The state between two tokens is a `Reading`: the slot
that the next token has to fill, what the innermost open group has gathered, and the groups around
it. All operators have one level of precedence and group to the left, so each level waits with at
most one left operand.

`Expression.parse` reads a whole text. A token that its slot cannot take fails the reading on the
spot.
-/

namespace Tabletop

open ParseError (Cause)

namespace Token

/-- The value of an integer token. -/
def readInteger (token : Token) : Except Cause Score :=
  match Numeral.read Score.highest token.text with
  | .error _ => .error .integerTooLarge
  | .ok n =>
    match Score.ofInt? n with
    | some score => .ok score
    | none => .error .integerTooLarge

/-- The value of a dice token. -/
def readDice (token : Token) : Except Cause Dice :=
  (Dice.ofChars token.text).mapError .badDice

/-- The word that a flag token spells. -/
def readFlagWord (token : Token) : Except Cause FlagWord :=
  match FlagWord.ofChars? token.text with
  | some word => .ok word
  | none => .error .unknownFlag

/-- The token cannot stand where one of the expected kinds has to. -/
def unexpected {α : Type} (token : Token) (expected : List TokenKind) : Except Cause α :=
  .error (.unexpected (some token.kind) expected)

end Token

/-- What the next token meets in the innermost open group. -/
inductive Slot where
  /-- An operand has to begin. -/
  | operand
  /-- An operand that is complete. -/
  | closed (value : Expr)
  /-- A dice term or a group: complete, or to be followed by a flag. -/
  | bare (target : Expr)
  /-- A flag: complete, or to be followed by a count. -/
  | flagged (target : Expr) (word : FlagWord)
  /-- The parenthesis before a count: the number has to follow. -/
  | count (target : Expr) (word : FlagWord)
  /-- The number of a count: the parenthesis after it has to follow. -/
  | counted (target : Expr) (word : FlagWord) (count : Score)
  deriving DecidableEq

/-- The operand that is complete if no more of it follows. -/
def Slot.value? : Slot → Option Expr
  | .closed value | .bare value => some value
  | .flagged target word => some (.flagged target ⟨word, none⟩)
  | .operand | .count .. | .counted .. => none

/-- What a group has gathered: the left operand that waits for the right one, and the tokens of the
group, the last one first. -/
structure Level where
  pending : Option (Expr × BinaryOp)
  tokens : List Token
  deriving DecidableEq

namespace Level

def empty : Level := ⟨none, []⟩

/-- The operands so far, with one more on the right. -/
def join (level : Level) (operand : Expr) : Expr :=
  match level.pending with
  | none => operand
  | some (left, op) => .binary op left operand

/-- The text of the level. -/
def text (level : Level) : String :=
  String.ofList (Token.join level.tokens.reverse)

/-- The level with one more token. -/
def push (level : Level) (token : Token) : Level :=
  { level with tokens := token :: level.tokens }

end Level

/-- An expression read in part: the innermost open level and the levels around it. -/
structure Reading where
  slot : Slot
  level : Level
  outer : List Level
  deriving DecidableEq

namespace Reading

/-- Nothing has been read. -/
def start : Reading := ⟨.operand, .empty, []⟩

/-- The kinds that could stand next, as a message lists them. After a complete operand only what
ends the level is listed. -/
def expected (reading : Reading) : List TokenKind :=
  match reading.slot with
  | .operand => [.integer, .dice, .leftParen]
  | .count .. => [.integer]
  | .counted .. => [.rightParen]
  | .closed _ | .bare _ | .flagged .. => if reading.outer = [] then [] else [.rightParen]

/-- The reading after a token of the same level. -/
def fill (reading : Reading) (token : Token) (slot : Slot) : Reading :=
  { reading with slot, level := reading.level.push token }

/-- Begins a group. -/
def openGroup (reading : Reading) (token : Token) : Reading :=
  ⟨.operand, .empty, reading.level.push token :: reading.outer⟩

/-- Ends the innermost group, whose last operand is `value`. The tokens of the group belong to the
level around it as well. -/
def closeGroup? (reading : Reading) (token : Token) (value : Expr) : Option Reading :=
  match reading.outer with
  | [] => none
  | around :: outer =>
    let tokens := token :: (reading.level.tokens ++ around.tokens)
    some ⟨.bare (.group reading.level.text (reading.level.join value)), { around with tokens },
      outer⟩

/-- The reading after the operator that follows the operand `value`. -/
def continueWith (reading : Reading) (token : Token) (value : Expr) (op : BinaryOp) : Reading :=
  { reading with
    slot := .operand
    level := ⟨some (reading.level.join value, op), token :: reading.level.tokens⟩ }

/-- The reading after a token that follows the complete operand `value` and is no part of it. -/
def stepAfter (reading : Reading) (token : Token) (value : Expr) : Except Cause Reading :=
  match token.kind with
  | .flag => .error .misplacedFlag
  | .rightParen =>
    match reading.closeGroup? token value with
    | some next => .ok next
    | none => token.unexpected reading.expected
  | kind =>
    match kind.binaryOp? with
    | some op => .ok (reading.continueWith token value op)
    | none => token.unexpected reading.expected

/-- The reading after one more token. -/
def step (reading : Reading) (token : Token) : Except Cause Reading :=
  match reading.slot, token.kind with
  | .operand, .integer => return reading.fill token (.closed (.int (← token.readInteger)))
  | .operand, .dice => return reading.fill token (.bare (.dice (← token.readDice)))
  | .operand, .leftParen => .ok (reading.openGroup token)
  | .bare target, .flag => return reading.fill token (.flagged target (← token.readFlagWord))
  | .flagged target word, .leftParen =>
    if word.kind.isCounted then .ok (reading.fill token (.count target word))
    else .error (.needlessCount word.kind)
  | .count target word, .integer =>
    return reading.fill token (.counted target word (← token.readInteger))
  | .counted target word count, .rightParen =>
    .ok (reading.fill token (.closed (.flagged target ⟨word, some count⟩)))
  | slot, _ =>
    match slot.value? with
    | some value => reading.stepAfter token value
    | none => token.unexpected reading.expected

/-- The expression, if the text may end here. -/
def finish (reading : Reading) : Except Cause Expression :=
  match reading.slot.value?, reading.outer with
  | some value, [] => .ok ⟨reading.level.text, reading.level.join value⟩
  | _, _ => .error (.unexpected none reading.expected)

/-- Reads on to the end of the tokens, the first of which has the number `index`. -/
def run (reading : Reading) (index : Nat) : List Token → Except Failure Expression
  | [] => reading.finish.mapError (Failure.mk index)
  | token :: rest =>
    match reading.step token with
    | .ok next => next.run (index + 1) rest
    | .error cause => .error ⟨index, cause⟩

end Reading

/-- Reads an expression from the tokens of a text. -/
def Expression.ofTokens (tokens : List Token) : Except Failure Expression :=
  Reading.start.run 0 tokens

/-- Reads an expression from a text. -/
def Expression.parse (text : String) : Except ParseError Expression :=
  Token.readAll Expression.ofTokens text

end Tabletop
