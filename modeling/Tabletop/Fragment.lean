import Tabletop.Reading

/-!
# Reading the parts of notation

Each piece of notation can be read on its own: an integer, the sides of a die, a dice term, a flag,
an operator, and a single term, which is a dice term with at most one flag and one integer
modifier. A fragment has to be the whole text.
-/

namespace Tabletop.Fragment

open ParseError (Cause)

/-- The tokens still to be read, and how many have been. -/
structure Cursor where
  passed : Nat
  rest : List Token

/-- Reads some tokens from a cursor. -/
abbrev Reader := StateT Cursor (Except Failure)

/-- The kind of the next token. -/
def peek? : Reader (Option TokenKind) :=
  return (← get).rest.head?.map Token.kind

/-- Takes the next token, which has to be of an expected kind. -/
def take (expected : List TokenKind) : Reader Token := fun cursor =>
  match cursor.rest with
  | [] => .error ⟨cursor.passed, .unexpected none expected⟩
  | token :: rest =>
    if token.kind ∈ expected then .ok (token, ⟨cursor.passed + 1, rest⟩)
    else .error ⟨cursor.passed, .unexpected (some token.kind) expected⟩

/-- The result of judging the token that was taken last. -/
def judge {α : Type} (result : Except Cause α) : Reader α := fun cursor =>
  match result with
  | .ok value => .ok (value, cursor)
  | .error cause => .error ⟨cursor.passed - 1, cause⟩

def integer : Reader Score := do
  judge (← take [.integer]).readInteger

def dice : Reader Dice := do
  judge (← take [.dice]).readDice

/-- Sides without a delimiter before them. -/
def sides : Reader Sides := do
  let token ← take [.integer, .fate]
  judge ((Sides.ofChars token.text).mapError fun error => .badDice (.sides error))

def operator : Reader BinaryOp := do
  let token ← take TokenKind.operators
  judge <|
    match token.kind.binaryOp? with
    | some op => .ok op
    | none => token.unexpected TokenKind.operators

/-- A flag, with a count if its kind takes one. -/
def flag : Reader Flag := do
  let word ← judge (← take [.flag]).readFlagWord
  if (← peek?) ≠ some .leftParen then
    return ⟨word, none⟩
  let _ ← take [.leftParen]
  if !word.kind.isCounted then
    judge (.error (.needlessCount word.kind))
  let count ← integer
  let _ ← take [.rightParen]
  return ⟨word, some count⟩

/-- A dice term with at most one flag and one integer modifier. -/
def term : Reader Expr := do
  let mut result := .dice (← dice)
  if (← peek?) = some .flag then
    result := .flagged result (← flag)
  if ((← peek?).bind TokenKind.binaryOp?).isSome then
    let op ← operator
    result := .binary op result (.int (← integer))
  return result

/-- Nothing is left. -/
def ended : Reader Unit := fun cursor =>
  match cursor.rest with
  | [] => .ok ((), cursor)
  | token :: _ => .error ⟨cursor.passed, .unexpected (some token.kind) []⟩

/-- Reads a fragment that is all of the tokens. -/
def ofTokens {α : Type} (reader : Reader α) (tokens : List Token) : Except Failure α := do
  let (value, cursor) ← reader ⟨0, tokens⟩
  let _ ← ended cursor
  return value

/-- Reads a fragment that is the whole text. -/
def parse {α : Type} (reader : Reader α) (text : String) : Except ParseError α :=
  Token.readAll (ofTokens reader) text

end Tabletop.Fragment
