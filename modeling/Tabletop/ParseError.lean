import Tabletop.Token.Scan

/-!
# Errors of reading

An error names the token at which the reading failed, by its place and its text. At the end of the
text the place is empty.
-/

namespace Tabletop

/-- Why a token, or the end of the text, cannot stand where it does. -/
inductive ParseError.Cause where
  | unexpectedToken (found : Option TokenKind) (expected : List TokenKind)
  | strayText (expected : List TokenKind)
  | badDice (error : DiceError)
  | integerTooLarge
  | unknownFlag
  | misplacedFlag
  | needlessCount (kind : FlagKind)
  deriving DecidableEq

structure ParseError where
  cause : ParseError.Cause
  span : Span
  slice : String
  deriving DecidableEq

namespace ParseError

/-- The cause where something else was expected than what is there. -/
def Cause.unexpected (found : Option TokenKind) (expected : List TokenKind) : Cause :=
  if found = some .stray then .strayText expected else .unexpectedToken found expected

/-- The expected kinds in words; where none is expected, the text should have ended. -/
def displayExpected : List TokenKind → String
  | [] => "end of input"
  | [only] => only.display
  | [first, second] => first.display ++ " or " ++ second.display
  | kinds =>
    ", ".intercalate (kinds.dropLast.map TokenKind.display) ++
      ", or " ++ (kinds.getLast?.map TokenKind.display).getD ""

def Cause.message : Cause → String
  | .unexpectedToken (some found) expected =>
    "unexpected token " ++ found.display ++ "; expected " ++ displayExpected expected
  | .unexpectedToken none expected =>
    "unexpected end of input; expected " ++ displayExpected expected
  | .strayText expected => "expected " ++ displayExpected expected
  | .badDice error => "invalid dice literal: " ++ error.message
  | .integerTooLarge => "integer is too large"
  | .unknownFlag => "unknown flag"
  | .misplacedFlag => "flags can only follow a dice term or a parenthesized group"
  | .needlessCount kind => toString kind ++ " does not take a count"

def message (error : ParseError) : String :=
  "error at position " ++ toString error.span.start ++ " (" ++ Text.quote error.slice ++ "): " ++
    error.cause.message

/-- The same error where the text stands `distance` bytes into a longer one. -/
def shift (error : ParseError) (distance : Nat) : ParseError :=
  { error with span := error.span.shift distance }

/-- The error at a token that is given by its number. A number beyond the tokens stands for the end
of the text, which is `size` bytes long. -/
def atToken (size : Nat) (tokens : List Token) (index : Nat) (cause : Cause) : ParseError :=
  match tokens[index]?, (Token.spans 0 tokens)[index]? with
  | some token, some span => ⟨cause, span, String.ofList token.text⟩
  | _, _ => ⟨cause, ⟨size, size⟩, ""⟩

end ParseError

/-- A reading that failed: the number of the token it failed at, and why. -/
structure Failure where
  index : Nat
  cause : ParseError.Cause
  deriving DecidableEq

/-- Reads a text by a function on its tokens, and places the error if that fails. -/
def Token.readAll {α : Type} (reader : List Token → Except Failure α) (text : String) :
    Except ParseError α :=
  let tokens := scan text.toList
  (reader tokens).mapError fun failure =>
    .atToken (byteLength text.toList) tokens failure.index failure.cause

end Tabletop
