import Tabletop.BinaryOp
import Tabletop.Flag
import Tabletop.Dice

/-!
# Tokens

The pieces of dice notation. A token keeps its characters and the blanks before it, so that a list
of tokens holds the text it came from. Places in a text are counted in bytes of its UTF-8 form.
-/

namespace Tabletop

inductive TokenKind where
  | integer
  | dice
  | fate
  | flag
  | leftParen
  | rightParen
  | plus
  | minus
  | star
  | slash
  /-- A character that no other kind begins with. -/
  | stray
  deriving DecidableEq

namespace TokenKind

/-- The kinds that stand for arithmetic operators. -/
def operators : List TokenKind := [.plus, .minus, .star, .slash]

/-- How a kind is named in a message. -/
def display : TokenKind → String
  | .integer => "<integer>"
  | .dice => "<dice>"
  | .fate => "<fate>"
  | .flag => "<flag>"
  | .leftParen => "'('"
  | .rightParen => "')'"
  | .plus => "'+'"
  | .minus => "'-'"
  | .star => "'*'"
  | .slash => "'/'"
  | .stray => "<error>"

def binaryOp? : TokenKind → Option BinaryOp
  | .plus => some .add
  | .minus => some .subtract
  | .star => some .multiply
  | .slash => some .divide
  | _ => none

end TokenKind

/-- A piece of notation with the blanks that separate it from the one before. -/
structure Token where
  gap : List Char
  kind : TokenKind
  text : List Char
  deriving DecidableEq

/-- A place in a text: the first byte and the one after the last. -/
structure Span where
  start : Nat
  stop : Nat
  deriving DecidableEq

/-- The place as seen from `distance` bytes further left. -/
def Span.shift (span : Span) (distance : Nat) : Span :=
  ⟨span.start + distance, span.stop + distance⟩

/-- The number of bytes that these characters take. -/
def byteLength : List Char → Nat
  | [] => 0
  | char :: rest => char.utf8Size + byteLength rest

theorem byteLength_append (left right : List Char) :
    byteLength (left ++ right) = byteLength left + byteLength right := by
  induction left with
  | nil => simp [byteLength]
  | cons char rest ih =>
    simp only [List.cons_append, byteLength, ih]
    omega

namespace Token

/-- The characters that a list of tokens holds, blanks included. -/
def chars (tokens : List Token) : List Char :=
  tokens.flatMap fun token => token.gap ++ token.text

theorem chars_append (left right : List Token) :
    chars (left ++ right) = chars left ++ chars right :=
  List.flatMap_append

/-- The text from the first to the last of these tokens, without the blanks before the first. -/
def join : List Token → List Char
  | [] => []
  | first :: rest => first.text ++ chars rest

/-- The places of the tokens, where `start` bytes come before them. -/
def spans (start : Nat) : List Token → List Span
  | [] => []
  | token :: rest =>
    let first := start + byteLength token.gap
    let next := first + byteLength token.text
    ⟨first, next⟩ :: spans next rest

@[simp] theorem length_spans (start : Nat) (tokens : List Token) :
    (spans start tokens).length = tokens.length := by
  induction tokens generalizing start with
  | nil => rfl
  | cons token rest ih => simp [spans, ih]

end Token

end Tabletop
