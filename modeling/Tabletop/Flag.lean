import Tabletop.Score

/-!
# Flags

A flag follows a dice term or a group and says which of its results count. Several words may stand
for one kind of flag, and some kinds take a count of results.
-/

namespace Tabletop

/-- What a flag does with the results it is attached to. -/
inductive FlagKind where
  | advantage
  | disadvantage
  | keep
  | drop
  | grow
  | shrink
  /-- No word stands for rolling again. -/
  | reroll
  deriving DecidableEq

namespace FlagKind

/-- Every kind. -/
def all : List FlagKind := [.advantage, .disadvantage, .keep, .drop, .grow, .shrink, .reroll]

instance : ToString FlagKind where
  toString
    | .advantage => "advantage"
    | .disadvantage => "disadvantage"
    | .keep => "keep"
    | .drop => "drop"
    | .grow => "grow"
    | .shrink => "shrink"
    | .reroll => "reroll"

/-- Whether a count in parentheses may follow. -/
def isCounted : FlagKind → Bool
  | .keep | .drop => true
  | _ => false

end FlagKind

/-- The word that a flag is written with. -/
inductive FlagWord where
  | advantage
  | adv
  | disadvantage
  | dis
  | drop
  | grow
  | keep
  | shrink
  | take
  deriving DecidableEq

namespace FlagWord

/-- Every word. -/
def all : List FlagWord :=
  [.advantage, .adv, .disadvantage, .dis, .drop, .grow, .keep, .shrink, .take]

/-- The word in lower case, with its mark. -/
def literal : FlagWord → String
  | .advantage => "!advantage"
  | .adv => "!adv"
  | .disadvantage => "!disadvantage"
  | .dis => "!dis"
  | .drop => "!drop"
  | .grow => "!grow"
  | .keep => "!keep"
  | .shrink => "!shrink"
  | .take => "!take"

instance : ToString FlagWord := ⟨literal⟩

def kind : FlagWord → FlagKind
  | .advantage | .adv => .advantage
  | .disadvantage | .dis => .disadvantage
  | .drop => .drop
  | .grow => .grow
  | .keep | .take => .keep
  | .shrink => .shrink

/-- The word that these characters spell, in any case and from the first to the last of them. -/
def ofChars? (chars : List Char) : Option FlagWord :=
  all.find? fun word => word.literal.toList = chars.map Char.toLower

/-- Reads a word from a text. -/
def read? (text : String) : Option FlagWord :=
  ofChars? text.toList

end FlagWord

/-- A flag as it was written. -/
structure Flag where
  word : FlagWord
  count : Option Score
  deriving DecidableEq

namespace Flag

instance : ToString Flag where
  toString flag :=
    match flag.count with
    | none => toString flag.word
    | some count => toString flag.word ++ "(" ++ toString count ++ ")"

def kind (flag : Flag) : FlagKind := flag.word.kind

/-- The count of a flag that was written without one. -/
def defaultCount : Score := .one

/-- How many results the flag is about, if its kind is counted. -/
def amount (flag : Flag) : Score :=
  flag.count.getD defaultCount

end Flag

end Tabletop
