import Tabletop.Token

/-!
# Scanning

A text is cut into tokens from left to right, and the longest token that fits is taken. There is one
exception: after digits, a `d` and an `f` comes an `a` that does not go on to `fate`. The characters
up to the `f` then count as an integer. No token begins with an `a`, so such a text has a stray
character in any case.

For each kind a function counts the characters that a token of the kind takes at the start of a
text; zero means that there is no such token.
-/

namespace Tabletop.Token

/-- The length of the digits that a text begins with. -/
def digitCount (chars : List Char) : Nat :=
  (chars.takeWhile Char.isDigit).length

/-- The length of the fate sides that a text begins with: four, one or none. -/
def fateCount (chars : List Char) : Nat :=
  if (chars.take 4).map Char.toLower = ['f', 'a', 't', 'e'] then 4
  else if (chars.take 1).map Char.toLower = ['f'] then 1
  else 0

/-- The length of the sides of a die that a text begins with. -/
def sidesCount (chars : List Char) : Nat :=
  max (digitCount chars) (fateCount chars)

/-- The length of the dice term that a text begins with. -/
def diceCount (chars : List Char) : Nat :=
  match chars.drop (digitCount chars) with
  | [] => 0
  | delimiter :: rest =>
    if Dice.isDelimiter delimiter ∧ 0 < sidesCount rest then
      digitCount chars + 1 + sidesCount rest
    else 0

/-- The length of the flag that a text begins with. -/
def flagCount : List Char → Nat
  | '!' :: rest =>
    match (rest.takeWhile Char.isAlpha).length with
    | 0 => 0
    | letters => letters + 1
  | _ => 0

/-- The kind of token that is a single character. -/
def signKind : Char → TokenKind
  | '(' => .leftParen
  | ')' => .rightParen
  | '+' => .plus
  | '-' => .minus
  | '*' => .star
  | '/' => .slash
  | _ => .stray

/-- Whether a text begins with digits, a `d` and an `f`, and an `a` follows that does not go on to
`fate`. -/
def cutShort (chars : List Char) : Bool :=
  match chars.drop (digitCount chars) with
  | [] => false
  | delimiter :: rest =>
    digitCount chars ≠ 0 && Dice.isDelimiter delimiter && fateCount rest = 1 &&
      (rest.drop 1).head?.map Char.toLower = some 'a'

/-- The kind and the length of the token that a text begins with, where no blank comes first. -/
def lexeme (chars : List Char) : TokenKind × Nat :=
  if cutShort chars then (.integer, digitCount chars + 2)
  else if 0 < diceCount chars then (.dice, diceCount chars)
  else if 0 < digitCount chars then (.integer, digitCount chars)
  else if 0 < fateCount chars then (.fate, fateCount chars)
  else if 0 < flagCount chars then (.flag, flagCount chars)
  else (chars.head?.elim .stray signKind, 1)

/-- The tokens of a text, of which a number of characters at the start is already used. Blanks
after the last token belong to none. -/
def scanFrom : Nat → List Char → List Token
  | _, [] => []
  | used + 1, _ :: rest => scanFrom used rest
  | 0, char :: rest =>
    let gap := (char :: rest).takeWhile Char.isWhitespace
    let body := (char :: rest).dropWhile Char.isWhitespace
    if body = [] then []
    else
      let (kind, length) := lexeme body
      ⟨gap, kind, body.take length⟩ :: scanFrom (gap.length + length - 1) rest

/-- The tokens of a text. -/
def scan (chars : List Char) : List Token :=
  scanFrom 0 chars

/-! ## The course of a scan -/

/-- A token has at least one character. -/
theorem lexeme_length_pos (chars : List Char) : 0 < (lexeme chars).2 := by
  unfold lexeme
  split
  · exact Nat.succ_pos _
  split
  · assumption
  split
  · assumption
  split
  · assumption
  split
  · assumption
  · exact Nat.one_pos

theorem scanFrom_eq_scan_drop (used : Nat) (chars : List Char) :
    scanFrom used chars = scan (chars.drop used) := by
  induction chars generalizing used with
  | nil => cases used <;> rfl
  | cons char rest ih =>
    cases used with
    | zero => rfl
    | succ used => exact ih used

/-- Blanks alone make no token. -/
theorem scan_of_blank {chars : List Char} (blank : chars.dropWhile Char.isWhitespace = []) :
    scan chars = [] := by
  cases chars with
  | nil => rfl
  | cons char rest => simp [scan, scanFrom, blank]

/-- The first token takes the blanks before it, and the scan goes on behind it. -/
theorem scan_of_not_blank {chars gap body : List Char} (split : chars = gap ++ body)
    (blanks : ∀ char ∈ gap, char.isWhitespace = true) (nonempty : body ≠ [])
    (starts : ∀ char ∈ body.head?, char.isWhitespace = false) :
    scan chars =
      ⟨gap, (lexeme body).1, body.take (lexeme body).2⟩ :: scan (body.drop (lexeme body).2) := by
  obtain ⟨first, after, rfl⟩ := List.exists_cons_of_ne_nil nonempty
  have stop : first.isWhitespace = false := starts first rfl
  have gapEq : chars.takeWhile Char.isWhitespace = gap := by
    rw [split, List.takeWhile_append_of_pos blanks, List.takeWhile_cons_of_neg (by simp [stop]),
      List.append_nil]
  have bodyEq : chars.dropWhile Char.isWhitespace = first :: after := by
    rw [split, List.dropWhile_append_of_pos blanks, List.dropWhile_cons_of_neg (by simp [stop])]
  have pos := lexeme_length_pos (first :: after)
  cases chars with
  | nil => simp at split
  | cons char rest =>
    have advance : rest.drop (gap.length + (lexeme (first :: after)).2 - 1) =
        (first :: after).drop (lexeme (first :: after)).2 := by
      obtain ⟨length, equal⟩ := Nat.exists_eq_succ_of_ne_zero (Nat.ne_of_gt pos)
      have whole := congrArg (List.drop (gap.length + length + 1)) split
      have skipped : gap.drop (gap.length + length + 1) = [] := List.drop_eq_nil_of_le (by omega)
      rw [List.drop_succ_cons, List.drop_append, skipped, List.nil_append,
        Nat.add_assoc, Nat.add_sub_cancel_left] at whole
      rw [equal, ← whole]
      congr 1
    simp only [scan, scanFrom, gapEq, bodyEq, if_neg nonempty]
    rw [scanFrom_eq_scan_drop, advance]
    rfl

end Tabletop.Token
