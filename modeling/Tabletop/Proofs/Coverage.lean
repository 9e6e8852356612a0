import Tabletop.Proofs.ErrorSpan
import Tabletop.Proofs.Pattern

/-!
# Nothing of a text is lost

The places of the tokens of a text come one after the other, and what lies between them is blank.
Each token is the longest match of any pattern at its place, with two exceptions: a stray character
that no pattern matches, and the start of a dice term that is cut short before an `a`.
-/

namespace Tabletop

namespace TokenKind

/-! ## First characters -/

/-- The kind of token that begins with a character. Integers begin as dice terms do, and blanks
count as stray. -/
def leading (char : Char) : TokenKind :=
  if char.isDigit ∨ Dice.isDelimiter char then .dice
  else if char.toLower = 'f' then .fate
  else if char = '!' then .flag
  else Token.signKind char

/-- The kind that stands for all kinds with the same first characters. -/
def family : TokenKind → TokenKind
  | .integer => .dice
  | kind => kind

variable {kind : TokenKind} {text chars : List Char}

theorem not_matches_nil : ¬ kind.Matches [] := by
  cases kind <;> decide

theorem leading_of_fate {char : Char} (lower : char.toLower = 'f') : leading char = .fate := by
  have letter := Text.isAlpha_of_toLower_eq lower (by decide)
  unfold leading
  rw [if_neg, if_pos lower]
  rw [Dice.isDelimiter_iff_toLower, lower, Text.isDigit_eq_false_of_isAlpha letter]
  decide

/-- Apart from integers and dice terms, no two kinds begin with the same character. -/
theorem leading_of_matches {char : Char} (fits : kind.Matches (char :: text)) :
    leading char = kind.family := by
  cases kind with
  | integer =>
    have digit := (matches_integer.mp fits).2 char List.mem_cons_self
    exact if_pos (.inl digit)
  | dice =>
    obtain ⟨before, delimiter, after, whole, number, divides, _⟩ := matches_dice.mp fits
    cases before with
    | nil =>
      cases whole
      exact if_pos (.inr divides)
    | cons digit before =>
      cases whole
      exact if_pos (.inl (number char List.mem_cons_self))
  | fate =>
    rcases matches_fate.mp fits with lowered | lowered <;>
      exact leading_of_fate (List.cons.inj lowered).1
  | flag =>
    obtain ⟨letters, whole, _⟩ := matches_flag.mp fits
    cases whole
    rfl
  | stray =>
    have blank := (matches_stray.mp fits).2 char List.mem_cons_self
    rcases Token.blank_cases blank with rfl | rfl | rfl | rfl <;> rfl
  | leftParen | rightParen | plus | minus | star | slash =>
    cases fits
    rfl

theorem eq_or_of_family_eq {other : TokenKind} (same : other.family = kind.family) :
    other = kind ∨ (other = .integer ∧ kind = .dice) ∨ (other = .dice ∧ kind = .integer) := by
  cases kind <;> cases other <;> simp [family] at same ⊢

theorem count_nil (kind : TokenKind) : kind.count [] = 0 := by
  cases kind <;> rfl

theorem leading_of_count_pos {char : Char} (positive : 0 < kind.count (char :: chars)) :
    leading char = kind.family := by
  have fits := (longest_count kind (char :: chars)).matches_take positive
  obtain ⟨size, size_eq⟩ := Nat.exists_eq_add_of_lt positive
  rw [size_eq, Nat.zero_add, List.take_succ_cons] at fits
  exact leading_of_matches fits

/-- At most one family of kinds has a token at the start of a text. -/
theorem count_eq_zero {other : TokenKind} (positive : 0 < kind.count chars)
    (apart : other.family ≠ kind.family) : other.count chars = 0 := by
  by_contra some
  cases chars with
  | nil => exact some (count_nil other)
  | cons char rest =>
    have otherLeads := leading_of_count_pos (Nat.pos_of_ne_zero some)
    exact apart (otherLeads.symm.trans (leading_of_count_pos positive))

/-! ## The token at the start of a text -/

/-- The digits of a dice term are not all of it. -/
theorem digitCount_lt_diceCount (positive : 0 < Token.diceCount chars) :
    Token.digitCount chars < Token.diceCount chars := by
  unfold Token.diceCount at positive ⊢
  split at positive
  · cases positive
  · split at positive
    next present =>
      rw [if_pos present]
      omega
    · cases positive

/-- The kind takes some characters at the start of the text, and every other kind takes less. -/
structure Prevails (kind : TokenKind) (chars : List Char) : Prop where
  positive : 0 < kind.count chars
  others : ∀ other, other ≠ kind → other.count chars < kind.count chars

/-- Only an integer and a dice term can begin at the same place. -/
theorem prevails_of_count {kind : TokenKind} {chars : List Char} (positive : 0 < kind.count chars)
    (noDice : kind = .integer → Token.diceCount chars = 0) : kind.Prevails chars where
  positive := positive
  others other different := by
    by_cases same : other.family = kind.family
    · rcases eq_or_of_family_eq same with rfl | ⟨rfl, rfl⟩ | ⟨rfl, rfl⟩
      · exact absurd rfl different
      · exact digitCount_lt_diceCount positive
      · rw [show dice.count chars = 0 from noDice rfl]
        exact positive
    · rw [count_eq_zero positive same]
      exact positive

/-- What the kind that prevails takes is the longest match of any kind. -/
theorem Prevails.longest {rest : List Char} (prevails : kind.Prevails (text ++ rest))
    (length : text.length = kind.count (text ++ rest)) :
    kind.Matches text ∧ ∀ other start, start <+: text ++ rest → TokenKind.Matches other start →
      start.length < text.length ∨ start = text ∧ other = kind := by
  have fits := (longest_count kind (text ++ rest)).matches_take prevails.positive
  rw [← length, List.take_left] at fits
  refine ⟨fits, fun other start within otherFits => ?_⟩
  have bound := (longest_count other (text ++ rest)).length_le start within otherFits
  by_cases same : other = kind
  · subst same
    rw [← length] at bound
    rcases Nat.lt_or_eq_of_le bound with shorter | equal
    · exact .inl shorter
    · refine .inr ⟨?_, rfl⟩
      rw [List.prefix_iff_eq_take.mp within, equal, List.take_left]
  · rw [length]
    exact .inl (bound.trans_lt (prevails.others other same))

/-- Where no kind takes anything, no pattern matches. -/
theorem not_matches_of_count (none : kind.count chars = 0) {start : List Char}
    (within : start <+: chars) : ¬ kind.Matches start := by
  intro fits
  have bound := (longest_count kind chars).length_le start within fits
  rw [none] at bound
  rw [List.length_eq_zero_iff.mp (Nat.le_zero.mp bound)] at fits
  exact not_matches_nil fits

end TokenKind

namespace Token

open TokenKind

/-- Where no token has a letter, a digit or an exclamation mark, there is a sign or none at all. -/
theorem sign_cases {chars : List Char} (starts : ∀ char ∈ chars.head?, char.isWhitespace = false)
    (noDice : diceCount chars = 0) (noInteger : digitCount chars = 0) (noFate : fateCount chars = 0)
    (noFlag : flagCount chars = 0) :
    (∃ kind, kind ≠ .stray ∧ kind.Prevails chars ∧
        (chars.head?.elim .stray signKind, 1) = (kind, kind.count chars)) ∨
      ((∀ kind : TokenKind, kind.count chars = 0) ∧
        (chars.head?.elim .stray signKind, 1) = (TokenKind.stray, 1)) := by
  cases chars with
  | nil => exact .inr ⟨count_nil, rfl⟩
  | cons char rest =>
    rw [List.head?_cons, Option.elim_some]
    by_cases sign : signKind char = .stray
    · refine .inr ⟨fun kind => ?_, by rw [sign]⟩
      cases kind with
      | integer => exact noInteger
      | dice => exact noDice
      | fate => exact noFate
      | flag => exact noFlag
      | stray =>
        have noBlank : ¬ char.isWhitespace = true := by
          rw [starts char rfl]
          decide
        rw [count, List.takeWhile_cons_of_neg noBlank, List.length_nil]
      | leftParen | rightParen | plus | minus | star | slash =>
        refine if_neg fun same => ?_
        rw [List.head?_cons, Option.map_some, sign] at same
        cases same
    · have one : (signKind char).count (char :: rest) = 1 := by
        rcases signKind_cases sign with rfl | rfl | rfl | rfl | rfl | rfl <;> rfl
      have prevails := prevails_of_count (one ▸ Nat.one_pos) fun _ => noDice
      exact .inl ⟨signKind char, sign, prevails, by rw [one]⟩

/-- A scan takes the token of the kind that prevails, unless it cuts the text short or finds no
token at all. -/
theorem lexeme_cases {chars : List Char}
    (starts : ∀ char ∈ chars.head?, char.isWhitespace = false) :
    (cutShort chars = true ∧ lexeme chars = (.integer, digitCount chars + 2)) ∨
      (∃ kind, kind ≠ .stray ∧ kind.Prevails chars ∧ lexeme chars = (kind, kind.count chars)) ∨
      ((∀ kind : TokenKind, kind.count chars = 0) ∧ lexeme chars = (.stray, 1)) := by
  unfold lexeme
  by_cases cut : cutShort chars = true
  · exact .inl ⟨cut, if_pos cut⟩
  rw [if_neg cut]
  refine .inr ?_
  by_cases dice : 0 < diceCount chars
  · rw [if_pos dice]
    exact .inl ⟨.dice, by decide, prevails_of_count dice nofun, rfl⟩
  rw [if_neg dice]
  have noDice := Nat.eq_zero_of_not_pos dice
  by_cases integer : 0 < digitCount chars
  · rw [if_pos integer]
    exact .inl ⟨.integer, by decide, prevails_of_count integer fun _ => noDice, rfl⟩
  rw [if_neg integer]
  by_cases fate : 0 < fateCount chars
  · rw [if_pos fate]
    exact .inl ⟨.fate, by decide, prevails_of_count fate nofun, rfl⟩
  rw [if_neg fate]
  by_cases flag : 0 < flagCount chars
  · rw [if_pos flag]
    exact .inl ⟨.flag, by decide, prevails_of_count flag nofun, rfl⟩
  rw [if_neg flag]
  exact sign_cases starts noDice (Nat.eq_zero_of_not_pos integer) (Nat.eq_zero_of_not_pos fate)
    (Nat.eq_zero_of_not_pos flag)

/-- Fate sides of one character are an `f` that does not begin the word. -/
theorem exists_of_fateCount_eq_one {chars : List Char} (one : fateCount chars = 1) :
    ∃ letter rest, chars = letter :: rest ∧ letter.toLower = 'f' ∧
      (rest.take 3).map Char.toLower ≠ ['a', 't', 'e'] := by
  unfold fateCount at one
  split at one
  · cases one
  next noWord =>
    split at one
    next abbreviated =>
      cases chars with
      | nil => cases abbreviated
      | cons letter rest =>
        have lower : letter.toLower = 'f' := (List.cons.inj abbreviated).1
        refine ⟨letter, rest, rfl, lower, fun ending => noWord ?_⟩
        rw [List.take_succ_cons, List.map_cons, lower, ending]
    · cases one

/-- What a text that is cut short begins with. -/
theorem exists_of_cutShort {chars : List Char} (cut : cutShort chars = true) :
    ∃ digits delimiter letter rest, chars = digits ++ [delimiter, letter] ++ rest ∧
      digits.length = digitCount chars ∧ TokenKind.integer.Matches digits ∧
      delimiter.toLower = 'd' ∧ letter.toLower = 'f' ∧
      rest.head?.map Char.toLower = some 'a' ∧
      (rest.take 3).map Char.toLower ≠ ['a', 't', 'e'] := by
  unfold cutShort at cut
  split at cut
  · cases cut
  next delimiter after behind =>
    simp only [Bool.and_eq_true, decide_eq_true_eq] at cut
    obtain ⟨⟨⟨some, divides⟩, one⟩, goesOn⟩ := cut
    obtain ⟨letter, rest, rfl, lower, unfinished⟩ := exists_of_fateCount_eq_one one
    have whole := List.take_append_drop (digitCount chars) chars
    rw [behind] at whole
    refine ⟨chars.take (digitCount chars), delimiter, letter, rest, ?_, ?_, ?_,
      Dice.isDelimiter_iff_toLower.mp divides, lower, goesOn, unfinished⟩
    · rw [List.append_assoc]
      exact whole.symm
    · exact List.length_take_of_le (digitCount_le chars)
    · exact longest_integer.matches_take (Nat.pos_of_ne_zero some)

/-- Why a token is read as it is where `rest` follows. -/
inductive Justified (token : Token) (rest : List Char) : Prop where
  /-- The token matches the pattern of its kind, and every other match at its place is shorter. -/
  | longest (named : token.kind ≠ .stray) (fits : token.kind.Matches token.text)
      (longest : ∀ kind start, start <+: token.text ++ rest → TokenKind.Matches kind start →
        start.length < token.text.length ∨ start = token.text ∧ kind = token.kind)
  /-- After digits and a delimiter comes an `f` with an `a` that does not go on to `fate`. -/
  | cutShort {digits : List Char} {delimiter letter : Char} (kind_eq : token.kind = .integer)
      (text_eq : token.text = digits ++ [delimiter, letter])
      (number : TokenKind.integer.Matches digits) (divides : delimiter.toLower = 'd')
      (abbreviates : letter.toLower = 'f') (goesOn : rest.head?.map Char.toLower = some 'a')
      (unfinished : (rest.take 3).map Char.toLower ≠ ['a', 't', 'e'])
  /-- No pattern matches at this character. -/
  | stray {char : Char} (kind_eq : token.kind = .stray) (text_eq : token.text = [char])
      (unmatched : ∀ kind start, start <+: char :: rest → ¬ TokenKind.Matches kind start)

theorem Leads.justified {token : Token} {rest : List Char} (leads : token.Leads rest) :
    token.Justified rest := by
  obtain ⟨head, first, notBlank⟩ := leads.starts
  have starts : ∀ char ∈ (token.text ++ rest).head?, char.isWhitespace = false := by
    intro char same
    rw [List.head?_append, first] at same
    cases same
    exact notBlank
  have read := leads.lexeme_eq
  rcases lexeme_cases starts with ⟨cut, found⟩ | ⟨kind, named, prevails, found⟩ | ⟨none, found⟩
  · obtain ⟨kind, length⟩ := Prod.mk.inj (read.symm.trans found)
    obtain ⟨digits, delimiter, letter, after, whole, size, number, divides, abbreviates, goesOn,
      unfinished⟩ := exists_of_cutShort cut
    have sameLength : token.text.length = (digits ++ [delimiter, letter]).length := by
      rw [length, List.length_append, size]
      rfl
    obtain ⟨text, rfl⟩ := List.append_inj whole sameLength
    exact .cutShort kind text number divides abbreviates goesOn unfinished
  · obtain ⟨rfl, length⟩ := Prod.mk.inj (read.symm.trans found)
    obtain ⟨fits, longest⟩ := prevails.longest length
    exact .longest named fits longest
  · obtain ⟨kind, length⟩ := Prod.mk.inj (read.symm.trans found)
    obtain ⟨char, text⟩ := List.length_eq_one_iff.mp length
    rw [text] at none
    exact .stray kind text fun other _ within => not_matches_of_count (none other) within

/-! ## Blanks and places -/

theorem isAlphanum_of_integer {text : List Char} (fits : TokenKind.integer.Matches text) :
    ∀ char ∈ text, char.isAlphanum = true :=
  fun char member => Text.isAlphanum_of_isDigit ((matches_integer.mp fits).2 char member)

theorem isAlphanum_of_fate {text : List Char} (fits : TokenKind.fate.Matches text) :
    ∀ char ∈ text, char.isAlphanum = true := by
  intro char member
  refine Text.isAlphanum_of_isAlpha ?_
  rcases matches_fate.mp fits with lowered | lowered <;>
    exact Text.isAlpha_of_lowered lowered rfl char member

theorem isAlphanum_of_dice {text : List Char} (fits : TokenKind.dice.Matches text) :
    ∀ char ∈ text, char.isAlphanum = true := by
  obtain ⟨before, delimiter, after, rfl, number, divides, sides⟩ := matches_dice.mp fits
  refine List.forall_mem_append.mpr ⟨?_, List.forall_mem_cons.mpr ⟨?_, ?_⟩⟩
  · exact fun char member => Text.isAlphanum_of_isDigit (number char member)
  · exact Text.isAlphanum_of_isAlpha (Dice.isAlpha_of_isDelimiter divides)
  · exact sides.elim isAlphanum_of_integer isAlphanum_of_fate

/-- No token but a stray one can have a blank in it. -/
theorem not_blank_of_matches {kind : TokenKind} {text : List Char} (named : kind ≠ .stray)
    (fits : kind.Matches text) : ∀ char ∈ text, char.isWhitespace = false := by
  cases kind with
  | integer => exact fun char => not_blank_of_isAlphanum ∘ isAlphanum_of_integer fits char
  | fate => exact fun char => not_blank_of_isAlphanum ∘ isAlphanum_of_fate fits char
  | dice => exact fun char => not_blank_of_isAlphanum ∘ isAlphanum_of_dice fits char
  | flag =>
    obtain ⟨letters, rfl, _, inside⟩ := matches_flag.mp fits
    refine List.forall_mem_cons.mpr ⟨rfl, fun char member => ?_⟩
    exact not_blank_of_isAlphanum (Text.isAlphanum_of_isAlpha (inside char member))
  | stray => exact absurd rfl named
  | leftParen | rightParen | plus | minus | star | slash =>
    cases fits
    exact List.forall_mem_singleton.mpr rfl

theorem Justified.not_blank {token : Token} {rest : List Char} (justified : token.Justified rest) :
    ∀ char ∈ token.text, char.isWhitespace = false := by
  cases justified with
  | longest named fits _ => exact not_blank_of_matches named fits
  | @cutShort digits delimiter letter _ text number divides abbreviates _ _ =>
    have letters : ∀ char ∈ [delimiter, letter], char.isAlphanum = true := by
      intro char member
      refine Text.isAlphanum_of_isAlpha ?_
      rcases List.mem_pair.mp member with rfl | rfl
      · exact Text.isAlpha_of_toLower_eq divides (by decide)
      · exact Text.isAlpha_of_toLower_eq abbreviates (by decide)
    intro char member
    rw [text] at member
    apply not_blank_of_isAlphanum
    exact List.forall_mem_append.mpr ⟨isAlphanum_of_integer number, letters⟩ char member
  | @stray char _ text unmatched =>
    rw [text]
    refine List.forall_mem_singleton.mpr ?_
    by_contra blank
    refine unmatched .stray [char] (List.prefix_append [char] rest) (matches_stray.mpr ?_)
    exact ⟨List.cons_ne_nil _ _, List.forall_mem_singleton.mpr (by simpa using blank)⟩

/-- Places come one after the other. -/
theorem pairwise_spans {start : Nat} {tokens : List Token} :
    (spans start tokens).Pairwise (fun earlier later => earlier.stop ≤ later.start) ∧
      ∀ span ∈ spans start tokens, start ≤ span.start := by
  induction tokens generalizing start with
  | nil => exact ⟨.nil, nofun⟩
  | cons token tokens ih =>
    obtain ⟨ordered, later⟩ := @ih (start + byteLength token.gap + byteLength token.text)
    refine ⟨List.pairwise_cons.mpr ⟨later, ordered⟩, List.forall_mem_cons.mpr ⟨?_, ?_⟩⟩
    · exact Nat.le_add_right _ _
    · intro span member
      have after := later span member
      omega

/-- A character of two texts together stands in the first or in the second. -/
theorem cases_of_append_eq {left right before after : List Char} {char : Char}
    (whole : left ++ right = before ++ char :: after) :
    (∃ more, left = before ++ char :: more) ∨
      ∃ more, before = left ++ more ∧ right = more ++ char :: after := by
  rcases List.append_eq_append_iff.mp whole with inSecond | ⟨more, first, second⟩
  · exact .inr inSecond
  · cases more with
    | nil => exact .inr ⟨[], by rw [first, List.append_nil, List.append_nil], second.symm⟩
    | cons other more =>
      cases second
      exact .inl ⟨more, first⟩

/-- A byte of a text is in a token exactly if its character is not blank. -/
theorem Scanned.mem_span_iff {tokens : List Token} {rest before after : List Char} {char : Char}
    {start byte : Nat} (scanned : Scanned tokens rest)
    (blanks : ∀ char ∈ rest, char.isWhitespace = true)
    (whole : chars tokens ++ rest = before ++ char :: after)
    (first : start + byteLength before ≤ byte)
    (last : byte < start + byteLength before + char.utf8Size) :
    (∃ span ∈ spans start tokens, span.start ≤ byte ∧ byte < span.stop) ↔
      char.isWhitespace = false := by
  induction scanned generalizing start before with
  | @nil rest =>
    have member : char ∈ rest := by
      rw [show rest = before ++ char :: after from whole]
      exact List.mem_append_right _ List.mem_cons_self
    rw [blanks char member]
    exact iff_of_false nofun nofun
  | @cons token tokens rest leads more ih =>
    have beyond :=
      (@pairwise_spans (start + byteLength token.gap + byteLength token.text) tokens).2
    rw [chars_cons, List.append_assoc, List.append_assoc] at whole
    rw [spans, List.exists_mem_cons_iff]
    rcases cases_of_append_eq whole with ⟨gapRest, gap⟩ | ⟨inner, rfl, inside⟩
    · -- in the gap before the token
      have blank := leads.blanks char (gap ▸ List.mem_append_right _ List.mem_cons_self)
      have size := congrArg byteLength gap
      rw [byteLength_append, byteLength] at size
      rw [blank]
      refine iff_of_false ?_ nofun
      rintro (⟨left, _⟩ | ⟨span, member, left, _⟩)
      · dsimp only at left
        omega
      · have := beyond span member
        omega
    rw [byteLength_append] at first last
    rcases cases_of_append_eq inside with ⟨textRest, text⟩ | ⟨further, rfl, behind⟩
    · -- in the token
      have inText : char ∈ token.text := text ▸ List.mem_append_right _ List.mem_cons_self
      have visible := leads.justified.not_blank char inText
      have size := congrArg byteLength text
      rw [byteLength_append, byteLength] at size
      refine iff_of_true (.inl ⟨?_, ?_⟩) visible <;> dsimp only <;> omega
    · -- behind the token
      rw [byteLength_append] at first last
      rw [← @ih further (start + byteLength token.gap + byteLength token.text) blanks behind
        (by omega) (by omega)]
      refine or_iff_right fun within => ?_
      have right := within.2
      dsimp only at right
      omega

/-- Each token stands at its place, behind the tokens before it. -/
theorem Scanned.placed {tokens : List Token} {rest before : List Char}
    (scanned : Scanned tokens rest) :
    List.Forall₂ (fun token span => span.start < span.stop ∧ ∃ left behind,
      before ++ (chars tokens ++ rest) = left ++ token.text ++ behind ∧
        span = ⟨byteLength left, byteLength (left ++ token.text)⟩ ∧ token.Justified behind)
      tokens (spans (byteLength before) tokens) := by
  induction scanned generalizing before with
  | nil => exact .nil
  | @cons token tokens rest leads more ih =>
    have size := byteLength_pos leads.text_ne_nil
    have whole : before ++ (chars (token :: tokens) ++ rest) =
        before ++ token.gap ++ token.text ++ (chars tokens ++ rest) := by
      simp only [chars_cons, List.append_assoc]
    have later := @ih (before ++ token.gap ++ token.text)
    rw [← whole, byteLength_append, byteLength_append] at later
    refine .cons ⟨?_, before ++ token.gap, chars tokens ++ rest, whole, ?_, leads.justified⟩ later
    · dsimp only
      omega
    · simp only [byteLength_append]

/-- The places of the tokens are in order and do not overlap. A byte lies in one of them exactly if
its character is not blank. Each place begins and ends between characters, holds the text of its
token, and this is the token that what stands there makes it. -/
theorem scan_covers (text : String) :
    (spans 0 (scan text.toList)).Pairwise (fun earlier later => earlier.stop ≤ later.start) ∧
      (∀ before char after, text.toList = before ++ char :: after →
        ∀ byte, byteLength before ≤ byte → byte < byteLength before + char.utf8Size →
          ((∃ span ∈ spans 0 (scan text.toList), span.start ≤ byte ∧ byte < span.stop) ↔
            char ∉ [' ', '\t', '\r', '\n'])) ∧
      List.Forall₂ (fun token span => span.start < span.stop ∧ ∃ before behind,
        text = before ++ String.ofList token.text ++ behind ∧
          span = .after before (String.ofList token.text) ∧ token.Justified behind.toList)
        (scan text.toList) (spans 0 (scan text.toList)) := by
  obtain ⟨rest, whole, scanned, blanks⟩ := exists_scanned text.toList
  refine ⟨pairwise_spans.1, fun before char after split byte first last => ?_, ?_⟩
  · rw [scanned.mem_span_iff blanks (whole.symm.trans split) (by omega) (by omega),
      ← Bool.not_eq_true, ← Pattern.mem_blanks]
    rfl
  · refine List.Forall₂.imp (fun token span placed => ?_) (@Scanned.placed _ _ [] scanned)
    obtain ⟨size, left, behind, split, same, justified⟩ := placed
    refine ⟨size, .ofList left, .ofList behind, ?_, ?_, ?_⟩
    · rw [← String.ofList_append, ← String.ofList_append, ← split, List.nil_append, ← whole,
        String.ofList_toList]
    · simp only [same, Span.after, ← String.ofList_append, utf8ByteSize_ofList]
    · rw [String.toList_ofList]
      exact justified

end Token

end Tabletop
