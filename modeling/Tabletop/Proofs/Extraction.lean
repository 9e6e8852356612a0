import Tabletop.Proofs.Pieces
import Tabletop.Proofs.RoundTrip
import Tabletop.Proofs.Search
import Tabletop.Proofs.Signed
import Tabletop.Proofs.Terms

/-!
# Extracting dice from a text

A dice term whose sides are digits or a capital `F` is found by the search where it stands. In a
text that is accepted, the search passes over all that comes before the first dice term, and takes
that term if it is written so. What is extracted from any text is found again in its normal
spelling, unless it has fate sides: these are spelled with a small letter.
-/

namespace Tabletop

open Token (Piece Parted isSignKind scan chars)

/-- The characters spell the sides of a die with digits or as a capital `F`. -/
inductive Sides.Plain : List Char → Sides → Prop where
  | numbered {chars : List Char} {count : Tally} (numeral : Numeral.Denotes chars count.val) :
      Plain chars (.numbered count)
  | letter : Plain ['F'] (.fate true)

namespace Dice

/-- The characters spell a dice term whose sides are digits or a capital `F`. -/
inductive Plain : List Char → Dice → Prop where
  | intro {before after : List Char} {delimiter : Char} {rolls : Tally} {sides : Sides}
      (number : RollsSpelled before rolls) (divides : delimiter = 'd' ∨ delimiter = 'D')
      (faces : Sides.Plain after sides) : Plain (before ++ delimiter :: after) ⟨rolls, sides⟩

end Dice

/-! ## Plain sides -/

theorem Text.isDigit_eq_of_ascii {char : Char} (ascii : char.toNat < 128) :
    Text.isDigit char = char.isDigit := by
  have all : ∀ code < 128, Text.isDigit (.ofNat code) = (Char.ofNat code).isDigit := by
    decide +kernel
  have here := all char.toNat ascii
  rwa [Char.ofNat_toNat] at here

theorem Numeral.Denotes.isDigit {chars : List Char} {n : Nat} (numeral : Denotes chars n) :
    ∀ char ∈ chars, Text.isDigit char = true :=
  fun char member => Text.isDigit_of_ascii (numeral.digits char member)

theorem Dice.isSide_of_isDigit {char : Char} (digit : char.isDigit = true) :
    isSide char = true := by
  rw [isSide, Text.isDigit_of_ascii digit, Bool.true_or]

/-- Of the letters, the search takes a capital `F` alone. -/
theorem Dice.isSide_iff_of_isAlpha {char : Char} (letter : char.isAlpha = true) :
    isSide char = true ↔ char = 'F' := by
  have range := Text.toNat_of_isAlphanum (Text.isAlphanum_of_isAlpha letter)
  rw [isSide, Text.isDigit_eq_of_ascii (by omega), Text.isDigit_eq_false_of_isAlpha letter,
    Bool.false_or, decide_eq_true_eq]

namespace Sides

theorem Plain.spelled {chars : List Char} {sides : Sides} (plain : Plain chars sides) :
    Spelled chars sides := by
  cases plain with
  | numbered numeral => exact .numbered numeral
  | letter => exact .letter rfl

/-- Sides are plain exactly if the search takes them as a whole. -/
theorem Spelled.plain_iff {chars : List Char} {sides : Sides} (spelled : Spelled chars sides) :
    Plain chars sides ↔ ∀ char ∈ chars, Dice.isSide char = true := by
  constructor
  · intro plain char member
    cases plain with
    | numbered numeral => exact Dice.isSide_of_isDigit (numeral.digits char member)
    | letter =>
      cases List.mem_singleton.mp member
      rfl
  · intro inside
    cases spelled with
    | numbered numeral => exact .numbered numeral
    | letter lowered =>
      obtain ⟨char, rfl, lower⟩ := List.map_eq_singleton_iff.mp lowered
      have letter := Text.isAlpha_of_toLower_eq lower (by decide)
      cases (Dice.isSide_iff_of_isAlpha letter).mp (inside char (List.mem_singleton_self char))
      exact .letter
    | word lowered =>
      obtain ⟨first, rest, rfl, _, lowered⟩ := List.map_eq_cons_iff.mp lowered
      obtain ⟨second, rest, rfl, lower, _⟩ := List.map_eq_cons_iff.mp lowered
      have letter := Text.isAlpha_of_toLower_eq lower (by decide)
      have member : second ∈ first :: second :: rest := List.mem_cons_of_mem _ List.mem_cons_self
      cases (Dice.isSide_iff_of_isAlpha letter).mp (inside second member)
      exact absurd lower (by decide)

end Sides

namespace Dice

variable {chars : List Char} {dice : Dice}

theorem RollsSpelled.isDigit {rolls : Tally} (number : RollsSpelled chars rolls) :
    ∀ char ∈ chars, Text.isDigit char = true :=
  fun char member => Text.isDigit_of_ascii (number.digits char member)

/-- The plain dice terms are those that match the pattern of the search. -/
theorem plain_iff : Plain chars dice ↔ Spelled chars dice ∧ Matches chars := by
  constructor
  · rintro (@⟨before, after, delimiter, _, _, number, divides, faces⟩)
    refine ⟨.intro number divides faces.spelled, ?_⟩
    rw [matches_divided_iff number.isDigit (isDelimiter_iff.mpr divides)]
    exact ⟨faces.spelled.ne_nil, faces.spelled.plain_iff.mp faces⟩
  · rintro ⟨@⟨before, after, delimiter, _, _, number, divides, faces⟩, fits⟩
    rw [matches_divided_iff number.isDigit (isDelimiter_iff.mpr divides)] at fits
    exact .intro number divides (faces.plain_iff.mpr fits.2)

/-! ## What is extracted -/

theorem search_eq_ok_iff {text slice : String} :
    search text = .ok slice ↔ find? text.toList = some slice.toList := by
  unfold search
  cases find? text.toList with
  | none => exact iff_of_false nofun nofun
  | some found =>
    rw [Except.ok.injEq, Option.some_inj, ← String.toList_inj, String.toList_ofList]

theorem extract_eq_ok_iff {text : String} :
    extract text = .ok dice ↔ ∃ slice, search text = .ok slice ∧ read slice = .ok dice := by
  unfold extract
  cases search text with
  | error error => exact iff_of_false nofun fun ⟨_, searched, _⟩ => nomatch searched
  | ok slice =>
    constructor
    · intro done
      refine ⟨slice, rfl, ?_⟩
      cases found : read slice with
      | ok other =>
        simp only [bind, Except.bind, found] at done
        cases done
        rfl
      | error error =>
        simp only [bind, Except.bind, found] at done
        cases done
    · rintro ⟨_, same, found⟩
      cases same
      simp only [bind, Except.bind, found]
      rfl

/-- A text is extracted from exactly if a plain dice term is found in it. -/
theorem extract_eq_ok_iff_plain {text : String} :
    extract text = .ok dice ↔ ∃ found, find? text.toList = some found ∧ Plain found dice := by
  rw [extract_eq_ok_iff]
  constructor
  · rintro ⟨slice, searched, done⟩
    have found := search_eq_ok_iff.mp searched
    obtain ⟨_, _, _, here⟩ := find?_eq_some_iff.mp found
    have unsigned : Unsigned slice.toList := by
      obtain ⟨before, delimiter, sides, whole, number, divides, _⟩ := matches_iff.mp here.fits
      intro plus
      rw [whole] at plus
      cases before with
      | nil =>
        cases plus
        exact absurd divides (by decide)
      | cons head digits =>
        cases plus
        exact absurd (number '+' List.mem_cons_self) (by decide)
    exact ⟨_, found, plain_iff.mpr ⟨(ofChars_eq_ok_iff unsigned).mp done, here.fits⟩⟩
  · rintro ⟨found, isFound, plain⟩
    refine ⟨.ofList found, search_eq_ok_iff.mpr (by rwa [String.toList_ofList]), ?_⟩
    have spelled := (plain_iff.mp plain).1
    rw [read, String.toList_ofList]
    exact (ofChars_eq_ok_iff spelled.unsigned).mpr spelled

/-- A text that matches is found as a whole. -/
theorem find?_of_matches (fits : Matches chars) : find? chars = some chars := by
  have begins : leading? (chars ++ []) = some chars := by
    rw [List.append_nil]
    exact matches_iff_leading?.mp fits
  exact find?_eq_some_iff.mpr ⟨[], [], by simp, found_iff.mpr ⟨.nil, begins⟩⟩

end Dice

/-! ## Around the first dice term -/

/-- ASCII text that does not go on with a letter or a digit does not go on with a side. -/
theorem Ends.not_side {rest : List Char} (ends : Ends rest)
    (ascii : ∀ char ∈ rest, char.toNat < 128) : ∀ char ∈ rest.head?, Dice.isSide char = false := by
  intro char first
  have noLetter : char ≠ 'F' := by
    rintro rfl
    exact absurd (ends 'F' first) (by decide)
  rw [Dice.isSide, Text.isDigit_eq_of_ascii (ascii char (List.mem_of_mem_head? first)),
    ends.not_digit char first, Bool.false_or, decide_eq_false noLetter]

/-- ASCII text that does not go on with a letter or a digit begins with no match. -/
theorem Ends.leading?_eq_none {rest : List Char} (ends : Ends rest)
    (ascii : ∀ char ∈ rest, char.toNat < 128) : Dice.leading? rest = none := by
  cases rest with
  | nil => rfl
  | cons char rest =>
    refine Dice.leading?_eq_none ?_ (.inl (ends.not_delimiter char rfl))
    rw [Text.isDigit_eq_of_ascii (ascii char List.mem_cons_self)]
    exact ends.not_digit char rfl

/-- No word of a flag has an `f` in it, nor a digit. -/
theorem FlagWord.Spelled.not_side {chars : List Char} {word : FlagWord}
    (spelled : Spelled chars word) : ∀ char ∈ chars, Dice.isSide char = false := by
  intro char member
  by_contra side
  rw [Bool.not_eq_false] at side
  obtain ⟨letters, mark, alphabetic, _⟩ := spelled.letters
  have lowered : char.toLower ∈ word.literal.toList := by
    rw [← spelled]
    exact List.mem_map_of_mem member
  rw [mark] at member
  rcases List.mem_cons.mp member with rfl | isLetter
  · exact absurd side (by decide)
  · cases (Dice.isSide_iff_of_isAlpha (alphabetic char isLetter)).mp side
    cases word <;> exact absurd lowered (by decide)

/-- Blanks are passed over. -/
theorem Dice.Passed.of_blanks {gap rest : List Char}
    (blanks : ∀ char ∈ gap, char.isWhitespace = true) : Passed rest gap := by
  refine .of_not_side (fun char member => ?_) (.inl fun char member => ?_)
  · rcases Token.blank_cases (blanks char member) with rfl | rfl | rfl | rfl <;> decide
  · rcases Token.blank_cases (blanks char member) with rfl | rfl | rfl | rfl <;> rfl

namespace Token

variable {token : Token} {term : Dice}

theorem dice?_eq_some_iff (unsigned : token.Unsigned) :
    token.dice? = some term ↔ token.IsDice term := by
  refine ⟨fun found => ?_, fun isDice => isDice.dice?_eq unsigned⟩
  unfold dice? at found
  split at found
  next isKind =>
    rw [← readDice_eq_ok_iff isKind unsigned]
    cases done : token.readDice with
    | ok other =>
      rw [done] at found
      cases found
      rfl
    | error fault =>
      rw [done] at found
      cases found
  · cases found

namespace Piece

/-- A piece that is no dice term is no dice token. -/
theorem kind_ne_dice (piece : token.Piece) (unsigned : token.Unsigned)
    (none : token.dice? = none) : token.kind ≠ .dice := by
  intro isKind
  cases piece with
  | integer isInteger =>
    rw [isInteger.kind_eq] at isKind
    cases isKind
  | dice isDice =>
    rw [isDice.dice?_eq unsigned] at none
    cases none
  | word isWord =>
    rw [isWord.kind_eq] at isKind
    cases isKind
  | sign isSign =>
    rw [isKind] at isSign
    cases isSign

/-- The search passes over a piece that is no dice term, whatever stands behind a sign. -/
theorem passed {rest more : List Char} (piece : token.Piece) (leads : token.Leads rest)
    (noDice : token.kind ≠ .dice) (ends : ¬ isSignKind token.kind = true → Ends more)
    (ascii : ∀ char ∈ more, char.toNat < 128) : Dice.Passed more (token.gap ++ token.text) := by
  refine .append (.of_blanks leads.blanks) ?_
  cases piece with
  | integer isInteger =>
    have follows : Ends more := ends (by rw [isInteger.kind_eq]; decide)
    obtain ⟨_, numeral, _⟩ := isInteger.numeral
    exact .of_digits numeral.isDigit (follows.leading?_eq_none ascii)
  | dice isDice => exact absurd isDice.kind_eq noDice
  | word isWord =>
    have follows : Ends more := ends (by rw [isWord.kind_eq]; decide)
    exact .of_not_side isWord.spelled.not_side (.inr (follows.not_side ascii))
  | sign isSign =>
    obtain ⟨char, text, _, sign⟩ := leads.exists_sign isSign
    rw [text]
    refine .of_not_side (List.forall_mem_singleton.mpr ?_)
      (.inl (List.forall_mem_singleton.mpr ?_)) <;>
      rcases signKind_cases sign with rfl | rfl | rfl | rfl | rfl | rfl <;> decide

end Piece

variable {before after tokens : List Token} {rest : List Char}

/-- Pieces with blanks at the end are ASCII text. -/
theorem ascii_chars (pieces : ∀ token ∈ tokens, token.Piece)
    (found : ∀ token ∈ tokens, ∃ rest, token.Leads rest)
    (blanks : ∀ char ∈ rest, char.isWhitespace = true) :
    ∀ char ∈ chars tokens ++ rest, char.toNat < 128 := by
  have blank (char : Char) (isBlank : char.isWhitespace = true) : char.toNat < 128 := by
    rcases blank_cases isBlank with rfl | rfl | rfl | rfl <;> decide
  refine List.forall_mem_append.mpr ⟨fun char inside => ?_, fun char member =>
    blank char (blanks char member)⟩
  obtain ⟨token, member, inner⟩ := List.mem_flatMap.mp inside
  obtain ⟨_, leads⟩ := found token member
  rcases List.mem_append.mp inner with gap | text
  · exact blank char (leads.blanks char gap)
  · exact (pieces token member).ascii leads char text

/-- The search passes over parted pieces as long as they are no dice terms. -/
theorem passed_chars (pieces : ∀ token ∈ before ++ after, token.Piece)
    (parted : (before ++ after).IsChain Parted)
    (found : ∀ token ∈ before ++ after, ∃ rest, token.Leads rest)
    (noDice : ∀ token ∈ before, token.kind ≠ .dice)
    (blanks : ∀ char ∈ rest, char.isWhitespace = true) :
    Dice.Passed (chars after ++ rest) (chars before) := by
  induction before with
  | nil => exact .nil
  | cons token before ih =>
    obtain ⟨piece, otherPieces⟩ := List.forall_mem_cons.mp pieces
    obtain ⟨⟨_, leads⟩, othersFound⟩ := List.forall_mem_cons.mp found
    obtain ⟨other, others⟩ := List.forall_mem_cons.mp noDice
    have more := ih otherPieces (List.isChain_cons.mp parted).2 othersFound others
    have ends (noSign : ¬ isSignKind token.kind = true) :
        Ends (chars (before ++ after) ++ rest) :=
      ends_chars noSign parted othersFound (ends_of_blank blanks)
    have here := piece.passed leads other ends (ascii_chars otherPieces othersFound blanks)
    rw [chars_append, List.append_assoc] at here
    rw [chars_cons]
    exact here.append more

/-- Behind pieces that are no dice terms, a plain dice term is the leftmost match. -/
theorem found_of_plain (pieces : ∀ other ∈ before ++ token :: after, other.Piece)
    (parted : (before ++ token :: after).IsChain Parted)
    (found : ∀ other ∈ before ++ token :: after, ∃ rest, other.Leads rest)
    (noDice : ∀ other ∈ before, other.kind ≠ .dice)
    (blanks : ∀ char ∈ rest, char.isWhitespace = true) (isDice : token.kind = .dice)
    (plain : Dice.Plain token.text term) :
    Dice.Found (chars before ++ token.gap) token.text (chars after ++ rest) := by
  obtain ⟨_, _, laterPieces⟩ :=
    List.forall_mem_append.mp pieces |>.imp_right List.forall_mem_cons.mp
  obtain ⟨_, ⟨_, leads⟩, laterFound⟩ :=
    List.forall_mem_append.mp found |>.imp_right List.forall_mem_cons.mp
  have front := passed_chars pieces parted found noDice blanks
  rw [chars_cons, List.append_assoc, List.append_assoc] at front
  have ends : Ends (chars after ++ rest) :=
    ends_chars (by rw [isDice]; decide) (List.isChain_append.mp parted).2.1 laterFound
      (ends_of_blank blanks)
  have stop := ends.not_side (ascii_chars laterPieces laterFound blanks)
  have fits := (Dice.plain_iff.mp plain).2
  exact Dice.found_iff.mpr ⟨front.append (.of_blanks leads.blanks),
    Dice.leading?_eq_some_iff.mpr ⟨fits, _, rfl, stop⟩⟩

end Token

/-- In an accepted text the search passes over all that stands before the first dice term. If that
is plain, it is what the search finds there and what is extracted. -/
theorem Expression.extract_of_parse {text : String} {expression : Expression} {term : Dice}
    {later : List Dice} (parsed : parse text = .ok expression)
    (first : expression.root.terms = term :: later) :
    ∃ before token after ending, scan text.toList = before ++ token :: after ∧
      (∀ other ∈ before, other.kind ≠ .dice) ∧ token.IsDice term ∧
      text.toList = chars before ++ token.gap ++ (token.text ++ ending) ∧
      (Dice.Plain token.text term →
        Dice.Found (chars before ++ token.gap) token.text ending ∧
        Dice.search text = .ok (.ofList token.text) ∧ Dice.extract text = .ok term) := by
  have derives := (parse_eq_ok_iff.mp parsed).1
  have parted := derives.parted fun _ => Token.leads_of_mem_scan
  have pieces := derives.pieces
  have unsigned := @Token.unsigned_of_mem_scan text.toList
  obtain ⟨ending, whole, scanned, blanks⟩ := Token.exists_scanned text.toList
  have found := scanned.leads
  rw [terms_of_parse parsed] at first
  obtain ⟨before, token, after, split, none, some, _⟩ := List.filterMap_eq_cons_iff.mp first
  rw [split] at pieces parted unsigned whole found
  have isDice := (Token.dice?_eq_some_iff (unsigned token (by simp))).mp some
  have noDice : ∀ other ∈ before, other.kind ≠ .dice := fun other member =>
    (pieces other (by simp [member])).kind_ne_dice (unsigned other (by simp [member]))
      (none other member)
  have parts : text.toList =
      chars before ++ token.gap ++ (token.text ++ (chars after ++ ending)) := by
    rw [whole, Token.chars_append, Token.chars_cons]
    simp only [List.append_assoc]
  refine ⟨before, token, after, _, split, noDice, isDice, parts, fun plain => ?_⟩
  have here := Token.found_of_plain pieces parted found noDice blanks isDice.kind_eq plain
  have isFound := Dice.find?_eq_some_iff.mpr ⟨_, _, parts, here⟩
  refine ⟨here, Dice.search_eq_ok_iff.mpr ?_, Dice.extract_eq_ok_iff_plain.mpr ⟨_, isFound, plain⟩⟩
  rwa [String.toList_ofList]

/-- Neither a number nor the words of flags hide the four fate dice that stand between them. -/
theorem Expression.extract_of_parse_between :
    let fate : Dice := ⟨⟨4, by decide, by decide⟩, .fate true⟩
    let other : Dice := ⟨⟨2, by decide, by decide⟩, .numbered ⟨6, by decide, by decide⟩⟩
    let expression : Expression := ⟨"(3)!DisAdvantage*04DF!adv - 2d6",
      .binary .subtract (.binary .multiply
        (.flagged (.group "3" (.int ⟨3, by decide, by decide⟩)) ⟨.disadvantage, none⟩)
        (.flagged (.dice fate) ⟨.adv, none⟩)) (.dice other)⟩
    parse "(3)!DisAdvantage*04DF!adv - 2d6" = .ok expression ∧
      expression.root.terms = [fate, other] ∧ Dice.Plain ['0', '4', 'D', 'F'] fate ∧
      Dice.search "(3)!DisAdvantage*04DF!adv - 2d6" = .ok "04DF" ∧
      Dice.extract "(3)!DisAdvantage*04DF!adv - 2d6" = .ok fate := by
  intro fate other expression
  have parsed : parse "(3)!DisAdvantage*04DF!adv - 2d6" = .ok expression := by decide +kernel
  have terms : expression.root.terms = [fate, other] := rfl
  have number : Numeral.Denotes ['0', '4'] 4 :=
    ⟨List.cons_ne_nil _ _, List.all_eq_true.mp rfl, rfl⟩
  have plain : Dice.Plain ['0', '4', 'D', 'F'] fate :=
    @Dice.Plain.intro ['0', '4'] ['F'] 'D' _ _ (.numeral number) (by decide) .letter
  have first : (scan "(3)!DisAdvantage*04DF!adv - 2d6".toList).find? (·.kind = .dice) =
      some ⟨[], .dice, ['0', '4', 'D', 'F']⟩ := by decide +kernel
  obtain ⟨before, token, after, ending, split, noDice, isDice, _, done⟩ :=
    extract_of_parse parsed terms
  have skipped : before.find? (·.kind = .dice) = none := by simpa using noDice
  rw [split, List.find?_append, skipped, Option.none_or,
    List.find?_cons_of_pos (by simpa using isDice.kind_eq)] at first
  cases first
  obtain ⟨_, searched, extracted⟩ := done plain
  exact ⟨parsed, terms, plain, searched, extracted⟩

/-! ## Extracting what was extracted -/

namespace Dice

variable {text : String} {dice : Dice}

theorem extract_eq_error (none : find? text.toList = none) :
    extract text = .error (.noDice text) := by
  unfold extract search
  rw [none]
  rfl

/-- With numbered sides the normal spelling is plain, and found as a whole. -/
theorem extract_toString_of_numbered (rolls count : Tally) :
    let dice : Dice := ⟨rolls, .numbered count⟩
    extract (toString dice) = .ok dice := by
  intro dice
  have plain : Plain (toString dice).toList dice := by
    rw [toList_toString]
    exact .intro (.numeral (Numeral.denotes_toString rolls.val)) (by decide)
      (.numbered (Numeral.denotes_toString count.val))
  have fits := (plain_iff.mp plain).2
  exact extract_eq_ok_iff_plain.mpr ⟨_, find?_of_matches fits, plain⟩

/-- The normal spelling of fate sides is passed over. -/
theorem extract_toString_of_fate (rolls : Tally) (abbreviated : Bool) :
    let dice : Dice := ⟨rolls, .fate abbreviated⟩
    extract (toString dice) = .error (.noDice (toString dice)) := by
  intro dice
  let word := (toString (Sides.fate abbreviated)).toList
  have number : ∀ char ∈ (toString rolls).toList, Text.isDigit char = true :=
    (Numeral.denotes_toString rolls.val).isDigit
  have noSide : ('d' :: word).any isSide = false := by
    cases abbreviated <;> decide +kernel
  have outside : ∀ char ∈ 'd' :: word, isSide char = false := fun char member =>
    Bool.eq_false_iff.mpr (List.any_eq_false.mp noSide char member)
  have behind : Passed [] ('d' :: word) := .of_not_side outside (.inr nofun)
  have begins : leading? ('d' :: (word ++ [])) = none := by
    cases behind with
    | cons none _ => exact none
  have whole := (Passed.append (.of_digits number begins) behind).find?_eq
  apply extract_eq_error
  rw [toList_toString, ← List.append_nil (_ ++ _)]
  exact whole

/-- Dice with numbered sides are extracted from their normal spelling again. Those with fate sides
were spelled with a capital letter, and their normal spelling has a small one. -/
theorem extract_toString (extracted : extract text = .ok dice) :
    (∃ count, dice.sides = .numbered count) ∧ extract (toString dice) = .ok dice ∨
      dice.sides = .fate true ∧
        extract (toString dice) = .error (.noDice (toString dice)) := by
  obtain ⟨_, _, plain⟩ := extract_eq_ok_iff_plain.mp extracted
  cases plain with
  | @intro _ _ _ rolls _ number divides faces =>
    cases faces with
    | @numbered _ count numeral =>
      exact .inl ⟨⟨count, rfl⟩, extract_toString_of_numbered rolls count⟩
    | letter => exact .inr ⟨rfl, extract_toString_of_fate rolls true⟩

/-- Zeros before the numbers and a capital delimiter are gone when the dice are read again. -/
theorem extract_toString_padded :
    let dice : Dice := ⟨⟨3, by decide, by decide⟩, .numbered ⟨20, by decide, by decide⟩⟩
    extract "roll 03D020!adv" = .ok dice ∧ extract (toString dice) = .ok dice := by
  intro dice
  have extracted : extract "roll 03D020!adv" = .ok dice := by decide +kernel
  rcases extract_toString extracted with ⟨_, again⟩ | ⟨fate, _⟩
  · exact ⟨extracted, again⟩
  · cases fate

/-- A fate die that is found is not found in its normal spelling. -/
theorem extract_toString_ne :
    let dice : Dice := ⟨.one, .fate true⟩
    extract "1dF" = .ok dice ∧ toString dice = "1df" ∧ extract (toString dice) ≠ .ok dice := by
  decide +kernel

end Dice

end Tabletop
