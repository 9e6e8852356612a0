import Tabletop.Proofs.Completion

/-!
# Texts side by side

Where a text goes on with neither a letter nor a digit, the token it begins with is the same as if
nothing followed. So a blank between two texts keeps their tokens apart: they are the tokens of the
first text and then those of the second.
-/

namespace Tabletop.Token

variable {chars rest : List Char}

/-! ## Counts in a longer text -/

/-- A run of letters and digits does not go on into what follows. -/
theorem takeWhile_append {p : Char → Bool} (inside : ∀ char, p char = true → char.isAlphanum = true)
    (ends : Ends rest) : (chars ++ rest).takeWhile p = chars.takeWhile p := by
  have stop : rest.takeWhile p = [] := by
    cases rest with
    | nil => rfl
    | cons char rest =>
      refine List.takeWhile_cons_of_neg fun more => ?_
      have other := ends char rfl
      rw [inside char more] at other
      cases other
  rw [List.takeWhile_append, stop]
  split
  next whole =>
    rw [List.append_nil]
    exact ((List.takeWhile_prefix p).eq_of_length whole).symm
  · rfl

theorem digitCount_append (ends : Ends rest) : digitCount (chars ++ rest) = digitCount chars := by
  unfold digitCount
  rw [takeWhile_append (fun _ => Text.isAlphanum_of_isDigit) ends]

/-- A word stands at the start of the longer text if it does in the shorter one. -/
theorem lowered_append {word : List Char} (letters : word.all Char.isAlpha = true)
    (ends : Ends rest) :
    ((chars ++ rest).take word.length).map Char.toLower = word ↔
      (chars.take word.length).map Char.toLower = word := by
  induction word generalizing chars with
  | nil => exact Iff.rfl
  | cons letter word ih =>
    rw [List.all_cons, Bool.and_eq_true] at letters
    cases chars with
    | nil =>
      refine iff_of_false (fun same => ?_) nofun
      cases rest with
      | nil => cases same
      | cons char rest =>
        have isLetter := Text.isAlpha_of_toLower_eq (List.cons.inj same).1 letters.1
        rw [ends.not_alpha char rfl] at isLetter
        cases isLetter
    | cons char chars =>
      simp only [List.cons_append, List.length_cons, List.take_succ_cons, List.map_cons,
        List.cons.injEq, ih letters.2]

theorem fateCount_append (ends : Ends rest) : fateCount (chars ++ rest) = fateCount chars := by
  have word := @lowered_append chars rest ['f', 'a', 't', 'e'] rfl ends
  have letter := @lowered_append chars rest ['f'] rfl ends
  unfold fateCount
  simp only [List.length_cons, List.length_nil, Nat.zero_add, Nat.reduceAdd] at word letter
  simp only [word, letter]

theorem sidesCount_append (ends : Ends rest) : sidesCount (chars ++ rest) = sidesCount chars := by
  unfold sidesCount
  rw [digitCount_append ends, fateCount_append ends]

/-- What is left behind the digits goes on as the text does. -/
theorem drop_digits_append (ends : Ends rest) :
    (chars ++ rest).drop (digitCount (chars ++ rest)) = chars.drop (digitCount chars) ++ rest := by
  rw [digitCount_append ends, List.drop_append_of_le_length (digitCount_le chars)]

theorem diceCount_append (ends : Ends rest) : diceCount (chars ++ rest) = diceCount chars := by
  unfold diceCount
  rw [drop_digits_append ends, digitCount_append ends]
  cases chars.drop (digitCount chars) with
  | nil =>
    cases rest with
    | nil => rfl
    | cons char rest =>
      have noDelimiter := ends.not_delimiter char rfl
      simp only [List.nil_append, noDelimiter, Bool.false_eq_true, false_and, if_false]
  | cons delimiter after => simp only [List.cons_append, sidesCount_append ends]

theorem cutShort_append (ends : Ends rest) : cutShort (chars ++ rest) = cutShort chars := by
  unfold cutShort
  rw [drop_digits_append ends, digitCount_append ends]
  cases chars.drop (digitCount chars) with
  | nil =>
    cases rest with
    | nil => rfl
    | cons char rest =>
      have noDelimiter := ends.not_delimiter char rfl
      simp only [List.nil_append, noDelimiter, Bool.and_false, Bool.false_and]
  | cons delimiter after =>
    simp only [List.cons_append, fateCount_append ends]
    -- an `a` can come from what follows only if the text ends before it
    rcases after with _ | ⟨letter, _ | ⟨next, after⟩⟩
    · have none : fateCount [] ≠ 1 := by decide
      simp only [none, decide_false, Bool.and_false, Bool.false_and]
    · have noLetter : rest.head?.map Char.toLower ≠ some 'a' := ends.not_lowered (by decide)
      simp [noLetter]
    · rfl

theorem flagCount_append (nonempty : chars ≠ []) (ends : Ends rest) :
    flagCount (chars ++ rest) = flagCount chars := by
  obtain ⟨head, tail, rfl⟩ := List.exists_cons_of_ne_nil nonempty
  by_cases mark : head = '!'
  · subst mark
    have letters := @takeWhile_append tail rest _ (fun _ => Text.isAlphanum_of_isAlpha) ends
    unfold flagCount
    simp only [List.cons_append, letters]
  · have none : ∀ after, flagCount (head :: after) = 0 := fun after => by
      unfold flagCount
      split
      next same => exact absurd (List.cons.inj same).1 mark
      · rfl
    rw [List.cons_append, none, none]

/-- The token that a text begins with is not changed by what follows the text. -/
theorem lexeme_append (nonempty : chars ≠ []) (ends : Ends rest) :
    lexeme (chars ++ rest) = lexeme chars := by
  unfold lexeme
  rw [cutShort_append ends, diceCount_append ends, digitCount_append ends, fateCount_append ends,
    flagCount_append nonempty ends, List.head?_append_of_ne_nil chars nonempty]

/-! ## Tokens in a longer text -/

theorem Leads.append {token : Token} (leads : token.Leads chars) (ends : Ends rest) :
    token.Leads (chars ++ rest) := by
  have nonempty : token.text ++ chars ≠ [] :=
    List.append_ne_nil_of_left_ne_nil leads.text_ne_nil chars
  refine ⟨leads.blanks, leads.starts, ?_⟩
  rw [← List.append_assoc, lexeme_append nonempty ends, leads.lexeme_eq]

theorem Scanned.append_rest {tokens : List Token} (scanned : Scanned tokens chars)
    (ends : Ends rest) : Scanned tokens (chars ++ rest) := by
  induction scanned with
  | nil => exact .nil
  | cons leads _ ih =>
    refine .cons ?_ ih
    rw [← List.append_assoc]
    exact leads.append ends

/-- Blanks before a text change none of its tokens but for the blanks before the first. -/
theorem map_content_scan_blanks {blanks : List Char}
    (isBlank : ∀ char ∈ blanks, char.isWhitespace = true) :
    (scan (blanks ++ chars)).map content = (scan chars).map content := by
  have parts := List.takeWhile_append_dropWhile (p := Char.isWhitespace) (l := chars)
  have gapBlank : ∀ char ∈ chars.takeWhile Char.isWhitespace, char.isWhitespace = true :=
    fun char member => List.mem_takeWhile_imp member
  have allBlank : ∀ char ∈ blanks ++ chars.takeWhile Char.isWhitespace, char.isWhitespace = true :=
    List.forall_mem_append.mpr ⟨isBlank, gapBlank⟩
  have stop := List.head?_dropWhile_not Char.isWhitespace chars
  cases body : chars.dropWhile Char.isWhitespace with
  | nil =>
    have none : (blanks ++ chars).dropWhile Char.isWhitespace = [] := by
      rw [List.dropWhile_append_of_pos isBlank, body]
    rw [scan_of_blank none, scan_of_blank body]
  | cons head tail =>
    rw [body] at parts stop
    have starts : ∀ char ∈ (head :: tail).head?, char.isWhitespace = false := by
      intro char same
      cases same
      simpa using stop
    have whole :
        blanks ++ chars = (blanks ++ chars.takeWhile Char.isWhitespace) ++ head :: tail := by
      rw [List.append_assoc, parts]
    rw [scan_of_not_blank whole allBlank (List.cons_ne_nil head tail) starts,
      scan_of_not_blank parts.symm gapBlank (List.cons_ne_nil head tail) starts]
    rfl

/-- The tokens of two texts with a blank between them are those of the one and of the other. -/
theorem contents_append (left right : String) :
    contents (left ++ " " ++ right) = contents left ++ contents right := by
  obtain ⟨ending, leftEq, leftScanned, endBlank⟩ := exists_scanned left.toList
  have blanks : ∀ char ∈ ending ++ [' '], char.isWhitespace = true :=
    List.forall_mem_append.mpr ⟨endBlank, space_blanks⟩
  obtain ⟨last, restEq, restScanned, lastBlank⟩ :=
    exists_scanned (ending ++ [' '] ++ right.toList)
  have joined := leftScanned.append_rest (@Ends.cons ' ' right.toList rfl)
  have whole : (left ++ " " ++ right).toList =
      chars (scan left.toList) ++ (ending ++ [' '] ++ right.toList) := by
    rw [String.toList_append, String.toList_append, ← List.append_assoc, ← List.append_assoc,
      ← leftEq]
    rfl
  rw [← List.singleton_append, ← List.append_assoc, restEq] at joined
  rw [restEq, ← List.append_assoc, ← chars_append] at whole
  unfold contents
  rw [whole, (joined.append restScanned).scan_eq lastBlank, List.map_append,
    map_content_scan_blanks blanks]

end Tabletop.Token
