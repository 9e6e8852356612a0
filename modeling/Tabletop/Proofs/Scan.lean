import Tabletop.Proofs.Lexeme

/-!
# Scanning against the text

`Token.Scanned` relates a list of tokens to a text without scanning it: each token is what its text
begins with, given all that follows. A scan finds exactly these tokens, and with some blanks at the
end they hold every character of the text.
-/

namespace Tabletop.Token

/-- The token is what a text begins with, and `rest` is what follows it there. -/
structure Leads (token : Token) (rest : List Char) : Prop where
  blanks : ∀ char ∈ token.gap, char.isWhitespace = true
  starts : ∃ head, token.text.head? = some head ∧ head.isWhitespace = false
  lexeme_eq : lexeme (token.text ++ rest) = (token.kind, token.text.length)

namespace Leads

theorem text_ne_nil {token : Token} {rest : List Char} (leads : token.Leads rest) :
    token.text ≠ [] := by
  obtain ⟨head, first, _⟩ := leads.starts
  intro empty
  rw [empty] at first
  cases first

theorem unsigned {token : Token} {rest : List Char} (leads : token.Leads rest) :
    token.Unsigned := by
  intro number
  have clear : Tabletop.Unsigned (token.text ++ rest) := by
    apply unsigned_of_lexeme
    rw [leads.lexeme_eq]
    exact number
  obtain ⟨head, tail, equal⟩ := List.exists_cons_of_ne_nil leads.text_ne_nil
  rw [equal] at clear ⊢
  exact clear

/-- A sign is a single character, which decides its kind. -/
theorem sign {token : Token} {rest : List Char} (leads : token.Leads rest)
    (isSign : isSignKind token.kind = true) :
    ∃ char, token.text = [char] ∧ signKind char = token.kind := by
  have lexeme_eq := leads.lexeme_eq
  obtain ⟨char, after, whole, kind, length⟩ :=
    @lexeme_of_isSign (token.text ++ rest) (by rw [lexeme_eq]; exact isSign)
  rw [lexeme_eq] at kind length
  obtain ⟨only, equal⟩ := List.length_eq_one_iff.mp length
  rw [equal] at whole
  cases whole
  exact ⟨char, equal, kind⟩

end Leads

/-- The tokens are what a text begins with, one after the other, and `rest` is what follows. -/
inductive Scanned : List Token → List Char → Prop where
  | nil {rest : List Char} : Scanned [] rest
  | cons {token : Token} {tokens : List Token} {rest : List Char}
      (leads : token.Leads (chars tokens ++ rest)) (more : Scanned tokens rest) :
      Scanned (token :: tokens) rest

theorem chars_cons (token : Token) (tokens : List Token) :
    chars (token :: tokens) = token.gap ++ token.text ++ chars tokens :=
  List.flatMap_cons

namespace Scanned

/-- Tokens that stand in front of other tokens make one list with them. -/
theorem append {left right : List Token} {rest : List Char}
    (head : Scanned left (chars right ++ rest)) (tail : Scanned right rest) :
    Scanned (left ++ right) rest := by
  induction left with
  | nil => exact tail
  | cons token left ih =>
    cases head with
    | cons leads more =>
      have whole : chars (left ++ right) ++ rest = chars left ++ (chars right ++ rest) := by
        rw [chars_append, List.append_assoc]
      exact .cons (whole ▸ leads) (ih more)

/-- A scan finds the tokens of a text that ends with blanks. -/
theorem scan_eq {tokens : List Token} {rest : List Char} (scanned : Scanned tokens rest)
    (blanks : ∀ char ∈ rest, char.isWhitespace = true) : scan (chars tokens ++ rest) = tokens := by
  induction scanned with
  | nil =>
    apply scan_of_blank
    exact List.dropWhile_eq_nil_iff.mpr blanks
  | @cons token tokens rest leads _ ih =>
    obtain ⟨head, first, notBlank⟩ := leads.starts
    have body : token.text ++ (chars tokens ++ rest) ≠ [] := by
      intro empty
      exact leads.text_ne_nil (List.append_eq_nil_iff.mp empty).1
    have starts : ∀ char ∈ (token.text ++ (chars tokens ++ rest)).head?,
        char.isWhitespace = false := by
      intro char same
      rw [List.head?_append, first] at same
      cases same
      exact notBlank
    have split : chars (token :: tokens) ++ rest =
        token.gap ++ (token.text ++ (chars tokens ++ rest)) := by
      rw [chars_cons]
      simp only [List.append_assoc]
    rw [scan_of_not_blank split leads.blanks body starts, leads.lexeme_eq, List.take_left,
      List.drop_left, ih blanks]

/-- Every token of a text stands somewhere in it. -/
theorem leads {tokens : List Token} {rest : List Char} (scanned : Scanned tokens rest) :
    ∀ token ∈ tokens, ∃ after, token.Leads after := by
  induction scanned with
  | nil => exact nofun
  | @cons token tokens rest leads _ ih =>
    intro other member
    rcases List.mem_cons.mp member with rfl | member
    · exact ⟨_, leads⟩
    · exact ih other member

end Scanned

/-- The tokens of a text, with some blanks at the end, hold all of its characters. -/
theorem exists_scanned (text : List Char) :
    ∃ rest, text = chars (scan text) ++ rest ∧ Scanned (scan text) rest ∧
      ∀ char ∈ rest, char.isWhitespace = true := by
  induction length : text.length using Nat.strongRecOn generalizing text with
  | ind n ih =>
    have parts := List.takeWhile_append_dropWhile (p := Char.isWhitespace) (l := text)
    have blanks : ∀ char ∈ text.takeWhile Char.isWhitespace, char.isWhitespace = true :=
      fun char member => List.mem_takeWhile_imp member
    cases body : text.dropWhile Char.isWhitespace with
    | nil =>
      rw [scan_of_blank body]
      exact ⟨text, rfl, .nil, List.dropWhile_eq_nil_iff.mp body⟩
    | cons head tail =>
      rw [body] at parts
      have notBlank : head.isWhitespace = false := by
        have stop := List.head?_dropWhile_not Char.isWhitespace text
        rw [body] at stop
        simpa using stop
      have starts : ∀ char ∈ (head :: tail).head?, char.isWhitespace = false := by
        intro char same
        cases same
        exact notBlank
      rw [scan_of_not_blank parts.symm blanks (List.cons_ne_nil head tail) starts]
      generalize found : lexeme (head :: tail) = first
      obtain ⟨kind, size⟩ := first
      have positive : 0 < size := by
        have bound := lexeme_length_pos (head :: tail)
        rw [found] at bound
        exact bound
      have within : size ≤ (head :: tail).length := by
        have bound := lexeme_length_le (List.cons_ne_nil head tail)
        rw [found] at bound
        exact bound
      have shorter : ((head :: tail).drop size).length < n := by
        have whole := congrArg List.length parts
        rw [List.length_append, length] at whole
        rw [List.length_drop]
        omega
      obtain ⟨rest, remaining, scanned, ending⟩ := ih _ shorter _ rfl
      have cut : (head :: tail).take size ++ (head :: tail).drop size = head :: tail :=
        List.take_append_drop size (head :: tail)
      have taken : ((head :: tail).take size).length = size := by
        rw [List.length_take]
        omega
      refine ⟨rest, ?_, .cons ⟨blanks, ⟨head, ?_, notBlank⟩, ?_⟩ scanned, ending⟩
      · rw [chars_cons, List.append_assoc, ← remaining, List.append_assoc, cut, parts]
      · obtain ⟨more, equal⟩ := Nat.exists_eq_add_of_lt positive
        rw [equal, Nat.zero_add, List.take_succ_cons]
        rfl
      · rw [← remaining, cut, found, taken]

/-- Each token of a text stands somewhere in it. -/
theorem leads_of_mem_scan {text : List Char} {token : Token} (member : token ∈ scan text) :
    ∃ rest, token.Leads rest := by
  obtain ⟨_, _, scanned, _⟩ := exists_scanned text
  exact scanned.leads token member

theorem unsigned_of_mem_scan {text : List Char} : ∀ token ∈ scan text, token.Unsigned := by
  intro token member
  obtain ⟨_, leads⟩ := leads_of_mem_scan member
  exact leads.unsigned

/-! ## Tokens that can stand anywhere -/

/-- The token is a token of its own wherever no letter or digit follows it. -/
structure StandsAlone (token : Token) : Prop where
  starts : ∃ head, token.text.head? = some head ∧ head.isWhitespace = false
  lexeme_eq : ∀ rest, Ends rest → lexeme (token.text ++ rest) = (token.kind, token.text.length)

theorem StandsAlone.leads {token : Token} {rest : List Char} (alone : token.StandsAlone)
    (blanks : ∀ char ∈ token.gap, char.isWhitespace = true) (ends : Ends rest) :
    token.Leads rest :=
  ⟨blanks, alone.starts, alone.lexeme_eq rest ends⟩

theorem blank_cases {char : Char} (blank : char.isWhitespace = true) :
    char = ' ' ∨ char = '\t' ∨ char = '\r' ∨ char = '\n' := by
  simpa [Char.isWhitespace, or_assoc] using blank

/-- Letters and digits are no blanks. -/
theorem not_blank_of_isAlphanum {char : Char} (visible : char.isAlphanum = true) :
    char.isWhitespace = false := by
  by_contra blank
  rw [Bool.not_eq_false] at blank
  rcases blank_cases blank with rfl | rfl | rfl | rfl <;> exact absurd visible (by decide)

/-- A token may always be followed by blanks. -/
theorem ends_of_blank {rest : List Char} (blanks : ∀ char ∈ rest, char.isWhitespace = true) :
    Ends rest := by
  intro char first
  by_contra visible
  rw [Bool.not_eq_false] at visible
  have isBlank := blanks char (List.mem_of_mem_head? first)
  rw [not_blank_of_isAlphanum visible] at isBlank
  cases isBlank

theorem IsInteger.standsAlone {token : Token} {score : Score} (isInteger : token.IsInteger score) :
    token.StandsAlone := by
  obtain ⟨n, numeral, _⟩ := isInteger.numeral
  refine ⟨?_, fun rest ends => ?_⟩
  · obtain ⟨head, tail, equal⟩ := List.exists_cons_of_ne_nil numeral.nonempty
    rw [equal] at numeral ⊢
    refine ⟨head, rfl, not_blank_of_isAlphanum ?_⟩
    exact Text.isAlphanum_of_isDigit (numeral.digits head List.mem_cons_self)
  · rw [isInteger.kind_eq]
    exact lexeme_numeral numeral ends

theorem IsDice.standsAlone {token : Token} {term : Dice} (isDice : token.IsDice term) :
    token.StandsAlone := by
  refine ⟨?_, fun rest ends => ?_⟩
  · have spelled := isDice.spelled
    generalize token.text = chars at spelled ⊢
    cases spelled with
    | @intro before _ delimiter _ _ number divides _ =>
      cases before with
      | nil =>
        refine ⟨delimiter, rfl, not_blank_of_isAlphanum ?_⟩
        have letter := Dice.isAlpha_of_isDelimiter (Dice.isDelimiter_iff.mpr divides)
        exact Text.isAlphanum_of_isAlpha letter
      | cons head tail =>
        refine ⟨head, rfl, not_blank_of_isAlphanum ?_⟩
        exact Text.isAlphanum_of_isDigit (number.digits head List.mem_cons_self)
  · rw [isDice.kind_eq]
    exact lexeme_dice isDice.spelled ends

theorem IsWord.standsAlone {token : Token} {word : FlagWord} (isWord : token.IsWord word) :
    token.StandsAlone := by
  refine ⟨?_, fun rest ends => ?_⟩
  · obtain ⟨letters, mark, _⟩ := isWord.spelled.letters
    rw [mark]
    exact ⟨'!', rfl, by decide⟩
  · rw [isWord.kind_eq]
    exact lexeme_word isWord.spelled ends

/-- A sign is a token wherever it stands. -/
theorem leads_sign {gap rest : List Char} {char : Char}
    (blanks : ∀ char ∈ gap, char.isWhitespace = true) (sign : signKind char ≠ .stray) :
    Leads ⟨gap, signKind char, [char]⟩ rest := by
  refine ⟨blanks, ⟨char, rfl, ?_⟩, lexeme_sign sign⟩
  by_contra blank
  rw [Bool.not_eq_false] at blank
  rcases blank_cases blank with rfl | rfl | rfl | rfl <;> exact sign rfl

theorem leads_leftParen {gap rest : List Char}
    (blanks : ∀ char ∈ gap, char.isWhitespace = true) : Leads ⟨gap, .leftParen, ['(']⟩ rest :=
  @leads_sign gap rest '(' blanks nofun

theorem leads_rightParen {gap rest : List Char}
    (blanks : ∀ char ∈ gap, char.isWhitespace = true) : Leads ⟨gap, .rightParen, [')']⟩ rest :=
  @leads_sign gap rest ')' blanks nofun

theorem nil_blanks : ∀ char ∈ ([] : List Char), char.isWhitespace = true :=
  List.forall_mem_nil _

theorem space_blanks : ∀ char ∈ [' '], char.isWhitespace = true :=
  List.forall_mem_singleton.mpr rfl

end Tabletop.Token
