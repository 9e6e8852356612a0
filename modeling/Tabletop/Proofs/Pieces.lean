import Tabletop.Proofs.Scan
import Tabletop.Text.Blank

/-!
# Pieces of a phrase

A phrase is made of numbers, dice terms, words of flags and signs. Where two of them stand next to
each other without a blank, the first is a sign or the second begins with neither a letter nor a
digit, so that nothing of the second could belong to the first. A phrase is therefore scanned into
the same tokens wherever it stands.
-/

namespace Tabletop

open Phrase (Derives)

namespace Token

/-- What the grammar is made of. -/
inductive Piece (token : Token) : Prop where
  | integer {score : Score} (isInteger : token.IsInteger score)
  | dice {term : Dice} (isDice : token.IsDice term)
  | word {word : FlagWord} (isWord : token.IsWord word)
  | sign (isSign : isSignKind token.kind = true)

/-- Nothing at the start of the second token could belong to the first one. -/
def Parted (token next : Token) : Prop :=
  isSignKind token.kind = true ∨ next.gap ≠ [] ∨ Ends next.text

/-! ## Signs -/

theorem isSignKind_of_signs {kind : TokenKind} {op : BinaryOp} (isSign : kind.Signs op) :
    isSignKind kind = true := by
  cases isSign <;> rfl

namespace Leads

variable {token : Token} {rest : List Char}

/-- A sign is one character, and no letter or digit. -/
theorem exists_sign (leads : token.Leads rest) (isSign : isSignKind token.kind = true) :
    ∃ char, token.text = [char] ∧ signKind char = token.kind ∧ signKind char ≠ .stray := by
  obtain ⟨char, text, kind⟩ := leads.sign isSign
  refine ⟨char, text, kind, fun stray => ?_⟩
  rw [← kind, stray] at isSign
  cases isSign

/-- A sign is a token whatever follows it. -/
theorem of_sign (leads : token.Leads rest) (isSign : isSignKind token.kind = true)
    (other : List Char) : token.Leads other := by
  obtain ⟨char, text, kind, sign⟩ := leads.exists_sign isSign
  refine ⟨leads.blanks, leads.starts, ?_⟩
  rw [text, ← kind]
  exact lexeme_sign sign

theorem ends_of_sign (leads : token.Leads rest) (isSign : isSignKind token.kind = true) :
    Ends token.text := by
  obtain ⟨char, text, _, sign⟩ := leads.exists_sign isSign
  rw [text]
  apply Ends.cons
  rcases signKind_cases sign with rfl | rfl | rfl | rfl | rfl | rfl <;> rfl

end Leads

/-- A word begins with its mark. -/
theorem IsWord.ends {token : Token} {word : FlagWord} (isWord : token.IsWord word) :
    Ends token.text := by
  obtain ⟨letters, mark, _⟩ := isWord.spelled.letters
  rw [mark]
  exact .cons rfl

end Token

open Token (Piece Parted isSignKind)

/-! ## Pieces and their neighbours -/

theorem Flag.Spelled.pieces {tokens : List Token} {flag : Flag} (spelled : Spelled tokens flag) :
    ∀ token ∈ tokens, token.Piece := by
  cases spelled with
  | plain isWord => exact List.forall_mem_singleton.mpr (.word isWord)
  | counted isWord takesCount opens isCount closes =>
    simp only [List.forall_mem_cons]
    exact ⟨.word isWord, .sign (congrArg isSignKind opens), .integer isCount,
      .sign (congrArg isSignKind closes), List.forall_mem_nil _⟩

/-- A phrase is made of pieces. -/
theorem Phrase.Derives.pieces {phrase : Phrase} {tokens : List Token} {tree : Expr}
    (derives : Derives phrase tokens tree) : ∀ token ∈ tokens, token.Piece := by
  induction derives with
  | dice isDice => exact List.forall_mem_singleton.mpr (.dice isDice)
  | group opens inner closes ih =>
    simp only [List.forall_mem_cons, List.forall_mem_append]
    exact ⟨.sign (congrArg isSignKind opens), ih, .sign (congrArg isSignKind closes),
      List.forall_mem_nil _⟩
  | integer isInteger => exact List.forall_mem_singleton.mpr (.integer isInteger)
  | bare target ih => exact ih
  | flagged target spelled ih => exact List.forall_mem_append.mpr ⟨ih, spelled.pieces⟩
  | sequence first signs operands firstIh operandsIh =>
    refine List.forall_mem_append.mpr ⟨firstIh, fun token member => ?_⟩
    obtain ⟨link, isLink, written⟩ := List.mem_flatMap.mp member
    rcases List.mem_cons.mp written with rfl | inner
    · exact .sign (Token.isSignKind_of_signs (signs link isLink))
    · exact operandsIh link isLink token inner

namespace Token

/-- A token that begins with neither a letter nor a digit may follow any other. -/
theorem parted_append {left right : List Token} (before : left.IsChain Parted)
    (after : right.IsChain Parted) (ends : ∀ token ∈ right.head?, Ends token.text) :
    (left ++ right).IsChain Parted :=
  List.isChain_append.mpr ⟨before, after, fun _ _ token first => .inr (.inr (ends token first))⟩

/-- Any token may follow a sign. -/
theorem parted_cons {token : Token} {tokens : List Token} (isSign : isSignKind token.kind = true)
    (after : tokens.IsChain Parted) : (token :: tokens).IsChain Parted :=
  List.isChain_cons.mpr ⟨fun _ _ => .inl isSign, after⟩

end Token

/-- A flag follows its target without a blank as well. -/
theorem Flag.Spelled.parted {tokens : List Token} {flag : Flag} (spelled : Spelled tokens flag)
    (found : ∀ token ∈ tokens, ∃ rest, token.Leads rest) :
    tokens.IsChain Parted ∧ ∀ token ∈ tokens.head?, Ends token.text := by
  cases spelled with
  | plain isWord =>
    refine ⟨.singleton _, fun token first => ?_⟩
    cases first
    exact isWord.ends
  | @counted word left number right _ _ isWord takesCount opens isCount closes =>
    have isLeft : isSignKind left.kind = true := congrArg isSignKind opens
    have isRight : isSignKind right.kind = true := congrArg isSignKind closes
    simp only [List.forall_mem_cons] at found
    obtain ⟨_, ⟨_, leftFound⟩, _, ⟨_, rightFound⟩, _⟩ := found
    have closed : [number, right].IsChain Parted :=
      .cons_cons (.inr (.inr (rightFound.ends_of_sign isRight))) (.singleton _)
    have opened : [left, number, right].IsChain Parted := Token.parted_cons isLeft closed
    refine ⟨.cons_cons (.inr (.inr (leftFound.ends_of_sign isLeft))) opened, fun token first => ?_⟩
    cases first
    exact isWord.ends

namespace Phrase

/-- Links follow whatever stands on their left. -/
theorem parted_links {links : List Link}
    (signs : ∀ link ∈ links, link.sign.kind.Signs link.op)
    (operands : ∀ link ∈ links, link.tokens.IsChain Parted)
    (found : ∀ token ∈ links.flatMap Link.written, ∃ rest, token.Leads rest) :
    (links.flatMap Link.written).IsChain Parted ∧
      ∀ token ∈ (links.flatMap Link.written).head?, Ends token.text := by
  induction links with
  | nil => exact ⟨.nil, nofun⟩
  | cons link links ih =>
    have isSign := Token.isSignKind_of_signs (signs link List.mem_cons_self)
    have inner : link.tokens.IsChain Parted := operands link List.mem_cons_self
    rw [List.flatMap_cons, List.forall_mem_append] at found
    obtain ⟨later, ends⟩ := ih (fun other member => signs other (List.mem_cons_of_mem link member))
      (fun other member => operands other (List.mem_cons_of_mem link member)) found.2
    obtain ⟨_, leads⟩ := found.1 link.sign List.mem_cons_self
    refine ⟨Token.parted_append (Token.parted_cons isSign inner) later ends, fun token first => ?_⟩
    cases first
    exact leads.ends_of_sign isSign

/-- In a phrase nothing of a token could belong to the one before it. -/
theorem Derives.parted {phrase : Phrase} {tokens : List Token} {tree : Expr}
    (derives : Derives phrase tokens tree) (found : ∀ token ∈ tokens, ∃ rest, token.Leads rest) :
    tokens.IsChain Parted := by
  induction derives with
  | dice isDice => exact .singleton _
  | @group left right body _ opens inner closes ih =>
    have isRight : isSignKind right.kind = true := congrArg isSignKind closes
    simp only [List.forall_mem_cons, List.forall_mem_append] at found
    obtain ⟨_, bodyFound, ⟨_, rightFound⟩, _⟩ := found
    refine Token.parted_cons (congrArg isSignKind opens) ?_
    refine Token.parted_append (ih bodyFound) (.singleton _) fun token first => ?_
    cases first
    exact rightFound.ends_of_sign isRight
  | integer isInteger => exact .singleton _
  | bare target ih => exact ih found
  | flagged target spelled ih =>
    obtain ⟨targetFound, suffixFound⟩ := List.forall_mem_append.mp found
    obtain ⟨suffix, ends⟩ := spelled.parted suffixFound
    exact Token.parted_append (ih targetFound) suffix ends
  | sequence first signs operands firstIh operandsIh =>
    obtain ⟨firstFound, linksFound⟩ := List.forall_mem_append.mp found
    obtain ⟨later, ends⟩ := parted_links signs (fun link member => operandsIh link member
      fun token inside => linksFound token
        (List.mem_flatMap.mpr ⟨link, member, List.mem_cons_of_mem _ inside⟩)) linksFound
    exact Token.parted_append (firstIh firstFound) later ends

end Phrase

/-! ## Phrases in any place -/

namespace Token

/-- A piece that is found in a text stands alone. -/
theorem Piece.standsAlone {token : Token} {rest : List Char} (piece : token.Piece)
    (leads : token.Leads rest) : token.StandsAlone := by
  cases piece with
  | integer isInteger => exact isInteger.standsAlone
  | dice isDice => exact isDice.standsAlone
  | word isWord => exact isWord.standsAlone
  | sign isSign => exact ⟨leads.starts, fun after _ => (leads.of_sign isSign after).lexeme_eq⟩

/-- What follows a token in a list of parted tokens does not go on with it. -/
theorem ends_chars {token : Token} {tokens : List Token} {rest : List Char}
    (noSign : ¬ isSignKind token.kind = true) (parted : (token :: tokens).IsChain Parted)
    (found : ∀ token ∈ tokens, ∃ rest, token.Leads rest) (ends : Ends rest) :
    Ends (chars tokens ++ rest) := by
  cases tokens with
  | nil => exact ends
  | cons next tokens =>
    obtain ⟨after, leads⟩ := found next List.mem_cons_self
    intro char first
    rw [chars_cons, List.append_assoc, List.append_assoc] at first
    cases gap : next.gap with
    | cons blank gaps =>
      rw [gap] at first
      cases first
      exact ends_of_blank leads.blanks char (gap ▸ rfl)
    | nil =>
      obtain ⟨head, headEq, _⟩ := leads.starts
      rw [gap, List.nil_append, List.head?_append, headEq] at first
      cases first
      rcases (List.isChain_cons_cons.mp parted).1 with isSign | hasGap | apart
      · exact absurd isSign noSign
      · exact absurd gap hasGap
      · exact apart char headEq

/-- Parted pieces are found one after the other wherever no letter or digit follows them. -/
theorem scanned_of_parted {tokens : List Token} {rest : List Char}
    (pieces : ∀ token ∈ tokens, token.Piece) (parted : tokens.IsChain Parted)
    (found : ∀ token ∈ tokens, ∃ rest, token.Leads rest) (ends : Ends rest) :
    Scanned tokens rest := by
  induction tokens with
  | nil => exact .nil
  | cons token tokens ih =>
    obtain ⟨⟨after, leads⟩, tailFound⟩ := List.forall_mem_cons.mp found
    obtain ⟨piece, tailPieces⟩ := List.forall_mem_cons.mp pieces
    have tail := ih tailPieces (List.isChain_cons.mp parted).2 tailFound
    by_cases isSign : isSignKind token.kind = true
    · exact .cons (leads.of_sign isSign _) tail
    · have alone := piece.standsAlone leads
      exact .cons (alone.leads leads.blanks (ends_chars isSign parted tailFound ends)) tail

end Token

/-! ## Blanks -/

namespace Text

theorem toNat_of_isAlphanum {char : Char} (visible : char.isAlphanum = true) :
    48 ≤ char.toNat ∧ char.toNat ≤ 122 := by
  simp only [Char.isAlphanum, Char.isAlpha, Char.isUpper, Char.isLower, Char.isDigit,
    UInt32.le_iff_toNat_le, ge_iff_le, Bool.or_eq_true, Bool.and_eq_true,
    decide_eq_true_eq] at visible
  change ((65 ≤ char.toNat ∧ char.toNat ≤ 90) ∨ (97 ≤ char.toNat ∧ char.toNat ≤ 122)) ∨
    (48 ≤ char.toNat ∧ char.toNat ≤ 57) at visible
  omega

/-- Letters and digits are no blanks in any alphabet. -/
theorem isBlank_eq_false_of_isAlphanum {char : Char} (visible : char.isAlphanum = true) :
    isBlank char = false := by
  have range := toNat_of_isAlphanum visible
  by_contra blank
  rw [Bool.not_eq_false, isBlank, covers_iff blankRanges_ascending (by decide)] at blank
  obtain ⟨bounds, member, low, high⟩ := blank
  have outside : ∀ bounds ∈ blankRanges, bounds.2 < 48 ∨ 122 < bounds.1 := by decide
  rcases outside bounds member with below | above <;> omega

end Text

namespace Sides

theorem Spelled.isAlphanum {chars : List Char} {sides : Sides} (spelled : Spelled chars sides) :
    ∀ char ∈ chars, char.isAlphanum = true := by
  intro char member
  cases spelled with
  | numbered numeral => exact Text.isAlphanum_of_isDigit (numeral.digits char member)
  | letter lowered | word lowered =>
    have letter := Text.isAlpha_of_lowered lowered (by decide) char member
    exact Text.isAlphanum_of_isAlpha letter

end Sides

theorem Dice.Spelled.isAlphanum {chars : List Char} {term : Dice} (spelled : Spelled chars term) :
    ∀ char ∈ chars, char.isAlphanum = true := by
  cases spelled with
  | intro number divides faces =>
    simp only [List.forall_mem_append, List.forall_mem_cons]
    refine ⟨fun char member => ?_, ?_, faces.isAlphanum⟩
    · exact Text.isAlphanum_of_isDigit (number.digits char member)
    · have letter := Dice.isAlpha_of_isDelimiter (Dice.isDelimiter_iff.mpr divides)
      exact Text.isAlphanum_of_isAlpha letter

namespace Token.Piece

variable {token : Token} {rest : List Char}

/-- Pieces consist of letters, digits, the mark of flags, and signs. -/
theorem char_cases (piece : token.Piece) (leads : token.Leads rest) :
    ∀ char ∈ token.text,
      char.isAlphanum = true ∨ char = '!' ∨ Token.signKind char ≠ .stray := by
  cases piece with
  | integer isInteger =>
    obtain ⟨n, numeral, _⟩ := isInteger.numeral
    exact fun char member => .inl (Text.isAlphanum_of_isDigit (numeral.digits char member))
  | dice isDice => exact fun char member => .inl (isDice.spelled.isAlphanum char member)
  | word isWord =>
    obtain ⟨letters, text, alphabetic, _⟩ := isWord.spelled.letters
    rw [text]
    refine List.forall_mem_cons.mpr ⟨.inr (.inl rfl), fun char member => .inl ?_⟩
    exact Text.isAlphanum_of_isAlpha (alphabetic char member)
  | sign isSign =>
    obtain ⟨char, text, _, sign⟩ := leads.exists_sign isSign
    rw [text]
    exact List.forall_mem_singleton.mpr (.inr (.inr sign))

/-- No character of a piece is a blank in any alphabet. -/
theorem not_blank (piece : token.Piece) (leads : token.Leads rest) :
    ∀ char ∈ token.text, Text.isBlank char = false := by
  intro char member
  rcases piece.char_cases leads char member with visible | rfl | sign
  · exact Text.isBlank_eq_false_of_isAlphanum visible
  · rfl
  · rcases Token.signKind_cases sign with rfl | rfl | rfl | rfl | rfl | rfl <;> rfl

/-- Every character of a piece is an ASCII character. -/
theorem ascii (piece : token.Piece) (leads : token.Leads rest) :
    ∀ char ∈ token.text, char.toNat < 128 := by
  intro char member
  rcases piece.char_cases leads char member with visible | rfl | sign
  · have range := Text.toNat_of_isAlphanum visible
    omega
  · decide
  · rcases Token.signKind_cases sign with rfl | rfl | rfl | rfl | rfl | rfl <;> decide

end Token.Piece

end Tabletop
