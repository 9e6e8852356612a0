import Tabletop.Proofs.Parse
import Tabletop.Proofs.Respelling

/-!
# Writing and reading again

The trees that come from a text are the well-formed ones: numbers in them are not negative, flags
stand behind dice terms and groups, and no operator has arithmetic without parentheses on its right.
Conversely the normal spelling of every well-formed tree is read as that tree, except that the text
of each group is then its own normal spelling.
-/

namespace Tabletop

open Phrase (Derives)

/-! ## Well-formed trees -/

/-- A count is not negative and stands only behind a word whose kind takes one. -/
def Flag.WellFormed (flag : Flag) : Prop :=
  ∀ count ∈ flag.count, 0 ≤ count.val ∧ flag.kind.TakesCount

namespace Expr

/-- Whether the tree is arithmetic outside of parentheses. -/
def isBinary : Expr → Bool
  | .binary .. => true
  | _ => false

/-- The tree has a spelling of its own. -/
def WellFormed : Expr → Prop
  | .int score => 0 ≤ score.val
  | .dice _ => True
  | .group _ body => body.WellFormed
  | .flagged target flag => target.admitsFlag = true ∧ target.WellFormed ∧ flag.WellFormed
  | .binary _ left right => left.WellFormed ∧ right.WellFormed ∧ right.isBinary = false

/-- The groups of the tree at any depth. -/
def groups : Expr → List Expression
  | .group text body => ⟨text, body⟩ :: body.groups
  | .flagged target _ => target.groups
  | .binary _ left right => left.groups ++ right.groups
  | .int _ | .dice _ => []

end Expr

/-- The expression itself and the groups in it at any depth. -/
def Expression.parts (expression : Expression) : List Expression :=
  expression :: expression.root.groups

theorem Token.IsInteger.nonneg {token : Token} {score : Score}
    (isInteger : token.IsInteger score) : 0 ≤ score.val := by
  obtain ⟨n, _, _, value⟩ := isInteger.numeral
  rw [value]
  exact Int.natCast_nonneg n

theorem Flag.Spelled.wellFormed {tokens : List Token} {flag : Flag}
    (spelled : Flag.Spelled tokens flag) : flag.WellFormed := by
  cases spelled with
  | plain isWord =>
    intro count same
    cases same
  | counted isWord takesCount opens isCount closes =>
    intro count same
    cases same
    exact ⟨isCount.nonneg, takesCount⟩

/-- A tree may get a link on its right if the operand of the link is no bare arithmetic. -/
theorem Link.attach_wellFormed {links : List Link}
    (operands : ∀ link ∈ links, link.operand.WellFormed ∧ link.operand.isBinary = false)
    {tree : Expr} (wellFormed : tree.WellFormed) : (links.foldl Link.attach tree).WellFormed := by
  induction links generalizing tree with
  | nil => exact wellFormed
  | cons link rest ih =>
    obtain ⟨operand, notBinary⟩ := operands link List.mem_cons_self
    exact ih (fun other member => operands other (List.mem_cons_of_mem link member))
      ⟨wellFormed, operand, notBinary⟩

/-- Trees of the grammar are well-formed. Targets admit flags, and only sequences are arithmetic. -/
theorem Phrase.Derives.wellFormed {phrase : Phrase} {tokens : List Token} {tree : Expr}
    (derives : Derives phrase tokens tree) :
    tree.WellFormed ∧ (phrase = .target → tree.admitsFlag = true) ∧
      (phrase ≠ .sequence → tree.isBinary = false) := by
  induction derives with
  | dice isDice => exact ⟨trivial, fun _ => rfl, fun _ => rfl⟩
  | group opens inner closes ih => exact ⟨ih.1, fun _ => rfl, fun _ => rfl⟩
  | integer isInteger => exact ⟨isInteger.nonneg, nofun, fun _ => rfl⟩
  | bare target ih => exact ⟨ih.1, nofun, fun _ => ih.2.2 nofun⟩
  | flagged target spelled ih =>
    exact ⟨⟨ih.2.1 rfl, ih.1, spelled.wellFormed⟩, nofun, fun _ => rfl⟩
  | sequence first signs operands firstIh operandsIh =>
    refine ⟨?_, nofun, fun other => absurd rfl other⟩
    apply Link.attach_wellFormed _ firstIh.1
    intro link member
    obtain ⟨wellFormed, _, notBinary⟩ := operandsIh link member
    exact ⟨wellFormed, notBinary nofun⟩

/-! ## Normal spellings -/

/-- A natural number is written as its numeral. -/
theorem Numeral.denotes_toString (n : Nat) : Denotes (toString n).toList n := by
  have digits : (toString n).toList = Nat.toDigits 10 n := by
    rw [Nat.toString_eq_ofList_toDigits, String.toList_ofList]
  rw [digits]
  refine ⟨Nat.toDigits_ne_nil, fun char member => ?_, ?_⟩
  · exact Nat.isDigit_of_mem_toDigits (by decide) (by decide) member
  · exact Nat.ofDigitChars_ten_toDigits

/-- Sides are written with the spelling that they remember. -/
theorem Sides.spelled_toString (sides : Sides) : Sides.Spelled (toString sides).toList sides := by
  match sides with
  | .numbered count => exact .numbered (Numeral.denotes_toString count.val)
  | .fate true => exact .letter rfl
  | .fate false => exact .word rfl

/-- A dice term is written with the number of its dice, a `d` and its sides. -/
theorem Dice.toList_toString (term : Dice) : (toString term).toList =
    (toString term.rolls).toList ++ 'd' :: (toString term.sides).toList := by
  change (toString term.rolls ++ "d" ++ toString term.sides).toList = _
  rw [String.toList_append, String.toList_append, List.append_assoc]
  rfl

namespace Token

/-- A score that is not negative is written as an integer. -/
theorem isInteger_toString (gap : List Char) {score : Score} (nonneg : 0 ≤ score.val) :
    IsInteger ⟨gap, .integer, (toString score).toList⟩ score := by
  obtain ⟨n, value⟩ := Int.eq_ofNat_of_zero_le nonneg
  refine ⟨rfl, n, ?_, ?_, value⟩
  · have numeral : toString score = toString n := by
      change toString score.val = toString n
      rw [value]
      rfl
    rw [numeral]
    exact Numeral.denotes_toString n
  · have bound := score.fits.2
    omega

/-- A dice term is written as one. -/
theorem isDice_toString (gap : List Char) (term : Dice) :
    IsDice ⟨gap, .dice, (toString term).toList⟩ term := by
  refine ⟨rfl, ?_⟩
  rw [term.toList_toString]
  exact .intro (.numeral (Numeral.denotes_toString term.rolls.val)) (.inl rfl)
    term.sides.spelled_toString

/-- A word is written as itself. -/
theorem isWord_literal (gap : List Char) (word : FlagWord) :
    IsWord ⟨gap, .flag, word.literal.toList⟩ word := by
  refine ⟨rfl, ?_⟩
  cases word <;> rfl

end Token

/-- The tokens of a flag in its normal spelling. -/
def Flag.tokens (flag : Flag) : List Token :=
  ⟨[], .flag, flag.word.literal.toList⟩ ::
    match flag.count with
    | none => []
    | some count =>
      [⟨[], .leftParen, ['(']⟩, ⟨[], .integer, (toString count).toList⟩, ⟨[], .rightParen, [')']⟩]

namespace Flag

theorem chars_tokens (flag : Flag) : Token.chars flag.tokens = (toString flag).toList := by
  obtain ⟨word, count⟩ := flag
  cases count with
  | none => exact List.append_nil _
  | some count =>
    change word.literal.toList ++ _ = (toString word ++ "(" ++ toString count ++ ")").toList
    rw [String.toList_append, String.toList_append, String.toList_append, List.append_assoc,
      List.append_assoc]
    rfl

/-- A flag begins with its mark. -/
theorem exists_chars_eq_cons (flag : Flag) :
    ∃ letters, Token.chars flag.tokens = '!' :: letters := by
  obtain ⟨letters, mark, _⟩ := (Token.isWord_literal [] flag.word).spelled.letters
  exact ⟨_, congrArg (· ++ _) mark⟩

theorem spelled_tokens (flag : Flag) (wellFormed : flag.WellFormed) :
    Flag.Spelled flag.tokens flag := by
  obtain ⟨word, count⟩ := flag
  cases count with
  | none => exact .plain (Token.isWord_literal [] word)
  | some count =>
    obtain ⟨nonneg, takesCount⟩ := wellFormed count rfl
    exact .counted (Token.isWord_literal [] word) takesCount rfl
      (Token.isInteger_toString [] nonneg) rfl

theorem scanned_tokens (flag : Flag) (wellFormed : flag.WellFormed) {rest : List Char}
    (ends : Ends rest) : Token.Scanned flag.tokens rest := by
  obtain ⟨word, count⟩ := flag
  have wordAlone := (Token.isWord_literal [] word).standsAlone
  cases count with
  | none => exact .cons (wordAlone.leads Token.nil_blanks ends) .nil
  | some count =>
    obtain ⟨nonneg, _⟩ := wellFormed count rfl
    have countAlone := (Token.isInteger_toString [] nonneg).standsAlone
    have right : Token.Scanned [⟨[], .rightParen, [')']⟩] rest :=
      .cons (Token.leads_rightParen Token.nil_blanks) .nil
    have number := Token.Scanned.cons (countAlone.leads Token.nil_blanks (.cons rfl)) right
    have left := Token.Scanned.cons (Token.leads_leftParen Token.nil_blanks) number
    exact .cons (wordAlone.leads Token.nil_blanks (.cons rfl)) left

end Flag

namespace Expr

/-- The tokens of a tree in its normal spelling, with a gap before the first of them. -/
def tokens (gap : List Char) : Expr → List Token
  | .int score => [⟨gap, .integer, (toString score).toList⟩]
  | .dice term => [⟨gap, .dice, (toString term).toList⟩]
  | .group _ body => ⟨gap, .leftParen, ['(']⟩ :: (body.tokens [] ++ [⟨[], .rightParen, [')']⟩])
  | .flagged target flag => target.tokens gap ++ flag.tokens
  | .binary op left right =>
    left.tokens gap ++ ⟨[' '], Token.signKind op.symbol, [op.symbol]⟩ :: right.tokens [' ']

/-- The tree with the normal spelling of each group for its text. -/
def respelled : Expr → Expr
  | .group _ body => .group body.display body.respelled
  | .flagged target flag => .flagged target.respelled flag
  | .binary op left right => .binary op left.respelled right.respelled
  | tree => tree

theorem display_respelled (tree : Expr) : tree.respelled.display = tree.display := by
  induction tree with
  | int | dice => rfl
  | group text body ih => simp only [respelled, display, ih]
  | flagged target flag ih => simp only [respelled, display, ih]
  | binary op left right left_ih right_ih => simp only [respelled, display, left_ih, right_ih]

theorem withoutTexts_respelled (tree : Expr) : tree.respelled.withoutTexts = tree.withoutTexts := by
  induction tree with
  | int | dice => rfl
  | group text body ih => simp only [respelled, withoutTexts, ih]
  | flagged target flag ih => simp only [respelled, withoutTexts, ih]
  | binary op left right left_ih right_ih => simp only [respelled, withoutTexts, left_ih, right_ih]

/-- The text of each group is its normal spelling. -/
theorem text_of_mem_groups_respelled (tree : Expr) :
    ∀ part ∈ tree.respelled.groups, part.text = toString part.root := by
  induction tree with
  | int | dice => exact nofun
  | group text body ih =>
    intro part member
    rcases List.mem_cons.mp member with rfl | inner
    · exact (display_respelled body).symm
    · exact ih part inner
  | flagged target flag ih => exact ih
  | binary op left right left_ih right_ih =>
    intro part member
    rcases List.mem_append.mp member with inner | inner
    · exact left_ih part inner
    · exact right_ih part inner

/-- The tokens of a tree hold its normal spelling. -/
theorem chars_tokens (tree : Expr) (gap : List Char) :
    Token.chars (tree.tokens gap) = gap ++ tree.display.toList := by
  induction tree generalizing gap with
  | int score => exact List.append_nil _
  | dice term => exact List.append_nil _
  | group text body ih =>
    rw [tokens, display, Token.chars_cons, Token.chars_append, ih, String.toList_append,
      String.toList_append, List.append_assoc]
    rfl
  | flagged target flag ih =>
    rw [tokens, display, Token.chars_append, ih, String.toList_append, Flag.chars_tokens,
      List.append_assoc]
  | binary op left right left_ih right_ih =>
    have sign : (toString op).toList = [op.symbol] := by
      cases op <;> rfl
    rw [tokens, display, Token.chars_append, Token.chars_cons, left_ih, right_ih]
    simp only [String.toList_append, sign, List.append_assoc]
    rfl

/-- The gap of a tree stands before its first token. -/
theorem exists_tokens_eq_cons (tree : Expr) (gap : List Char) :
    ∃ kind text rest, tree.tokens gap = ⟨gap, kind, text⟩ :: rest := by
  induction tree with
  | int score => exact ⟨_, _, _, rfl⟩
  | dice term => exact ⟨_, _, _, rfl⟩
  | group text body ih => exact ⟨_, _, _, rfl⟩
  | flagged target flag ih =>
    obtain ⟨kind, text, rest, equal⟩ := ih
    exact ⟨kind, text, rest ++ flag.tokens, by rw [tokens, equal]; rfl⟩
  | binary op left right left_ih _ =>
    obtain ⟨kind, text, rest, equal⟩ := left_ih
    exact ⟨kind, text, _, by rw [tokens, equal]; rfl⟩

/-- From the first to the last token stands the normal spelling. -/
theorem join_tokens (tree : Expr) (gap : List Char) :
    Token.join (tree.tokens gap) = tree.display.toList := by
  obtain ⟨kind, text, rest, equal⟩ := exists_tokens_eq_cons tree gap
  have whole := chars_tokens tree gap
  rw [equal, Token.chars_cons, List.append_assoc] at whole
  rw [equal]
  exact List.append_cancel_left whole

/-- The tokens of a well-formed tree are a sequence, and a single operand or a target if the tree
is one. -/
theorem derives_tokens {tree : Expr} (wellFormed : tree.WellFormed) (gap : List Char) :
    Derives .sequence (tree.tokens gap) tree.respelled ∧
      (tree.isBinary = false → Derives .operand (tree.tokens gap) tree.respelled) ∧
      (tree.admitsFlag = true → Derives .target (tree.tokens gap) tree.respelled) := by
  induction tree generalizing gap with
  | int score =>
    have operand := Derives.integer (Token.isInteger_toString gap wellFormed)
    exact ⟨operand.single, fun _ => operand, nofun⟩
  | dice term =>
    have target := Derives.dice (Token.isDice_toString gap term)
    exact ⟨(Derives.bare target).single, fun _ => .bare target, fun _ => target⟩
  | group text body ih =>
    have target : Derives .target ((Expr.group text body).tokens gap)
        (Expr.group text body).respelled := by
      have inside := @Derives.group ⟨gap, .leftParen, ['(']⟩ ⟨[], .rightParen, [')']⟩ _ _ rfl
        (ih wellFormed []).1 rfl
      rw [join_tokens, String.ofList_toList] at inside
      exact inside
    exact ⟨(Derives.bare target).single, fun _ => .bare target, fun _ => target⟩
  | flagged target flag ih =>
    obtain ⟨admits, inner, flagWellFormed⟩ := wellFormed
    have operand := Derives.flagged ((ih inner gap).2.2 admits) (flag.spelled_tokens flagWellFormed)
    exact ⟨operand.single, fun _ => operand, nofun⟩
  | binary op left right left_ih right_ih =>
    obtain ⟨leftWellFormed, rightWellFormed, notBinary⟩ := wellFormed
    let sign : Token := ⟨[' '], Token.signKind op.symbol, [op.symbol]⟩
    have isSign : sign.kind.Signs op := by
      cases op <;> constructor
    have operand := (right_ih rightWellFormed [' ']).2.1 notBinary
    exact ⟨(left_ih leftWellFormed gap).1.extend isSign operand, nofun, nofun⟩

/-- The tokens of a well-formed tree are found in its normal spelling. -/
theorem scanned_tokens {tree : Expr} (wellFormed : tree.WellFormed) {gap rest : List Char}
    (blanks : ∀ char ∈ gap, char.isWhitespace = true) (ends : Ends rest) :
    Token.Scanned (tree.tokens gap) rest := by
  induction tree generalizing gap rest with
  | int score =>
    have alone := (Token.isInteger_toString gap wellFormed).standsAlone
    exact .cons (alone.leads blanks ends) .nil
  | dice term =>
    have alone := (Token.isDice_toString gap term).standsAlone
    exact .cons (alone.leads blanks ends) .nil
  | group text body ih =>
    have right : Token.Scanned [⟨[], .rightParen, [')']⟩] rest :=
      .cons (Token.leads_rightParen Token.nil_blanks) .nil
    have inside := (ih wellFormed Token.nil_blanks (.cons rfl)).append right
    exact .cons (Token.leads_leftParen blanks) inside
  | flagged target flag ih =>
    obtain ⟨_, inner, flagWellFormed⟩ := wellFormed
    have suffix := flag.scanned_tokens flagWellFormed ends
    refine (ih inner blanks ?_).append suffix
    obtain ⟨letters, equal⟩ := flag.exists_chars_eq_cons
    rw [equal]
    exact .cons rfl
  | binary op left right left_ih right_ih =>
    obtain ⟨leftWellFormed, rightWellFormed, _⟩ := wellFormed
    have operand := right_ih rightWellFormed Token.space_blanks ends
    have sign : Token.signKind op.symbol ≠ .stray := by
      cases op <;> nofun
    have suffix := Token.Scanned.cons (Token.leads_sign Token.space_blanks sign) operand
    exact (left_ih leftWellFormed blanks (.cons rfl)).append suffix

/-- The tokens of a well-formed tree are what its normal spelling is scanned into. -/
theorem scan_toString {tree : Expr} (wellFormed : tree.WellFormed) :
    Token.scan (toString tree).toList = tree.tokens [] := by
  have scanned := scanned_tokens wellFormed Token.nil_blanks Ends.nil
  have found := scanned.scan_eq Token.nil_blanks
  rw [List.append_nil, chars_tokens, List.nil_append] at found
  exact found

end Expr

namespace Expression

/-- The normal spelling of a well-formed tree is read as the tree with normal spellings for its
texts. -/
theorem parse_toString {tree : Expr} (wellFormed : tree.WellFormed) :
    parse (toString tree) = .ok ⟨toString tree, tree.respelled⟩ := by
  rw [parse_eq_ok_iff, Expr.scan_toString wellFormed, Expr.join_tokens, String.ofList_toList]
  exact ⟨(Expr.derives_tokens wellFormed []).1, rfl⟩

/-- Trees that are read are well-formed. Conversely the normal spelling of a well-formed tree is
read as that tree up to the texts of groups, which are then normal spellings, at every depth. -/
theorem parse_display :
    (∀ text expression, parse text = .ok expression → expression.root.WellFormed) ∧
    ∀ tree : Expr, tree.WellFormed → ∃ expression, parse (toString tree) = .ok expression ∧
      expression.root.withoutTexts = tree.withoutTexts ∧
      ∀ part ∈ expression.parts, part.text = toString part := by
  refine ⟨fun text expression done => ?_, fun tree wellFormed => ?_⟩
  · exact (parse_eq_ok_iff.mp done).1.wellFormed.1
  · refine ⟨⟨toString tree, tree.respelled⟩, parse_toString wellFormed,
      tree.withoutTexts_respelled, fun part member => ?_⟩
    rcases List.mem_cons.mp member with rfl | inner
    · exact tree.display_respelled.symm
    · exact tree.text_of_mem_groups_respelled part inner

/-- A text with its own blanks and capital letters gives a tree, and the tree is read again. -/
theorem parse_display_flagged_group :
    let tree := Expr.binary .add (.flagged (.group "dF" (.dice ⟨.one, .fate true⟩))
      ⟨.keep, some .one⟩) (.int .one)
    parse "( dF )!Keep(1)+1" = .ok ⟨"( dF )!Keep(1)+1", tree⟩ ∧ tree.WellFormed ∧
      ∃ expression, parse (toString tree) = .ok expression ∧
        expression.root.withoutTexts = tree.withoutTexts ∧
        ∀ part ∈ expression.parts, part.text = toString part := by
  intro tree
  have done : parse "( dF )!Keep(1)+1" = .ok ⟨"( dF )!Keep(1)+1", tree⟩ := by decide +kernel
  have wellFormed := parse_display.1 _ _ done
  exact ⟨done, wellFormed, parse_display.2 tree wellFormed⟩

end Expression

end Tabletop
