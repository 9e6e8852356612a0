import Tabletop.Proofs.Cursor
import Tabletop.Proofs.Locality

/-!
# Fragments and expressions

A fragment is accepted on its own exactly where an expression has it. An integer, a dice term and a
single term are expressions themselves. Flags and operators are taken from an expression around
them, and sides from a dice term.
-/

namespace Tabletop

open Phrase (Derives)
open Token (content face scan)

/-! ## The tokens of small trees -/

namespace Phrase.Derives

variable {tokens : List Token}

/-- A sequence is one operand, or its last operator joins an operand to a sequence. -/
theorem sequence_iff {tree : Expr} :
    Derives .sequence tokens tree ↔ Derives .operand tokens tree ∨
      ∃ before left sign op after right, tokens = before ++ sign :: after ∧
        tree = .binary op left right ∧ Derives .sequence before left ∧
        sign.kind.Signs op ∧ Derives .operand after right := by
  constructor
  · rintro (_ | _ | _ | _ | _ | @⟨first, start, links, derives, signs, operands⟩)
    rcases List.eq_nil_or_concat' links with rfl | ⟨links, link, rfl⟩
    · rw [List.flatMap_nil, List.append_nil]
      exact .inl derives
    · rw [List.forall_mem_append] at signs operands
      have isSign := List.forall_mem_singleton.mp signs.2
      have operand := List.forall_mem_singleton.mp operands.2
      refine .inr ⟨_, _, link.sign, link.op, link.tokens, link.operand, ?_, ?_,
        .sequence derives signs.1 operands.1, isSign, operand⟩
      · rw [List.flatMap_append, List.flatMap_singleton, List.append_assoc]
        rfl
      · rw [List.foldl_append]
        rfl
  · rintro (operand | ⟨before, left, sign, op, after, right, rfl, rfl, sequence, isSign, operand⟩)
    · exact .single operand
    · exact sequence.extend isSign operand

theorem operand_int_iff {score : Score} :
    Derives .operand tokens (.int score) ↔ ∃ token, tokens = [token] ∧ token.IsInteger score := by
  constructor
  · intro operand
    cases operand with
    | integer isInteger => exact ⟨_, rfl, isInteger⟩
    | bare target => cases target
  · rintro ⟨token, rfl, isInteger⟩
    exact .integer isInteger

theorem operand_dice_iff {term : Dice} :
    Derives .operand tokens (.dice term) ↔ ∃ token, tokens = [token] ∧ token.IsDice term := by
  constructor
  · intro operand
    cases operand with
    | bare target =>
      cases target with
      | dice isDice => exact ⟨_, rfl, isDice⟩
  · rintro ⟨token, rfl, isDice⟩
    exact .bare (.dice isDice)

theorem operand_flagged_iff {term : Dice} {flag : Flag} :
    Derives .operand tokens (.flagged (.dice term) flag) ↔
      ∃ token suffix, tokens = token :: suffix ∧ token.IsDice term ∧ Flag.Spelled suffix flag := by
  constructor
  · intro operand
    cases operand with
    | bare target => cases target
    | flagged target spelled =>
      cases target with
      | dice isDice => exact ⟨_, _, rfl, isDice, spelled⟩
  · rintro ⟨token, suffix, rfl, isDice, spelled⟩
    exact .flagged (.dice isDice) spelled

/-- A tree that no operator joins is that of a single operand. -/
theorem sequence_iff_operand {tree : Expr}
    (single : ∀ op left right, tree ≠ .binary op left right) :
    Derives .sequence tokens tree ↔ Derives .operand tokens tree := by
  rw [sequence_iff, or_iff_left]
  rintro ⟨_, left, _, op, _, right, _, same, _⟩
  exact single op left right same

/-- An operator joins two sides, the right one of which is one operand. -/
theorem sequence_binary_iff {op : BinaryOp} {left right : Expr} :
    Derives .sequence tokens (.binary op left right) ↔
      ∃ before sign after, tokens = before ++ sign :: after ∧ Derives .sequence before left ∧
        sign.kind.Signs op ∧ Derives .operand after right := by
  rw [sequence_iff, or_iff_right]
  · constructor
    · rintro ⟨before, _, sign, _, after, _, whole, same, sequence, isSign, operand⟩
      cases same
      exact ⟨before, sign, after, whole, sequence, isSign, operand⟩
    · rintro ⟨before, sign, after, whole, sequence, isSign, operand⟩
      exact ⟨before, left, sign, op, after, right, whole, rfl, sequence, isSign, operand⟩
  · intro operand
    cases operand with
    | bare target => cases target

end Phrase.Derives

open Phrase.Derives

/-! ## Terms -/

/-- The tree is a dice term, with a flag or without. -/
inductive Expr.IsThrow : Expr → Prop where
  | dice (term : Dice) : IsThrow (.dice term)
  | flagged (term : Dice) (flag : Flag) : IsThrow (.flagged (.dice term) flag)

/-- The tree is a dice term with at most one flag, and with an integer modifier or without. -/
inductive Expr.IsTerm : Expr → Prop where
  | bare {tree : Expr} (isThrow : tree.IsThrow) : IsTerm tree
  | modified {tree : Expr} (op : BinaryOp) (isThrow : tree.IsThrow) (score : Score) :
      IsTerm (.binary op tree (.int score))

theorem Expr.IsThrow.sequence_iff {tree : Expr} {tokens : List Token} (isThrow : tree.IsThrow) :
    Derives .sequence tokens tree ↔ Derives .operand tokens tree := by
  cases isThrow <;> exact sequence_iff_operand nofun

namespace Fragment

variable {cursor after : Cursor} {tree target : Expr}

/-- What is read behind the dice of a term and their flag. -/
def modifier (target : Expr) : Reader Expr := do
  if ((← peek?).bind TokenKind.binaryOp?).isSome then
    let op ← operator
    return .binary op target (.int (← integer))
  else
    return target

theorem term_eq : term = (do
    let target := Expr.dice (← dice)
    if (← peek?) = some .flag then modifier (.flagged target (← flag)) else modifier target) :=
  rfl

/-- The target is left as it is, or joined to an integer. -/
theorem modifier_eq_ok_iff (unsigned : ∀ token ∈ cursor.rest, token.Unsigned)
    (ended : after.rest = []) :
    modifier target cursor = .ok (tree, after) ↔
      (tree = target ∧ cursor.Passes [] after) ∨
      ∃ op score sign number, tree = .binary op target (.int score) ∧
        sign.kind.Signs op ∧ number.IsInteger score ∧
        cursor.Passes [sign, number] after := by
  unfold modifier
  constructor
  · intro done
    obtain ⟨next, _, peeked, done⟩ := bind_eq_ok_iff.mp done
    obtain ⟨rfl, rfl⟩ := peek?_eq_ok_iff.mp peeked
    split at done
    · obtain ⟨op, between, joined, done⟩ := bind_eq_ok_iff.mp done
      obtain ⟨sign, isSign, signPasses⟩ := operator_eq_ok_iff.mp joined
      obtain ⟨score, _, numberRead, done⟩ := bind_eq_ok_iff.mp done
      obtain ⟨number, isInteger, numberPasses⟩ :=
        (integer_eq_ok_iff (signPasses.unsigned unsigned)).mp numberRead
      obtain ⟨rfl, rfl⟩ := pure_eq_ok_iff.mp done
      exact .inr ⟨op, score, sign, number, rfl, isSign, isInteger, signPasses.trans numberPasses⟩
    · obtain ⟨rfl, rfl⟩ := pure_eq_ok_iff.mp done
      exact .inl ⟨rfl, .refl cursor⟩
  · rintro (⟨rfl, passes⟩ | ⟨op, score, sign, number, rfl, isSign, isInteger, passes⟩)
    · cases passes.eq_of_nil
      refine bind_eq_ok_iff.mpr ⟨none, cursor, peek?_eq_ok_iff.mpr ⟨?_, rfl⟩, rfl⟩
      rw [ended]
      rfl
    · obtain ⟨between, signPasses, numberPasses⟩ := passes.of_cons
      refine bind_eq_ok_iff.mpr ⟨some sign.kind, cursor, peek?_eq_ok_iff.mpr ⟨?_, rfl⟩, ?_⟩
      · rw [passes.rest_eq]
        rfl
      rw [Option.bind_some, TokenKind.binaryOp?_eq_some_iff.mpr isSign,
        if_pos Option.isSome_some]
      refine bind_eq_ok_iff.mpr ⟨op, between, operator_eq_ok_iff.mpr ⟨sign, isSign, signPasses⟩, ?_⟩
      refine bind_eq_ok_iff.mpr ⟨score, after, ?_, rfl⟩
      exact (integer_eq_ok_iff (signPasses.unsigned unsigned)).mpr ⟨number, isInteger, numberPasses⟩

/-- Behind a target stands an operator, if anything does. -/
theorem head_ne_of_modifier {kind : TokenKind} (unsigned : ∀ token ∈ cursor.rest, token.Unsigned)
    (ended : after.rest = []) (done : modifier target cursor = .ok (tree, after))
    (noSign : kind.binaryOp? = none) : cursor.rest.head?.map Token.kind ≠ some kind := by
  rcases (modifier_eq_ok_iff unsigned ended).mp done with
    ⟨_, passes⟩ | ⟨_, _, sign, _, _, isSign, _, passes⟩
  · rw [passes.eq_of_nil, ended]
    exact nofun
  · rw [passes.rest_eq]
    intro same
    cases same
    cases noSign.symm.trans (TokenKind.binaryOp?_eq_some_iff.mpr isSign)

/-- A term is a throw with what may modify it. -/
theorem term_eq_ok_iff_modifier (unsigned : ∀ token ∈ cursor.rest, token.Unsigned)
    (ended : after.rest = []) :
    term cursor = .ok (tree, after) ↔
      ∃ target tokens between, target.IsThrow ∧ Derives .operand tokens target ∧
        cursor.Passes tokens between ∧ modifier target between = .ok (tree, after) := by
  rw [term_eq]
  constructor
  · intro done
    obtain ⟨first, between, diceRead, done⟩ := bind_eq_ok_iff.mp done
    obtain ⟨token, isDice, dicePasses⟩ := (dice_eq_ok_iff unsigned).mp diceRead
    obtain ⟨next, _, peeked, done⟩ := bind_eq_ok_iff.mp done
    obtain ⟨rfl, rfl⟩ := peek?_eq_ok_iff.mp peeked
    split at done
    · obtain ⟨chosen, between, flagRead, done⟩ := bind_eq_ok_iff.mp done
      obtain ⟨suffix, spelled, flagPasses⟩ :=
        exists_spelled_of_flag (dicePasses.unsigned unsigned) flagRead
      exact ⟨_, _, between, .flagged first chosen, .flagged (.dice isDice) spelled,
        dicePasses.trans flagPasses, done⟩
    · exact ⟨_, _, between, .dice first, .bare (.dice isDice), dicePasses, done⟩
  · rintro ⟨target, tokens, between, isThrow, operand, passes, done⟩
    have head := fun kind => @head_ne_of_modifier _ _ _ _ kind (passes.unsigned unsigned) ended done
    cases isThrow with
    | dice first =>
      obtain ⟨token, rfl, isDice⟩ := operand_dice_iff.mp operand
      refine bind_eq_ok_iff.mpr ⟨first, between, ?_, ?_⟩
      · exact (dice_eq_ok_iff unsigned).mpr ⟨token, isDice, passes⟩
      refine bind_eq_ok_iff.mpr ⟨_, between, peek?_eq_ok_iff.mpr ⟨rfl, rfl⟩, ?_⟩
      rw [if_neg (head .flag rfl)]
      exact done
    | flagged first chosen =>
      obtain ⟨token, suffix, rfl, isDice, spelled⟩ := operand_flagged_iff.mp operand
      obtain ⟨behind, dicePasses, flagPasses⟩ := passes.of_cons
      have flagFollows : behind.rest.head?.map Token.kind = some .flag := by
        rw [flagPasses.rest_eq]
        cases spelled with
        | plain isWord => exact congrArg some isWord.kind_eq
        | counted isWord => exact congrArg some isWord.kind_eq
      refine bind_eq_ok_iff.mpr ⟨first, behind, ?_, ?_⟩
      · exact (dice_eq_ok_iff unsigned).mpr ⟨token, isDice, dicePasses⟩
      refine bind_eq_ok_iff.mpr ⟨_, behind, peek?_eq_ok_iff.mpr ⟨flagFollows, rfl⟩, ?_⟩
      rw [if_pos rfl]
      refine bind_eq_ok_iff.mpr ⟨chosen, between, ?_, done⟩
      exact flag_of_spelled spelled flagPasses (dicePasses.unsigned unsigned) (head .leftParen rfl)

theorem term_eq_ok_iff (unsigned : ∀ token ∈ cursor.rest, token.Unsigned)
    (ended : after.rest = []) :
    term cursor = .ok (tree, after) ↔
      ∃ tokens, (Derives .sequence tokens tree ∧ tree.IsTerm) ∧ cursor.Passes tokens after := by
  rw [term_eq_ok_iff_modifier unsigned ended]
  constructor
  · rintro ⟨target, tokens, between, isThrow, operand, passes, done⟩
    rcases (modifier_eq_ok_iff (passes.unsigned unsigned) ended).mp done with
      ⟨rfl, rest⟩ | ⟨op, score, sign, number, rfl, isSign, isInteger, rest⟩
    · exact ⟨tokens, ⟨.single operand, .bare isThrow⟩, rest.eq_of_nil ▸ passes⟩
    · exact ⟨_, ⟨operand.single.extend isSign (.integer isInteger), .modified op isThrow score⟩,
        passes.trans rest⟩
  · rintro ⟨tokens, ⟨derives, isTerm⟩, passes⟩
    cases isTerm with
    | bare isThrow =>
      refine ⟨tree, tokens, after, isThrow, isThrow.sequence_iff.mp derives, passes, ?_⟩
      exact (modifier_eq_ok_iff (passes.unsigned unsigned) ended).mpr (.inl ⟨rfl, .refl after⟩)
    | @modified target op isThrow score =>
      obtain ⟨before, sign, behind, rfl, sequence, isSign, operand⟩ :=
        sequence_binary_iff.mp derives
      obtain ⟨number, rfl, isInteger⟩ := operand_int_iff.mp operand
      obtain ⟨between, beforePasses, rest⟩ := passes.of_append
      refine ⟨target, before, between, isThrow, isThrow.sequence_iff.mp sequence, beforePasses, ?_⟩
      exact (modifier_eq_ok_iff (beforePasses.unsigned unsigned) ended).mpr
        (.inr ⟨op, score, sign, number, rfl, isSign, isInteger, rest⟩)

theorem parse_term_eq_ok_iff {text : String} :
    parse term text = .ok tree ↔ Derives .sequence (scan text.toList) tree ∧ tree.IsTerm :=
  @parse_eq_ok_iff _ tree term (fun tokens tree => Derives .sequence tokens tree ∧ tree.IsTerm) text
    fun _ _ => term_eq_ok_iff

end Fragment

/-! ## Sides -/

namespace Token

/-- Of a text with a single token and no blank before it, only blanks are left behind the token. -/
theorem exists_of_scan_eq_singleton {text : List Char} {token : Token}
    (single : scan text = [token]) (starts : ∀ char ∈ text.head?, char.isWhitespace = false) :
    ∃ ending, text = token.text ++ ending ∧ ∀ char ∈ ending, char.isWhitespace = true := by
  obtain ⟨ending, whole, scanned, isBlank⟩ := exists_scanned text
  rw [single] at whole scanned
  obtain ⟨_, leads⟩ := scanned.leads token List.mem_cons_self
  have noGap : token.gap = [] := by
    cases gap : token.gap with
    | nil => rfl
    | cons blank gaps =>
      rw [whole, chars_cons, gap] at starts
      have blanks := leads.blanks blank (gap ▸ List.mem_cons_self)
      rw [starts blank rfl] at blanks
      cases blanks
  refine ⟨ending, ?_, isBlank⟩
  rw [whole, chars_cons, noGap]
  exact congrArg (· ++ ending) (List.append_nil token.text)

/-- A token that stands alone is the only one of a text if blanks alone follow it. -/
theorem StandsAlone.scan_eq {kind : TokenKind} {chars ending : List Char}
    (alone : StandsAlone ⟨[], kind, chars⟩) (isBlank : ∀ char ∈ ending, char.isWhitespace = true) :
    scan (chars ++ ending) = [⟨[], kind, chars⟩] := by
  have scanned : Scanned [⟨[], kind, chars⟩] ending :=
    .cons (alone.leads nil_blanks (ends_of_blank isBlank)) .nil
  have whole : chars ++ ending = Token.chars [⟨[], kind, chars⟩] ++ ending :=
    congrArg (· ++ ending) (List.append_nil chars).symm
  rw [whole]
  exact scanned.scan_eq isBlank

end Token

/-- Sides are a token of their own. -/
theorem Sides.Spelled.exists_token {chars : List Char} {sides : Sides}
    (spelled : Spelled chars sides) (starts : ∀ char ∈ chars.head?, char.isWhitespace = false) :
    ∃ kind, Fragment.IsSides ⟨[], kind, chars⟩ sides ∧ Token.StandsAlone ⟨[], kind, chars⟩ := by
  obtain ⟨head, tail, rfl⟩ := List.exists_cons_of_ne_nil spelled.ne_nil
  have start := starts head rfl
  cases spelled with
  | numbered numeral =>
    exact ⟨.integer, ⟨List.mem_cons_self, .numbered numeral⟩, ⟨head, rfl, start⟩,
      fun _ => Token.lexeme_numeral numeral⟩
  | letter lowered =>
    exact ⟨.fate, ⟨List.mem_cons_of_mem _ List.mem_cons_self, .letter lowered⟩, ⟨head, rfl, start⟩,
      fun _ => Token.lexeme_fate (.letter lowered)⟩
  | word lowered =>
    exact ⟨.fate, ⟨List.mem_cons_of_mem _ List.mem_cons_self, .word lowered⟩, ⟨head, rfl, start⟩,
      fun _ => Token.lexeme_fate (.word lowered)⟩

/-- In a dice term that begins with a one and a delimiter, sides are all that follows. -/
theorem Dice.Spelled.sides_of_one {chars rest ending : List Char} {term : Dice}
    (spelled : Spelled chars term) (whole : '1' :: 'd' :: rest = chars ++ ending) :
    ∃ after, rest = after ++ ending ∧ Sides.Spelled after term.sides := by
  cases spelled with
  | @intro before after delimiter _ _ number divides faces =>
    rcases before with _ | ⟨one, _ | ⟨digit, before⟩⟩
    · obtain ⟨rfl, _⟩ := List.cons.inj whole
      exact absurd divides (by decide)
    · exact ⟨after, (List.cons.inj (List.cons.inj whole).2).2, faces⟩
    · obtain ⟨rfl, _⟩ := List.cons.inj (List.cons.inj whole).2
      have digit := number.digits 'd' (List.mem_cons_of_mem one List.mem_cons_self)
      exact absurd digit (by decide)

/-! ## Texts around a fragment -/

/-- The text is accepted as an expression with this tree. -/
def Expression.HasTree (text : String) (tree : Expr) : Prop :=
  ∃ expression, parse text = .ok expression ∧ expression.root = tree

theorem Expression.hasTree_iff {text : String} {tree : Expr} :
    HasTree text tree ↔ Derives .sequence (scan text.toList) tree := by
  constructor
  · rintro ⟨expression, parsed, rfl⟩
    exact (parse_eq_ok_iff.mp parsed).1
  · intro derives
    exact ⟨_, parse_of_derives derives, rfl⟩

namespace Fragment

open Expression (HasTree hasTree_iff)

/-- A single die with six faces. -/
def sixSided : Dice := ⟨.one, .numbered ⟨6, by decide, by decide⟩⟩

/-- Behind a dice term the tokens of a text stand as they do alone. -/
theorem scan_behind_dice (text : String) :
    ∃ token tokens, scan ("1d6 " ++ text).toList = token :: tokens ∧ token.IsDice sixSided ∧
      tokens.map face = (scan text.toList).map face := by
  let first : Token := ⟨[], .dice, "1d6".toList⟩
  have same : (scan ("1d6 " ++ text).toList).map content =
      (first :: scan text.toList).map content := Token.contents_append "1d6" text
  have unsigned : first.Unsigned := fun _ => (by decide : "1d6".toList.head? ≠ some '+')
  have isDice : first.IsDice sixSided := (Token.readDice_eq_ok_iff rfl unsigned).mp rfl
  obtain ⟨token, tokens, scanned, head, tail⟩ :=
    List.map_eq_cons_iff.mp (Token.map_face_of_map_content same)
  exact ⟨token, tokens, scanned, isDice.respell head.symm, tail⟩

theorem parse_flag_eq_ok_iff_hasTree (text : String) (found : Flag) :
    parse flag text = .ok found ↔ HasTree ("1d6 " ++ text) (.flagged (.dice sixSided) found) := by
  obtain ⟨token, tokens, scanned, isDice, same⟩ := scan_behind_dice text
  rw [parse_flag_eq_ok_iff, hasTree_iff, scanned, Expr.IsThrow.sequence_iff (.flagged _ _),
    operand_flagged_iff]
  constructor
  · intro spelled
    exact ⟨token, tokens, rfl, isDice, spelled.respell same.symm⟩
  · rintro ⟨_, _, equal, _, spelled⟩
    cases equal
    exact spelled.respell same

/-- Between integers the tokens of a text stand as they do alone. -/
theorem scan_between_integers (text : String) :
    ∃ first tokens last, scan ("1 " ++ text ++ " 1").toList = first :: (tokens ++ [last]) ∧
      first.IsInteger .one ∧ last.IsInteger .one ∧
      tokens.map face = (scan text.toList).map face := by
  let one : Token := ⟨[], .integer, ['1']⟩
  have same : (scan ("1 " ++ text ++ " 1").toList).map content =
      (one :: (scan text.toList ++ [one])).map content := by
    have right : "1 " ++ text ++ " 1" = "1" ++ " " ++ text ++ " " ++ "1" :=
      (@String.append_assoc ("1 " ++ text) " " "1").symm
    have split := Token.contents_append ("1" ++ " " ++ text) "1"
    rw [Token.contents_append "1" text, ← right] at split
    rw [List.map_cons, List.map_append]
    exact split
  obtain ⟨first, rest, scanned, head, tail⟩ :=
    List.map_eq_cons_iff.mp (Token.map_face_of_map_content same)
  rw [List.map_append] at tail
  obtain ⟨tokens, ending, rfl, middle, tail⟩ := List.map_eq_append_iff.mp tail
  obtain ⟨last, rfl, lastSame⟩ := List.map_eq_singleton_iff.mp tail
  exact ⟨first, tokens, last, scanned, Token.isInteger_one.respell head.symm,
    Token.isInteger_one.respell lastSame.symm, middle⟩

theorem parse_operator_eq_ok_iff_hasTree (text : String) (op : BinaryOp) :
    parse operator text = .ok op ↔
      HasTree ("1 " ++ text ++ " 1") (.binary op (.int .one) (.int .one)) := by
  obtain ⟨first, tokens, last, scanned, isFirst, isLast, same⟩ := scan_between_integers text
  rw [parse_operator_eq_ok_iff, hasTree_iff, scanned, sequence_binary_iff]
  constructor
  · rintro ⟨token, single, isSign⟩
    rw [single] at same
    obtain ⟨sign, rfl, signSame⟩ := List.map_eq_singleton_iff.mp same
    have signKind := Token.kind_eq_of_face_eq signSame.symm
    exact ⟨[first], sign, [last], rfl, .single (.integer isFirst), signKind ▸ isSign,
      .integer isLast⟩
  · rintro ⟨before, sign, after, whole, sequence, isSign, operand⟩
    rw [@sequence_iff_operand before (.int .one) nofun, operand_int_iff] at sequence
    rw [operand_int_iff] at operand
    obtain ⟨left, rfl, _⟩ := sequence
    obtain ⟨right, rfl, _⟩ := operand
    have rest : tokens ++ [last] = [sign] ++ [right] := (List.cons.inj whole).2
    obtain ⟨rfl, _⟩ := List.append_inj' rest rfl
    obtain ⟨token, single, tokenSame⟩ := List.map_eq_singleton_iff.mp same.symm
    have tokenKind := Token.kind_eq_of_face_eq tokenSame.symm
    exact ⟨token, single, tokenKind ▸ isSign⟩

theorem parse_sides_eq_ok_iff_dice (text : String)
    (starts : ∀ char ∈ text.toList.head?, char.isWhitespace = false) (faces : Sides) :
    parse sides text = .ok faces ↔ parse dice ("1d" ++ text) = .ok ⟨.one, faces⟩ := by
  have longer : ("1d" ++ text).toList = '1' :: 'd' :: text.toList := by
    rw [String.toList_append]
    rfl
  rw [parse_sides_eq_ok_iff, parse_dice_eq_ok_iff, longer]
  constructor
  · rintro ⟨token, single, kind, spelled⟩
    obtain ⟨ending, whole, isBlank⟩ := Token.exists_of_scan_eq_singleton single starts
    have isDice : Token.IsDice ⟨[], .dice, '1' :: 'd' :: token.text⟩ ⟨.one, faces⟩ :=
      ⟨rfl, @Dice.Spelled.intro ['1'] token.text 'd' .one faces (.numeral Token.denotes_one)
        (by decide) spelled⟩
    refine ⟨_, ?_, isDice⟩
    rw [whole]
    exact isDice.standsAlone.scan_eq isBlank
  · rintro ⟨token, single, isDice⟩
    have digitFirst : ∀ char ∈ ('1' :: 'd' :: text.toList).head?, char.isWhitespace = false := by
      intro char same
      cases same
      rfl
    obtain ⟨ending, whole, isBlank⟩ := Token.exists_of_scan_eq_singleton single digitFirst
    obtain ⟨after, rest, spelled⟩ := isDice.spelled.sides_of_one whole
    have afterStarts : ∀ char ∈ after.head?, char.isWhitespace = false := by
      rw [rest, List.head?_append_of_ne_nil after spelled.ne_nil] at starts
      exact starts
    obtain ⟨kind, isSides, alone⟩ := spelled.exists_token afterStarts
    exact ⟨_, rest ▸ alone.scan_eq isBlank, isSides⟩

/-- Every text is a fragment exactly if it is accepted where an expression has that fragment, with
the same value. Integers, dice terms and terms are expressions by themselves. A flag is accepted
behind a dice term, an operator between two integers, and sides, if no blank comes before them,
behind the delimiter of a dice term. -/
theorem parse_agrees (text : String) :
    (∀ score, parse integer text = .ok score ↔ HasTree text (.int score)) ∧
    (∀ found, parse dice text = .ok found ↔ HasTree text (.dice found)) ∧
    (∀ found, parse flag text = .ok found ↔
      HasTree ("1d6 " ++ text) (.flagged (.dice sixSided) found)) ∧
    (∀ op, parse operator text = .ok op ↔
      HasTree ("1 " ++ text ++ " 1") (.binary op (.int .one) (.int .one))) ∧
    (∀ tree, parse term text = .ok tree ↔ HasTree text tree ∧ tree.IsTerm) ∧
    ((∀ char ∈ text.toList.head?, char.isWhitespace = false) →
      ∀ faces, parse sides text = .ok faces ↔ parse dice ("1d" ++ text) = .ok ⟨.one, faces⟩) := by
  refine ⟨fun score => ?_, fun found => ?_, parse_flag_eq_ok_iff_hasTree text,
    parse_operator_eq_ok_iff_hasTree text, fun tree => ?_, parse_sides_eq_ok_iff_dice text⟩
  · rw [parse_integer_eq_ok_iff, hasTree_iff, @sequence_iff_operand _ (.int score) nofun,
      operand_int_iff]
  · rw [parse_dice_eq_ok_iff, hasTree_iff, Expr.IsThrow.sequence_iff (.dice found),
      operand_dice_iff]
  · rw [parse_term_eq_ok_iff, hasTree_iff]

/-- Fate sides in capital letters are those of a dice term, even if a blank follows. -/
theorem parse_agrees_fate :
    (∀ char ∈ "FATE ".toList.head?, char.isWhitespace = false) ∧
      parse sides "FATE " = .ok (.fate false) ∧
      parse dice "1dFATE " = .ok ⟨.one, .fate false⟩ := by
  have starts : ∀ char ∈ "FATE ".toList.head?, char.isWhitespace = false := by
    intro char first
    cases first
    rfl
  have read : parse sides "FATE " = .ok (.fate false) := by decide +kernel
  exact ⟨starts, read, ((parse_agrees "FATE ").2.2.2.2.2 starts _).mp read⟩

end Fragment

end Tabletop
