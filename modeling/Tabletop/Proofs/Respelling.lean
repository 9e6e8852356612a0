import Tabletop.Proofs.Grammar

/-!
# Other spellings of the same tokens

Neither the blanks before a token nor the case of its letters matter to the grammar. Tokens that
differ in nothing else are derived as the same phrases, and their trees differ in the texts of
groups at most.
-/

namespace Tabletop

open Phrase (Derives)

/-- The tree without the texts of its groups. -/
def Expr.withoutTexts : Expr → Expr
  | .group _ body => .group "" body.withoutTexts
  | .flagged target flag => .flagged target.withoutTexts flag
  | .binary op left right => .binary op left.withoutTexts right.withoutTexts
  | tree => tree

/-! ## Characters in either case -/

/-- Digits have no case. -/
theorem Numeral.Denotes.respell {chars others : List Char} {n : Nat} (numeral : Denotes chars n)
    (same : chars.map Char.toLower = others.map Char.toLower) : Denotes others n := by
  suffices equal : others = chars from equal.symm ▸ numeral
  have digits := numeral.digits
  clear numeral
  induction chars generalizing others with
  | nil => exact List.map_eq_nil_iff.mp same.symm
  | cons char chars ih =>
    obtain ⟨other, rest, rfl, head, tail⟩ := List.map_eq_cons_iff.mp same.symm
    have digit := digits char List.mem_cons_self
    have noLetter : char.isAlpha = false := by
      by_contra letter
      rw [Bool.not_eq_false] at letter
      rw [Text.isDigit_eq_false_of_isAlpha letter] at digit
      cases digit
    have lowered : char.toLower = char := by
      apply Char.toLower_eq_of_not_isUpper
      intro upper
      rw [Char.isAlpha, upper, Bool.true_or] at noLetter
      cases noLetter
    rw [Text.eq_of_toLower_eq (head.trans lowered) noLetter,
      ih tail.symm fun char member => digits char (List.mem_cons_of_mem _ member)]

theorem Dice.RollsSpelled.respell {chars others : List Char} {rolls : Tally}
    (spelled : RollsSpelled chars rolls)
    (same : chars.map Char.toLower = others.map Char.toLower) : RollsSpelled others rolls := by
  cases spelled with
  | absent =>
    rw [List.map_eq_nil_iff.mp same.symm]
    exact .absent
  | numeral numeral => exact .numeral (numeral.respell same)

theorem Sides.Spelled.respell {chars others : List Char} {sides : Sides}
    (spelled : Spelled chars sides)
    (same : chars.map Char.toLower = others.map Char.toLower) : Spelled others sides := by
  cases spelled with
  | numbered numeral => exact .numbered (numeral.respell same)
  | letter lowered => exact .letter (same ▸ lowered)
  | word lowered => exact .word (same ▸ lowered)

theorem Dice.Spelled.respell {chars others : List Char} {term : Dice} (spelled : Spelled chars term)
    (same : chars.map Char.toLower = others.map Char.toLower) : Spelled others term := by
  cases spelled with
  | intro number divides faces =>
    rw [List.map_append, List.map_cons] at same
    obtain ⟨before, rest, rfl, first, others⟩ := List.map_eq_append_iff.mp same.symm
    obtain ⟨delimiter, after, rfl, middle, last⟩ := List.map_eq_cons_iff.mp others
    have again : delimiter = 'd' ∨ delimiter = 'D' := by
      rw [← Dice.isDelimiter_iff, Dice.isDelimiter_iff_toLower] at divides ⊢
      rw [middle, divides]
    exact .intro (number.respell first.symm) again (faces.respell last.symm)

/-! ## Tokens and phrases -/

namespace Token

/-- A token without the blanks before it and the case of its letters. -/
def face (token : Token) : TokenKind × List Char :=
  (token.kind, token.text.map Char.toLower)

variable {token other : Token}

theorem kind_eq_of_face_eq (same : token.face = other.face) : other.kind = token.kind :=
  (congrArg Prod.fst same).symm

theorem IsInteger.respell {score : Score} (isInteger : token.IsInteger score)
    (same : token.face = other.face) : other.IsInteger score := by
  obtain ⟨n, numeral, bounds⟩ := isInteger.numeral
  exact ⟨(kind_eq_of_face_eq same).trans isInteger.kind_eq, n,
    numeral.respell (congrArg Prod.snd same), bounds⟩

theorem IsDice.respell {term : Dice} (isDice : token.IsDice term)
    (same : token.face = other.face) : other.IsDice term :=
  ⟨(kind_eq_of_face_eq same).trans isDice.kind_eq,
    isDice.spelled.respell (congrArg Prod.snd same)⟩

theorem IsWord.respell {word : FlagWord} (isWord : token.IsWord word)
    (same : token.face = other.face) : other.IsWord word :=
  ⟨(kind_eq_of_face_eq same).trans isWord.kind_eq,
    (congrArg Prod.snd same).symm.trans isWord.spelled⟩

end Token

open Token (face)

theorem Flag.Spelled.respell {tokens others : List Token} {flag : Flag}
    (spelled : Spelled tokens flag) (same : tokens.map face = others.map face) :
    Spelled others flag := by
  cases spelled with
  | plain isWord =>
    obtain ⟨token, rest, rfl, head, tail⟩ := List.map_eq_cons_iff.mp same.symm
    rw [List.map_eq_nil_iff.mp tail]
    exact .plain (isWord.respell head.symm)
  | counted isWord takesCount opens isCount closes =>
    obtain ⟨token, rest, rfl, wordSame, same⟩ := List.map_eq_cons_iff.mp same.symm
    obtain ⟨left, rest, rfl, leftSame, same⟩ := List.map_eq_cons_iff.mp same
    obtain ⟨number, rest, rfl, numberSame, same⟩ := List.map_eq_cons_iff.mp same
    obtain ⟨right, rest, rfl, rightSame, same⟩ := List.map_eq_cons_iff.mp same
    rw [List.map_eq_nil_iff.mp same]
    exact .counted (isWord.respell wordSame.symm) takesCount
      ((congrArg Prod.fst leftSame).trans opens) (isCount.respell numberSame.symm)
      ((congrArg Prod.fst rightSame).trans closes)

namespace Phrase

/-- In every other spelling the tokens are the same phrase, of the same tree up to texts. -/
def Respells (phrase : Phrase) (tokens : List Token) (tree : Expr) : Prop :=
  ∀ others : List Token, tokens.map face = others.map face →
    ∃ other, Derives phrase others other ∧ other.withoutTexts = tree.withoutTexts

/-- Links that are spelled in another way are links again, and make the same trees up to texts. -/
theorem respell_links {links : List Link}
    (signs : ∀ link ∈ links, link.sign.kind.Signs link.op)
    (operands : ∀ link ∈ links, Respells .operand link.tokens link.operand) {others : List Token}
    (same : (links.flatMap Link.written).map face = others.map face) :
    ∃ more : List Link, others = more.flatMap Link.written ∧
      (∀ link ∈ more, link.sign.kind.Signs link.op) ∧
      (∀ link ∈ more, Derives .operand link.tokens link.operand) ∧
      ∀ left right : Expr, left.withoutTexts = right.withoutTexts →
        (more.foldl Link.attach left).withoutTexts =
          (links.foldl Link.attach right).withoutTexts := by
  induction links generalizing others with
  | nil =>
    rw [List.map_eq_nil_iff.mp same.symm]
    exact ⟨[], rfl, nofun, nofun, fun _ _ equal => equal⟩
  | cons link links ih =>
    rw [List.flatMap_cons, List.map_append] at same
    obtain ⟨written, rest, rfl, head, tail⟩ := List.map_eq_append_iff.mp same.symm
    obtain ⟨sign, tokens, rfl, signSame, tokensSame⟩ := List.map_eq_cons_iff.mp head
    obtain ⟨operand, derives, equal⟩ := operands link List.mem_cons_self tokens tokensSame.symm
    obtain ⟨more, rfl, moreSigns, moreOperands, attached⟩ :=
      ih (fun other member => signs other (List.mem_cons_of_mem link member))
        (fun other member => operands other (List.mem_cons_of_mem link member)) tail.symm
    have isSign : sign.kind.Signs link.op := by
      rw [Token.kind_eq_of_face_eq signSame.symm]
      exact signs link List.mem_cons_self
    refine ⟨⟨sign, link.op, tokens, operand⟩ :: more, rfl, ?_, ?_, ?_⟩
    · exact List.forall_mem_cons.mpr ⟨isSign, moreSigns⟩
    · exact List.forall_mem_cons.mpr ⟨derives, moreOperands⟩
    · intro left right sides
      apply attached
      simp only [Link.attach, Expr.withoutTexts, sides, equal]

/-- The grammar derives all spellings of a phrase. -/
theorem Derives.respell {phrase : Phrase} {tokens : List Token} {tree : Expr}
    (derives : Derives phrase tokens tree) : phrase.Respells tokens tree := by
  induction derives with
  | dice isDice =>
    intro others same
    obtain ⟨token, rest, rfl, head, tail⟩ := List.map_eq_cons_iff.mp same.symm
    rw [List.map_eq_nil_iff.mp tail]
    exact ⟨_, .dice (isDice.respell head.symm), rfl⟩
  | group opens inner closes ih =>
    intro others same
    obtain ⟨left, rest, rfl, leftSame, same⟩ := List.map_eq_cons_iff.mp same.symm
    rw [List.map_append] at same
    obtain ⟨body, rest, rfl, bodySame, same⟩ := List.map_eq_append_iff.mp same
    obtain ⟨right, rest, rfl, rightSame, same⟩ := List.map_eq_cons_iff.mp same
    rw [List.map_eq_nil_iff.mp same]
    obtain ⟨tree, derives, equal⟩ := ih body bodySame.symm
    refine ⟨_, .group ((congrArg Prod.fst leftSame).trans opens) derives
      ((congrArg Prod.fst rightSame).trans closes), ?_⟩
    simp only [Expr.withoutTexts, equal]
  | integer isInteger =>
    intro others same
    obtain ⟨token, rest, rfl, head, tail⟩ := List.map_eq_cons_iff.mp same.symm
    rw [List.map_eq_nil_iff.mp tail]
    exact ⟨_, .integer (isInteger.respell head.symm), rfl⟩
  | bare target ih =>
    intro others same
    obtain ⟨tree, derives, equal⟩ := ih others same
    exact ⟨tree, .bare derives, equal⟩
  | flagged target spelled ih =>
    intro others same
    rw [List.map_append] at same
    obtain ⟨tokens, suffix, rfl, targetSame, flagSame⟩ := List.map_eq_append_iff.mp same.symm
    obtain ⟨tree, derives, equal⟩ := ih tokens targetSame.symm
    refine ⟨_, .flagged derives (spelled.respell flagSame.symm), ?_⟩
    simp only [Expr.withoutTexts, equal]
  | sequence first signs operands firstIh operandsIh =>
    intro others same
    rw [List.map_append] at same
    obtain ⟨tokens, rest, rfl, firstSame, restSame⟩ := List.map_eq_append_iff.mp same.symm
    obtain ⟨tree, derives, equal⟩ := firstIh tokens firstSame.symm
    obtain ⟨links, rfl, moreSigns, moreOperands, attached⟩ :=
      respell_links signs operandsIh restSame.symm
    exact ⟨_, .sequence derives moreSigns moreOperands, attached tree _ equal⟩

end Phrase

end Tabletop
