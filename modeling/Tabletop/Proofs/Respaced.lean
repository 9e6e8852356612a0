import Tabletop.Proofs.Parse
import Tabletop.Proofs.Pieces
import Tabletop.Proofs.Respelling

/-!
# Blanks and case in a text

Between the tokens of a text there may be any blanks, and letters may be written in either case. If
a text is accepted, every text that differs from it in nothing else is accepted, too, and has the
same tree but for the texts it keeps.
-/

namespace Tabletop

open Token (Piece face isSignKind scan)

namespace Token

/-- A text is made of these tokens, with any blanks before each of them and behind the last one, and
with letters in either case. -/
inductive Respelled : List Token → List Char → Prop where
  | ending {blanks : List Char} (isBlank : ∀ char ∈ blanks, char.isWhitespace = true) :
      Respelled [] blanks
  | token {token : Token} {tokens : List Token} {gap slice rest : List Char}
      (isBlank : ∀ char ∈ gap, char.isWhitespace = true)
      (same : token.text.map Char.toLower = slice.map Char.toLower)
      (more : Respelled tokens rest) : Respelled (token :: tokens) (gap ++ slice ++ rest)

/-- A text is made of the tokens that are found in it, whatever their case. -/
theorem Respelled.of_scan {tokens : List Token} {text : List Char}
    (same : tokens.map face = (scan text).map face) : Respelled tokens text := by
  obtain ⟨rest, whole, scanned, isBlank⟩ := exists_scanned text
  generalize scan text = others at *
  subst whole
  induction scanned generalizing tokens with
  | nil =>
    rw [List.map_eq_nil_iff.mp same]
    exact .ending isBlank
  | cons leads _ ih =>
    obtain ⟨token, tokens, rfl, head, tail⟩ := List.map_eq_cons_iff.mp same
    rw [chars_cons, List.append_assoc]
    exact .token leads.blanks (congrArg Prod.snd head) (ih isBlank tail)

/-- A piece is a token again with other blanks before it and its letters in the other case. -/
theorem Piece.respell {token other : Token} {rest : List Char} (piece : token.Piece)
    (leads : token.Leads rest) (blanks : ∀ char ∈ other.gap, char.isWhitespace = true)
    (same : token.face = other.face) : ∃ after, other.Leads after := by
  cases piece with
  | integer isInteger => exact ⟨[], (isInteger.respell same).standsAlone.leads blanks .nil⟩
  | dice isDice => exact ⟨[], (isDice.respell same).standsAlone.leads blanks .nil⟩
  | word isWord => exact ⟨[], (isWord.respell same).standsAlone.leads blanks .nil⟩
  | sign isSign =>
    obtain ⟨char, text, kind, sign⟩ := leads.exists_sign isSign
    have noCase : char.isAlpha = false ∧ char.toLower = char := by
      rcases signKind_cases sign with rfl | rfl | rfl | rfl | rfl | rfl <;> exact ⟨rfl, rfl⟩
    obtain ⟨gap, otherKind, slice⟩ := other
    have kinds : otherKind = token.kind := kind_eq_of_face_eq same
    have lowered : token.text.map Char.toLower = slice.map Char.toLower := congrArg Prod.snd same
    rw [text] at lowered
    obtain ⟨only, rest, rfl, head, tail⟩ := List.map_eq_cons_iff.mp lowered.symm
    rw [kinds, ← kind, Text.eq_of_toLower_eq (head.trans noCase.2) noCase.1,
      List.map_eq_nil_iff.mp tail]
    exact ⟨[], leads_sign blanks sign⟩

/-- A text that is made of the pieces of a phrase can be cut into them. -/
theorem Respelled.exists_tokens {tokens : List Token} {text : List Char}
    (respelled : Respelled tokens text)
    (pieces : ∀ token ∈ tokens, token.Piece ∧ ∃ rest, token.Leads rest) :
    ∃ others ending, text = chars others ++ ending ∧ tokens.map face = others.map face ∧
      (∀ token ∈ others, ∃ rest, token.Leads rest) ∧
      ∀ char ∈ ending, char.isWhitespace = true := by
  induction respelled with
  | @ending blanks isBlank => exact ⟨[], blanks, rfl, rfl, nofun, isBlank⟩
  | @token token tokens gap slice rest isBlank same more ih =>
    obtain ⟨⟨piece, after, leads⟩, later⟩ := List.forall_mem_cons.mp pieces
    obtain ⟨others, ending, rfl, faces, found, endBlank⟩ := ih later
    have sameFace : token.face = face ⟨gap, token.kind, slice⟩ := Prod.ext rfl same
    refine ⟨⟨gap, token.kind, slice⟩ :: others, ending, ?_, ?_, ?_, endBlank⟩
    · rw [chars_cons, List.append_assoc (gap ++ slice)]
    · rw [List.map_cons, List.map_cons, sameFace, faces]
    · exact List.forall_mem_cons.mpr ⟨piece.respell leads isBlank sameFace, found⟩

end Token

namespace Expression

/-- The case of letters does not matter, nor do blanks before, between and behind the tokens. If a
text is accepted, every text that is made of its tokens is accepted, and their trees are the same
but for the texts of groups. -/
theorem parse_respelled {text other : String} {expression : Expression}
    (parsed : parse text = .ok expression)
    (respelled : Token.Respelled (scan text.toList) other.toList) :
    ∃ again, parse other = .ok again ∧
      again.root.withoutTexts = expression.root.withoutTexts := by
  have derives := (parse_eq_ok_iff.mp parsed).1
  obtain ⟨others, ending, whole, same, found, endBlank⟩ := respelled.exists_tokens
    fun token member => ⟨derives.pieces token member, Token.leads_of_mem_scan member⟩
  obtain ⟨tree, again, equal⟩ := derives.respell others same
  have scanned := Token.scanned_of_parted again.pieces (again.parted found) found
    (Token.ends_of_blank endBlank)
  rw [← scanned.scan_eq endBlank, ← whole] at again
  exact ⟨_, parse_of_derives again, equal⟩

/-- A group with a flag is read in capital letters with blanks wherever they may stand. -/
theorem parse_respelled_group :
    let six : Tally := ⟨6, by decide, by decide⟩
    let two : Tally := ⟨2, by decide, by decide⟩
    let kept : Expr := .flagged (.dice ⟨two, .numbered six⟩) ⟨.keep, some .one⟩
    let body : Expr := .binary .add kept (.dice ⟨.one, .fate true⟩)
    let text := "(2d6!keep(1)+df)!adv"
    let other := "\t( 2D6\n!Keep ( 1) + DF\r\n) !ADV "
    parse text = .ok ⟨text, .flagged (.group "2d6!keep(1)+df" body) ⟨.adv, none⟩⟩ ∧
      Token.Respelled (scan text.toList) other.toList ∧
      ∃ again, parse other = .ok again ∧
        again.root.withoutTexts = .flagged (.group "" body) ⟨.adv, none⟩ := by
  intro six two kept body text other
  have parsed :
      parse text = .ok ⟨text, .flagged (.group "2d6!keep(1)+df" body) ⟨.adv, none⟩⟩ := by
    decide +kernel
  have respelled : Token.Respelled (scan text.toList) other.toList :=
    .of_scan (by decide +kernel)
  exact ⟨parsed, respelled, parse_respelled parsed respelled⟩

end Expression

end Tabletop
