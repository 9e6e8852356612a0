import Tabletop.Proofs.Pieces
import Tabletop.Proofs.RoundTrip

/-!
# Parts of an expression

An expression keeps the text that it was read from, and so does each group in it. The text of a part
is a piece of the whole text, cut at tokens, and it is read as that part again: the tokens in it are
found as they were in the whole text, and none of them depends on what stood around it.
-/

namespace Tabletop

open Phrase (Derives)

/-! ## Tokens without what stands before them -/

namespace Token

/-- The tokens without the blanks before the first of them. -/
def unindent : List Token → List Token
  | [] => []
  | first :: rest => { first with gap := [] } :: rest

theorem chars_unindent (tokens : List Token) : chars (unindent tokens) = join tokens := by
  cases tokens <;> rfl

theorem join_unindent (tokens : List Token) : join (unindent tokens) = join tokens := by
  cases tokens <;> rfl

theorem unindent_append {left : List Token} (nonempty : left ≠ []) (right : List Token) :
    unindent (left ++ right) = unindent left ++ right := by
  cases left with
  | nil => exact absurd rfl nonempty
  | cons token left => rfl

theorem found_unindent {tokens : List Token} (found : ∀ token ∈ tokens, ∃ rest, token.Leads rest) :
    ∀ token ∈ unindent tokens, ∃ rest, token.Leads rest := by
  cases tokens with
  | nil => exact found
  | cons first rest =>
    obtain ⟨⟨after, leads⟩, tail⟩ := List.forall_mem_cons.mp found
    exact List.forall_mem_cons.mpr ⟨⟨after, nil_blanks, leads.starts, leads.lexeme_eq⟩, tail⟩

/-- The text from the first to the last token stands in the text of all. -/
theorem join_infix {body tokens : List Token} (part : body <:+: tokens) :
    join body <:+: chars tokens := by
  obtain ⟨before, after, rfl⟩ := part
  cases body with
  | nil => exact List.nil_infix
  | cons first rest =>
    have whole : chars (before ++ first :: rest ++ after) =
        chars before ++ first.gap ++ join (first :: rest) ++ chars after := by
      rw [chars_append, chars_append, chars_cons, join]
      simp only [List.append_assoc]
    rw [whole]
    exact List.infix_append _ _ _

/-- What the text of some tokens begins with belongs to one of them. -/
theorem exists_mem_of_head?_join {tokens : List Token} {char : Char}
    (nonempty : ∀ token ∈ tokens, token.text ≠ []) (first : char ∈ (join tokens).head?) :
    ∃ token ∈ tokens, char ∈ token.text := by
  cases tokens with
  | nil => cases first
  | cons token tokens =>
    obtain ⟨head, tail, text⟩ := List.exists_cons_of_ne_nil (nonempty token List.mem_cons_self)
    rw [join, text] at first
    cases first
    exact ⟨token, List.mem_cons_self, text ▸ List.mem_cons_self⟩

/-- What the text of some tokens ends with belongs to one of them. -/
theorem exists_mem_of_getLast?_join {tokens : List Token} {char : Char}
    (nonempty : ∀ token ∈ tokens, token.text ≠ []) (final : char ∈ (join tokens).getLast?) :
    ∃ token ∈ tokens, char ∈ token.text := by
  induction tokens using List.reverseRecOn with
  | nil => cases final
  | append_singleton tokens token _ =>
    have member : token ∈ tokens ++ [token] := List.mem_append_right _ (List.mem_singleton_self _)
    obtain ⟨before, whole⟩ : ∃ before, join (tokens ++ [token]) = before ++ token.text := by
      cases tokens with
      | nil => exact ⟨[], List.append_nil _⟩
      | cons first rest =>
        refine ⟨first.text ++ chars rest ++ token.gap, ?_⟩
        rw [List.cons_append, join, chars_append, chars_cons]
        simp [chars]
    rw [whole, List.getLast?_append_of_ne_nil _ (nonempty token member)] at final
    exact ⟨token, member, List.mem_of_getLast? final⟩

end Token

namespace Phrase

theorem Derives.ne_nil {phrase : Phrase} {tokens : List Token} {tree : Expr}
    (derives : Derives phrase tokens tree) : tokens ≠ [] := by
  induction derives with
  | dice | group | integer => exact List.cons_ne_nil _ _
  | bare target ih => exact ih
  | flagged target spelled ih => exact List.append_ne_nil_of_left_ne_nil ih _
  | sequence first signs operands firstIh operandsIh =>
    exact List.append_ne_nil_of_left_ne_nil firstIh _

/-- The blanks before a phrase are no part of its tree, nor of any text in it. -/
theorem Derives.unindent {phrase : Phrase} {tokens : List Token} {tree : Expr}
    (derives : Derives phrase tokens tree) : Derives phrase (Token.unindent tokens) tree := by
  induction derives with
  | dice isDice => exact .dice ⟨isDice.kind_eq, isDice.spelled⟩
  | group opens inner closes ih => exact .group opens inner closes
  | integer isInteger => exact .integer ⟨isInteger.kind_eq, isInteger.numeral⟩
  | bare target ih => exact .bare ih
  | flagged target spelled ih =>
    rw [Token.unindent_append target.ne_nil]
    exact .flagged ih spelled
  | sequence first signs operands firstIh operandsIh =>
    rw [Token.unindent_append first.ne_nil]
    exact .sequence firstIh signs operands

end Phrase

/-! ## Groups and their tokens -/

theorem Link.groups_foldl_attach (links : List Link) (tree : Expr) :
    (links.foldl attach tree).groups = tree.groups ++ links.flatMap (·.operand.groups) := by
  induction links generalizing tree with
  | nil => simp
  | cons link links ih =>
    rw [List.foldl_cons, ih]
    simp [attach, Expr.groups]

/-- Each group of a phrase is derived from some of its tokens that stand together, and keeps the
text that these hold. -/
theorem Phrase.Derives.exists_of_mem_groups {phrase : Phrase} {tokens : List Token} {tree : Expr}
    (derives : Derives phrase tokens tree) :
    ∀ part ∈ tree.groups, ∃ body, body <:+: tokens ∧ Derives .sequence body part.root ∧
      part.text = String.ofList (Token.join body) := by
  induction derives with
  | dice | integer => exact nofun
  | @group left right body tree opens inner closes ih =>
    have inside : body <:+: left :: (body ++ [right]) :=
      List.infix_cons (List.prefix_append body [right]).isInfix
    refine List.forall_mem_cons.mpr ⟨⟨body, inside, inner, rfl⟩, fun part member => ?_⟩
    obtain ⟨deeper, within, derived⟩ := ih part member
    exact ⟨deeper, within.trans inside, derived⟩
  | bare target ih => exact ih
  | @flagged tokens suffix _ _ target spelled ih =>
    intro part member
    obtain ⟨body, within, derived⟩ := ih part member
    exact ⟨body, within.trans (List.prefix_append tokens suffix).isInfix, derived⟩
  | @sequence tokens _ links first signs operands firstIh operandsIh =>
    rw [Link.groups_foldl_attach, List.forall_mem_append]
    refine ⟨fun part member => ?_, fun part member => ?_⟩
    · obtain ⟨body, within, derived⟩ := firstIh part member
      exact ⟨body, within.trans (List.prefix_append _ _).isInfix, derived⟩
    · obtain ⟨link, isLink, inner⟩ := List.mem_flatMap.mp member
      obtain ⟨body, within, derived⟩ := operandsIh link isLink part inner
      have operand : link.tokens <:+: link.written := (List.suffix_cons _ _).isInfix
      have written : link.written <:+: links.flatMap Link.written := by
        exact List.infix_of_mem_flatten (List.mem_map_of_mem isLink)
      exact ⟨body, ((within.trans operand).trans written).trans
        (List.suffix_append _ _).isInfix, derived⟩

namespace Expression

/-- Every part of an accepted text is derived from some of its tokens that stand together. -/
theorem exists_tokens_of_mem_parts {text : String} {expression part : Expression}
    (parsed : parse text = .ok expression) (member : part ∈ expression.parts) :
    ∃ body, body <:+: Token.scan text.toList ∧ Derives .sequence body part.root ∧
      part.text = String.ofList (Token.join body) := by
  obtain ⟨derives, whole⟩ := parse_eq_ok_iff.mp parsed
  rcases List.mem_cons.mp member with rfl | inner
  · exact ⟨_, List.infix_rfl, derives, whole⟩
  · exact derives.exists_of_mem_groups part inner

/-- A phrase is read as its tree where it is the whole text. -/
theorem parse_join {tokens : List Token} {tree : Expr} (derives : Derives .sequence tokens tree)
    (found : ∀ token ∈ tokens, ∃ rest, token.Leads rest) :
    parse (String.ofList (Token.join tokens)) = .ok ⟨String.ofList (Token.join tokens), tree⟩ := by
  have again := derives.unindent
  have foundAgain := Token.found_unindent found
  have scanned := Token.scanned_of_parted again.pieces (again.parted foundAgain) foundAgain .nil
  have scan_eq := scanned.scan_eq Token.nil_blanks
  rw [List.append_nil, Token.chars_unindent] at scan_eq
  rw [parse_eq_ok_iff, String.toList_ofList, scan_eq, Token.join_unindent]
  exact ⟨again, rfl⟩

/-- Each part of an accepted text, the whole expression and every group at any depth, has a text of
its own. It stands somewhere in the accepted text, has no blank of any alphabet at either end, and
is read as the same part: the same tree with the same text in every group. -/
theorem parse_text_of_mem_parts {text : String} {expression part : Expression}
    (parsed : parse text = .ok expression) (member : part ∈ expression.parts) :
    (∃ before after, text = before ++ part.text ++ after) ∧
      (∀ char ∈ part.text.toList.head?, Text.isBlank char = false) ∧
      (∀ char ∈ part.text.toList.getLast?, Text.isBlank char = false) ∧
      parse part.text = .ok part := by
  obtain ⟨body, within, derives, same⟩ := exists_tokens_of_mem_parts parsed member
  have found : ∀ token ∈ body, ∃ rest, token.Leads rest := fun token inside =>
    Token.leads_of_mem_scan (within.subset inside)
  have nonempty : ∀ token ∈ body, token.text ≠ [] := fun token inside =>
    (found token inside).elim fun _ leads => leads.text_ne_nil
  have visible : ∀ char, (∃ token ∈ body, char ∈ token.text) → Text.isBlank char = false := by
    rintro char ⟨token, inside, spelled⟩
    obtain ⟨rest, leads⟩ := found token inside
    exact (derives.pieces token inside).not_blank leads char spelled
  obtain ⟨partText, root⟩ := part
  dsimp only at derives same ⊢
  subst same
  rw [String.toList_ofList]
  refine ⟨?_, fun char first => ?_, fun char final => ?_, parse_join derives found⟩
  · obtain ⟨ending, whole, _⟩ := Token.exists_scanned text.toList
    obtain ⟨before, after, cut⟩ := Token.join_infix within
    refine ⟨String.ofList before, String.ofList (after ++ ending), ?_⟩
    rw [← String.toList_inj, whole, ← cut]
    simp only [String.toList_append, String.toList_ofList, List.append_assoc]
  · exact visible char (Token.exists_mem_of_head?_join nonempty first)
  · exact visible char (Token.exists_mem_of_getLast?_join nonempty final)

/-- A group inside a group keeps the blanks and the capital letters between its parentheses, but not
the blanks next to them. -/
theorem parse_text_of_mem_parts_nested :
    let six : Tally := ⟨6, by decide, by decide⟩
    let inner : Expression := ⟨"D6 *\t2", .binary .multiply (.dice ⟨.one, .numbered six⟩)
      (.int ⟨2, by decide⟩)⟩
    let outer : Expression := ⟨"( D6 *\t2)!Keep", .flagged (.group inner.text inner.root)
      ⟨.keep, none⟩⟩
    let expression : Expression := ⟨"(( D6 *\t2)!Keep )- 1",
      .binary .subtract (.group outer.text outer.root) (.int .one)⟩
    parse " (( D6 *\t2)!Keep )- 1\n" = .ok expression ∧ inner ∈ expression.parts ∧
      (∃ before after, " (( D6 *\t2)!Keep )- 1\n" = before ++ inner.text ++ after) ∧
      (∀ char ∈ inner.text.toList.head?, Text.isBlank char = false) ∧
      (∀ char ∈ inner.text.toList.getLast?, Text.isBlank char = false) ∧
      parse inner.text = .ok inner := by
  intro six inner outer expression
  have parsed : parse " (( D6 *\t2)!Keep )- 1\n" = .ok expression := by decide +kernel
  have member : inner ∈ expression.parts := by decide
  exact ⟨parsed, member, parse_text_of_mem_parts parsed member⟩

end Expression

end Tabletop
