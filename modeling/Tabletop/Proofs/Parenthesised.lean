import Tabletop.Proofs.Interchange
import Tabletop.Proofs.Parts

/-!
# Parentheses around the beginning of an expression

All operators have one level of precedence and group to the left. So parentheses around the first
operands of an expression, with the operators between them, ask for nothing that is not done anyway:
the text is accepted with them, and both expressions are interchangeable in an evaluation.
-/

namespace Tabletop

open Phrase (Derives)

namespace Token

/-- The blanks before the first of the tokens. -/
def indent : List Token → List Char
  | [] => []
  | first :: _ => first.gap

theorem indent_append_join (tokens : List Token) : indent tokens ++ join tokens = chars tokens := by
  cases tokens with
  | nil => rfl
  | cons first rest =>
    rw [chars_cons, List.append_assoc]
    rfl

theorem indent_blanks {tokens : List Token} (found : ∀ token ∈ tokens, ∃ rest, token.Leads rest) :
    ∀ char ∈ indent tokens, char.isWhitespace = true := by
  cases tokens with
  | nil => exact nil_blanks
  | cons first rest =>
    obtain ⟨_, leads⟩ := found first List.mem_cons_self
    exact leads.blanks

/-- The last of the tokens are scanned where the others have been. -/
theorem Scanned.of_append {left right : List Token} {rest : List Char}
    (scanned : Scanned (left ++ right) rest) : Scanned right rest := by
  induction left with
  | nil => exact scanned
  | cons token left ih =>
    cases scanned with
    | cons leads more => exact ih more

/-- The tokens in parentheses, the first of which takes the blanks before the tokens. -/
def enclose (tokens : List Token) : List Token :=
  ⟨indent tokens, .leftParen, ['(']⟩ :: (unindent tokens ++ [⟨[], .rightParen, [')']⟩])

theorem chars_enclose (tokens : List Token) :
    chars (enclose tokens) = indent tokens ++ '(' :: join tokens ++ [')'] := by
  rw [enclose, chars_cons, chars_append, chars_unindent]
  simp [chars]

/-- The first tokens of a text that are a phrase are found in parentheses as well. -/
theorem scanned_enclose {phrase : Phrase} {tokens more : List Token} {tree : Expr}
    {rest : List Char} (derives : Derives phrase tokens tree)
    (scanned : Scanned (tokens ++ more) rest) : Scanned (enclose tokens ++ more) rest := by
  have found := scanned.leads
  rw [List.forall_mem_append] at found
  have inner := derives.unindent
  have innerFound := found_unindent found.1
  have right : Scanned [⟨[], .rightParen, [')']⟩] (chars more ++ rest) :=
    .cons (leads_rightParen nil_blanks) .nil
  -- a parenthesis ends the last of the tokens, whatever has followed it before
  have body := scanned_of_parted inner.pieces (inner.parted innerFound) innerFound
    (@Ends.cons ')' (chars more ++ rest) rfl)
  have closed : Scanned (unindent tokens ++ [⟨[], .rightParen, [')']⟩]) (chars more ++ rest) :=
    .append body right
  have enclosed : Scanned (enclose tokens) (chars more ++ rest) :=
    .cons (leads_leftParen (indent_blanks found.1)) closed
  exact enclosed.append scanned.of_append

end Token

/-! ## Expressions as chains -/

/-- Operands with operators between them: the tokens of the first operand and its tree, and the
operators with the operands that follow. -/
structure Chain where
  tokens : List Token
  first : Expr
  links : List Link

namespace Chain

/-- All tokens of the chain. -/
def written (chain : Chain) : List Token :=
  chain.tokens ++ chain.links.flatMap Link.written

/-- The operands grouped to the left. -/
def tree (chain : Chain) : Expr :=
  chain.links.foldl Link.attach chain.first

/-- The first operand and the `n` operands that follow it. -/
def take (chain : Chain) (n : Nat) : Chain :=
  { chain with links := chain.links.take n }

/-- The chain in which these operands are replaced by the group of them. -/
def enclose (chain : Chain) (n : Nat) : Chain where
  tokens := Token.enclose (chain.take n).written
  first := .group (String.ofList (Token.join (chain.take n).written)) (chain.take n).tree
  links := chain.links.drop n

/-- The tokens of these operands stand before all others. -/
theorem written_take (chain : Chain) (n : Nat) :
    (chain.take n).written ++ (chain.links.drop n).flatMap Link.written = chain.written := by
  unfold written take
  rw [List.append_assoc, ← List.flatMap_append, List.take_append_drop]

/-- The tree of these operands is what all others are attached to. -/
theorem tree_take (chain : Chain) (n : Nat) :
    (chain.links.drop n).foldl Link.attach (chain.take n).tree = chain.tree := by
  unfold tree take
  rw [← List.foldl_append, List.take_append_drop]

/-- Each operand is derived from its tokens, and an operator stands before each but the first. -/
structure Derived (chain : Chain) : Prop where
  first : Derives .operand chain.tokens chain.first
  signs : ∀ link ∈ chain.links, link.sign.kind.Signs link.op
  operands : ∀ link ∈ chain.links, Derives .operand link.tokens link.operand

namespace Derived

variable {chain : Chain}

theorem sequence (derived : chain.Derived) : Derives .sequence chain.written chain.tree :=
  .sequence derived.first derived.signs derived.operands

theorem take (derived : chain.Derived) (n : Nat) : (chain.take n).Derived where
  first := derived.first
  signs link member := derived.signs link (List.mem_of_mem_take member)
  operands link member := derived.operands link (List.mem_of_mem_take member)

theorem enclose (derived : chain.Derived) (n : Nat) : (chain.enclose n).Derived where
  first := by
    have inner := (derived.take n).sequence.unindent
    have group := @Derives.group ⟨Token.indent (chain.take n).written, .leftParen, ['(']⟩
      ⟨[], .rightParen, [')']⟩ _ _ rfl inner rfl
    rw [Token.join_unindent] at group
    exact .bare group
  signs link member := derived.signs link (List.mem_of_mem_drop member)
  operands link member := derived.operands link (List.mem_of_mem_drop member)

end Derived

/-- What is derived as a sequence is a chain. -/
theorem exists_of_derives {tokens : List Token} {tree : Expr}
    (derives : Derives .sequence tokens tree) :
    ∃ chain : Chain, chain.Derived ∧ chain.written = tokens ∧ chain.tree = tree := by
  cases derives with
  | @sequence tokens first links derives signs operands =>
    exact ⟨⟨tokens, first, links⟩, ⟨derives, signs, operands⟩, rfl, rfl⟩

/-- The text is made of these operands and the operators between them. -/
structure Spells (chain : Chain) (text : String) : Prop where
  derived : chain.Derived
  scan_eq : Token.scan text.toList = chain.written

/-- A text is parted in front of its first token and behind the last one of some operands. With
parentheses in these places it is made of the group and of the operands that are left. -/
theorem Spells.exists_enclose {chain : Chain} {text : String} (spells : chain.Spells text)
    (n : Nat) :
    ∃ before inside after, text = before ++ inside ++ after ∧
      (∀ char ∈ before.toList, char.isWhitespace = true) ∧
      inside = String.ofList (Token.join (chain.take n).written) ∧
      (chain.enclose n).Spells (before ++ "(" ++ inside ++ ")" ++ after) := by
  obtain ⟨rest, whole, scanned, blanks⟩ := Token.exists_scanned text.toList
  rw [spells.scan_eq, ← chain.written_take n] at whole scanned
  have found := (List.forall_mem_append.mp scanned.leads).1
  have enclosed := Token.scanned_enclose (spells.derived.take n).sequence scanned
  have scan_eq := enclosed.scan_eq blanks
  rw [Token.chars_append, ← Token.indent_append_join] at whole
  rw [Token.chars_append, Token.chars_enclose] at scan_eq
  refine ⟨String.ofList (Token.indent (chain.take n).written), _,
    String.ofList (Token.chars ((chain.links.drop n).flatMap Link.written) ++ rest), ?_, ?_, rfl,
    spells.derived.enclose n, ?_⟩
  · rw [← String.toList_inj, whole]
    simp only [String.toList_append, String.toList_ofList, List.append_assoc]
  · rw [String.toList_ofList]
    exact Token.indent_blanks found
  · refine Eq.trans (congrArg Token.scan ?_) scan_eq
    simp [String.toList_append, String.toList_ofList, List.append_assoc]

end Chain

namespace Expression

/-- An accepted text is a chain of operands, grouped to the left. Parentheses around the first of
them, from the first token to the last one of the operand up to which they reach, leave a text that
is accepted: the operands between the parentheses have become a group, and the others follow it as
before. In every session both expressions come to the same total and the same results, or fail over
the same error; they draw the same faces in the same order and leave the same source. -/
theorem roll_parenthesised {text : String} {expression : Expression}
    (parsed : parse text = .ok expression) :
    (∃ chain : Chain, chain.Spells text) ∧
    ∀ chain : Chain, chain.Spells text → expression.root = chain.tree ∧
      ∀ n ≤ chain.links.length, ∃ before inside after other,
        text = before ++ inside ++ after ∧
        (∀ char ∈ before.toList, char.isWhitespace = true) ∧
        inside = String.ofList (Token.join (chain.take n).written) ∧
        parse (before ++ "(" ++ inside ++ ")" ++ after) = .ok other ∧
        other.root = (chain.links.drop n).foldl Link.attach (.group inside (chain.take n).tree) ∧
        ∀ (σ : Type) [Source σ] (session : Session σ),
          (∀ roll left, expression.roll session = .ok roll left →
            ∃ otherRoll otherLeft, other.roll session = .ok otherRoll otherLeft ∧
              otherRoll.total = roll.total ∧ otherRoll.pool = roll.pool ∧
              left.SameDraws otherLeft) ∧
          ∀ error left, expression.roll session = .error error left →
            ∃ otherLeft, other.roll session = .error error otherLeft ∧
              left.SameDraws otherLeft := by
  have derives := (parse_eq_ok_iff.mp parsed).1
  refine ⟨?_, fun chain spells => ?_⟩
  · obtain ⟨chain, derived, written, _⟩ := Chain.exists_of_derives derives
    exact ⟨chain, derived, written.symm⟩
  have root : expression.root = chain.tree :=
    derives_unique derives (spells.scan_eq ▸ spells.derived.sequence)
  refine ⟨root, fun n _ => ?_⟩
  obtain ⟨before, inside, after, parts, blanks, tokens, enclosed⟩ := spells.exists_enclose n
  have accepted := parse_of_derives (enclosed.scan_eq ▸ enclosed.derived.sequence)
  refine ⟨before, inside, after, _, parts, blanks, tokens, accepted, tokens ▸ rfl, ?_⟩
  intro σ _ session
  apply roll_of_interchangeable
  rw [root, ← chain.tree_take n]
  exact (Expr.Interchangeable.group _ _).foldl_attach (chain.links.drop n)

/-- A difference that is multiplied is the difference in parentheses, multiplied. -/
theorem roll_parenthesised_difference :
    let six : Tally := ⟨6, by decide, by decide⟩
    let two : Score := ⟨2, by decide⟩
    let three : Score := ⟨3, by decide⟩
    let term : Dice := ⟨.one, .numbered six⟩
    let expression : Expression := ⟨"1d6 - 2 * 3",
      .binary .multiply (.binary .subtract (.dice term) (.int two)) (.int three)⟩
    let chain : Chain := ⟨[⟨[], .dice, ['1', 'd', '6']⟩], .dice term,
      [⟨⟨[' '], .minus, ['-']⟩, .subtract, [⟨[' '], .integer, ['2']⟩], .int two⟩,
        ⟨⟨[' '], .star, ['*']⟩, .multiply, [⟨[' '], .integer, ['3']⟩], .int three⟩]⟩
    parse "1d6 - 2 * 3" = .ok expression ∧ chain.Spells "1d6 - 2 * 3" ∧ 1 ≤ chain.links.length ∧
      ∃ before inside after other, "1d6 - 2 * 3" = before ++ inside ++ after ∧
        inside = "1d6 - 2" ∧ parse (before ++ "(" ++ inside ++ ")" ++ after) = .ok other ∧
        other.root = .binary .multiply (.group inside (.binary .subtract (.dice term) (.int two)))
          (.int three) ∧
        ∀ (session : Session Loaded) roll left, expression.roll session = .ok roll left →
          ∃ otherRoll otherLeft, other.roll session = .ok otherRoll otherLeft ∧
            otherRoll.total = roll.total ∧ otherRoll.pool = roll.pool ∧
            left.SameDraws otherLeft := by
  intro six two three term expression chain
  have parsed : parse "1d6 - 2 * 3" = .ok expression := by decide +kernel
  have spells : chain.Spells "1d6 - 2 * 3" := by
    have isDice : Token.IsDice ⟨[], .dice, ['1', 'd', '6']⟩ term :=
      (Token.readDice_eq_ok_iff rfl (by unfold Token.Unsigned; nofun)).mp (by decide)
    have isTwo : Token.IsInteger ⟨[' '], .integer, ['2']⟩ two :=
      ⟨rfl, 2, ⟨List.cons_ne_nil _ _, List.forall_mem_singleton.mpr rfl, rfl⟩, by decide, rfl⟩
    have isThree : Token.IsInteger ⟨[' '], .integer, ['3']⟩ three :=
      ⟨rfl, 3, ⟨List.cons_ne_nil _ _, List.forall_mem_singleton.mpr rfl, rfl⟩, by decide, rfl⟩
    have signs : ∀ link ∈ chain.links, link.sign.kind.Signs link.op :=
      List.forall_mem_cons.mpr ⟨.subtract, List.forall_mem_singleton.mpr .multiply⟩
    have operands : ∀ link ∈ chain.links, Derives .operand link.tokens link.operand :=
      List.forall_mem_cons.mpr ⟨.integer isTwo, List.forall_mem_singleton.mpr (.integer isThree)⟩
    exact ⟨⟨.bare (.dice isDice), signs, operands⟩, by decide +kernel⟩
  obtain ⟨_, parenthesised⟩ := roll_parenthesised parsed
  obtain ⟨before, inside, after, other, parts, _, within, accepted, root, alike⟩ :=
    (parenthesised chain spells).2 1 (by decide)
  exact ⟨parsed, spells, by decide, before, inside, after, other, parts, within, accepted, root,
    fun session => (alike Loaded session).1⟩

end Expression

end Tabletop
