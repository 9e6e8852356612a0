import Tabletop.Proofs.Spelling

/-!
# The grammar of notation

Which lists of tokens are expressions, and which trees they stand for. A derivation says so without
any state of a reading: a group is derived from the sequence between its parentheses, and a sequence
from an operand and the links after it. All operators have one level of precedence, and the operands
of a sequence are grouped to the left.
-/

namespace Tabletop

namespace Token

/-- The token is an integer: a numeral whose value a score can hold. -/
structure IsInteger (token : Token) (score : Score) : Prop where
  kind_eq : token.kind = .integer
  numeral : ∃ n : Nat, Numeral.Denotes token.text n ∧ n ≤ 9223372036854775807 ∧ score.val = n

/-- The token is a dice term. -/
structure IsDice (token : Token) (term : Dice) : Prop where
  kind_eq : token.kind = .dice
  spelled : Dice.Spelled token.text term

/-- The token is the word of a flag. -/
structure IsWord (token : Token) (word : FlagWord) : Prop where
  kind_eq : token.kind = .flag
  spelled : FlagWord.Spelled token.text word

end Token

/-- The kind is the sign of the operator. -/
inductive TokenKind.Signs : TokenKind → BinaryOp → Prop where
  | add : Signs .plus .add
  | subtract : Signs .minus .subtract
  | multiply : Signs .star .multiply
  | divide : Signs .slash .divide

theorem TokenKind.binaryOp?_eq_some_iff {kind : TokenKind} {op : BinaryOp} :
    kind.binaryOp? = some op ↔ kind.Signs op := by
  constructor
  · intro isSign
    cases kind <;> cases isSign <;> constructor
  · intro signs
    cases signs <;> rfl

/-- Flags of the kind may have a count. -/
inductive FlagKind.TakesCount : FlagKind → Prop where
  | keep : TakesCount .keep
  | drop : TakesCount .drop

theorem FlagKind.isCounted_iff {kind : FlagKind} : kind.isCounted = true ↔ kind.TakesCount := by
  constructor
  · intro counted
    cases kind <;> cases counted <;> constructor
  · intro takesCount
    cases takesCount <;> rfl

/-- The tokens are a flag: its word, and a count in parentheses if its kind takes one. -/
inductive Flag.Spelled : List Token → Flag → Prop where
  | plain {token : Token} {word : FlagWord} (isWord : token.IsWord word) :
      Spelled [token] ⟨word, none⟩
  | counted {token left number right : Token} {word : FlagWord} {count : Score}
      (isWord : token.IsWord word) (takesCount : word.kind.TakesCount)
      (opens : left.kind = .leftParen) (isCount : number.IsInteger count)
      (closes : right.kind = .rightParen) :
      Spelled [token, left, number, right] ⟨word, some count⟩

/-- An operator with the operand on its right. -/
structure Link where
  sign : Token
  op : BinaryOp
  tokens : List Token
  operand : Expr

namespace Link

/-- All tokens of the link. -/
def written (link : Link) : List Token :=
  link.sign :: link.tokens

/-- The tree that the link makes of what stands on its left. -/
def attach (left : Expr) (link : Link) : Expr :=
  .binary link.op left link.operand

end Link

/-- What the notation is made of. -/
inductive Phrase where
  /-- A dice term or a group. -/
  | target
  /-- An integer, or a target with at most one flag. -/
  | operand
  /-- Operands with operators between them. -/
  | sequence

/-- The tokens are a phrase, and it stands for the tree. -/
inductive Phrase.Derives : Phrase → List Token → Expr → Prop where
  | dice {token : Token} {term : Dice} (isDice : token.IsDice term) :
      Derives .target [token] (.dice term)
  | group {left right : Token} {body : List Token} {tree : Expr} (opens : left.kind = .leftParen)
      (inner : Derives .sequence body tree) (closes : right.kind = .rightParen) :
      Derives .target (left :: (body ++ [right])) (.group (String.ofList (Token.join body)) tree)
  | integer {token : Token} {score : Score} (isInteger : token.IsInteger score) :
      Derives .operand [token] (.int score)
  | bare {tokens : List Token} {tree : Expr} (target : Derives .target tokens tree) :
      Derives .operand tokens tree
  | flagged {tokens suffix : List Token} {tree : Expr} {flag : Flag}
      (target : Derives .target tokens tree) (spelled : Flag.Spelled suffix flag) :
      Derives .operand (tokens ++ suffix) (.flagged tree flag)
  | sequence {tokens : List Token} {tree : Expr} {links : List Link}
      (first : Derives .operand tokens tree)
      (signs : ∀ link ∈ links, link.sign.kind.Signs link.op)
      (operands : ∀ link ∈ links, Derives .operand link.tokens link.operand) :
      Derives .sequence (tokens ++ links.flatMap Link.written) (links.foldl Link.attach tree)

namespace Phrase.Derives

/-- A single operand is a sequence. -/
theorem single {tokens : List Token} {tree : Expr} (first : Derives .operand tokens tree) :
    Derives .sequence tokens tree := by
  have whole := @Derives.sequence _ _ [] first nofun nofun
  rw [List.flatMap_nil, List.append_nil] at whole
  exact whole

/-- A sequence goes on with one more operand, which takes all before it for its left side. -/
theorem extend {before after : List Token} {left right : Expr} {sign : Token} {op : BinaryOp}
    (sequence : Derives .sequence before left) (isSign : sign.kind.Signs op)
    (operand : Derives .operand after right) :
    Derives .sequence (before ++ sign :: after) (.binary op left right) := by
  cases sequence with
  | @sequence tokens tree links first signs operands =>
    have last : ∀ link ∈ links ++ [⟨sign, op, after, right⟩],
        link ∈ links ∨ link = ⟨sign, op, after, right⟩ := by
      intro link member
      rw [List.mem_append, List.mem_singleton] at member
      exact member
    have whole := @Derives.sequence _ _ (links ++ [⟨sign, op, after, right⟩]) first
      (fun link member => (last link member).elim (signs link) fun same => same ▸ isSign)
      (fun link member => (last link member).elim (operands link) fun same => same ▸ operand)
    rw [List.flatMap_append, List.foldl_append, List.flatMap_singleton] at whole
    rw [List.append_assoc]
    exact whole

end Phrase.Derives

end Tabletop
