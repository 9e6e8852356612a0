import Tabletop.Proofs.Parse
import Tabletop.Outcome

/-!
# Dice terms in reading order

The dice terms of a tree stand in it from left to right as they stand in its text: they are what the
dice tokens of the text are read as. An outcome holds the results of their dice in the same order.
-/

namespace Tabletop

/-- What a dice term asks for: the bounds of its sides, once for each of its dice. -/
def Dice.requests (term : Dice) : List Bounds :=
  List.replicate term.rolls.val term.sides.bounds

/-- How many dice these terms have together. -/
def Dice.number (terms : List Dice) : Nat :=
  (terms.map fun term => term.rolls.val).sum

/-- The dice terms of a tree from left to right, those of its groups included. -/
def Expr.terms : Expr → List Dice
  | .int _ => []
  | .dice term => [term]
  | .group _ body => body.terms
  | .flagged target _ => target.terms
  | .binary _ left right => left.terms ++ right.terms

/-- The results of all dice of an outcome from left to right. -/
def Outcome.faces : Outcome → Pool
  | .literal _ => []
  | .dice rolled => rolled.results
  | .group _ inner => inner.faces
  | .flagged target _ _ _ _ => target.faces
  | .binary _ left right _ => left.faces ++ right.faces

/-- The dice term that a token is. -/
def Token.dice? (token : Token) : Option Dice :=
  if token.kind = .dice then token.readDice.toOption else none

namespace Dice

@[simp] theorem number_nil : number [] = 0 := rfl

@[simp] theorem number_cons (term : Dice) (terms : List Dice) :
    number (term :: terms) = term.rolls.val + number terms := by
  simp [number]

@[simp] theorem number_append (first second : List Dice) :
    number (first ++ second) = number first + number second := by
  simp [number]

/-- Each die is one request. -/
theorem length_requests (terms : List Dice) :
    (terms.flatMap requests).length = number terms := by
  induction terms with
  | nil => rfl
  | cons term terms ih => simp [requests, ih]

end Dice

namespace Token

theorem IsDice.dice?_eq {token : Token} {term : Dice} (isDice : token.IsDice term)
    (unsigned : token.Unsigned) : token.dice? = some term := by
  unfold dice?
  rw [if_pos isDice.kind_eq, (readDice_eq_ok_iff isDice.kind_eq unsigned).mpr isDice]
  rfl

theorem dice?_eq_none {token : Token} (other : token.kind ≠ .dice) : token.dice? = none :=
  if_neg other

end Token

/-- No token of a flag is a dice term. -/
theorem Flag.Spelled.dice?_eq_nil {tokens : List Token} {flag : Flag}
    (spelled : Flag.Spelled tokens flag) : tokens.filterMap Token.dice? = [] := by
  cases spelled with
  | plain isWord =>
    simp [Token.dice?_eq_none, isWord.kind_eq]
  | counted isWord takesCount opens isCount closes =>
    simp [Token.dice?_eq_none, isWord.kind_eq, opens, isCount.kind_eq, closes]

/-- Links put their terms behind those of the tree that they are attached to. -/
theorem Link.terms_foldl_attach (links : List Link) (tree : Expr) :
    (links.foldl attach tree).terms = tree.terms ++ links.flatMap (·.operand.terms) := by
  induction links generalizing tree with
  | nil => simp
  | cons link links ih =>
    rw [List.foldl_cons, ih]
    simp [attach, Expr.terms]

/-- The terms of a tree are its dice tokens in their order. -/
theorem Phrase.Derives.terms_eq {phrase : Phrase} {tokens : List Token} {tree : Expr}
    (derives : Derives phrase tokens tree) (unsigned : ∀ token ∈ tokens, token.Unsigned) :
    tree.terms = tokens.filterMap Token.dice? := by
  induction derives with
  | dice isDice =>
    have found := isDice.dice?_eq (unsigned _ (List.mem_singleton_self _))
    simp [Expr.terms, found]
  | group opens inner closes ih =>
    have inside := ih fun token member => unsigned token (by simp [member])
    simp [Expr.terms, inside, Token.dice?_eq_none, opens, closes]
  | integer isInteger => simp [Expr.terms, Token.dice?_eq_none, isInteger.kind_eq]
  | bare target ih => exact ih unsigned
  | flagged target spelled ih =>
    have before := ih fun token member => unsigned token (by simp [member])
    simp [Expr.terms, before, spelled.dice?_eq_nil]
  | @sequence tokens tree links first signs operands firstIh operandsIh =>
    have before := firstIh fun token member => unsigned token (by simp [member])
    rw [Link.terms_foldl_attach, List.filterMap_append, List.filterMap_flatMap, before]
    congr 1
    refine List.flatMap_congr fun link member => ?_
    have sign : link.sign.dice? = none := by
      refine Token.dice?_eq_none fun isDice => ?_
      have isOp := signs link member
      rw [isDice] at isOp
      cases isOp
    have after := operandsIh link member fun token inside => unsigned token <|
      List.mem_append_right _ (List.mem_flatMap.mpr ⟨link, member, List.mem_cons_of_mem _ inside⟩)
    rw [Link.written, List.filterMap_cons_none sign, after]

/-- The terms of an accepted text are what its dice tokens are read as, in their order. -/
theorem Expression.terms_of_parse {text : String} {expression : Expression}
    (parsed : parse text = .ok expression) :
    expression.root.terms = (Token.scan text.toList).filterMap Token.dice? :=
  (parse_eq_ok_iff.mp parsed).1.terms_eq Token.unsigned_of_mem_scan

end Tabletop
