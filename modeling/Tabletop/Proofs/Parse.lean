import Tabletop.Proofs.Run
import Tabletop.Proofs.Scan

/-!
# Parsing against the grammar

A text is an expression exactly if the grammar derives its tokens. The tree that is read is then the
only tree of that derivation, and the text of the expression is what its tokens hold.
-/

namespace Tabletop

open Phrase (Derives)

namespace Token

/-- Reading all of a text succeeds exactly if its tokens are read. -/
theorem readAll_eq_ok_iff {α : Type} {reader : List Token → Except Failure α} {text : String}
    {value : α} : readAll reader text = .ok value ↔ reader (scan text.toList) = .ok value := by
  unfold readAll
  dsimp only
  cases reader (scan text.toList) <;> simp [Except.mapError]

end Token

namespace Expression

/-- A text is read as an expression exactly if its tokens are a sequence of that tree. -/
theorem parse_eq_ok_iff {text : String} {expression : Expression} :
    parse text = .ok expression ↔
      Derives .sequence (Token.scan text.toList) expression.root ∧
        expression.text = String.ofList (Token.join (Token.scan text.toList)) := by
  unfold parse
  rw [Token.readAll_eq_ok_iff, ofTokens_eq_ok_iff Token.unsigned_of_mem_scan]

/-- Tokens that are a sequence make an expression of any text that they are the tokens of. -/
theorem parse_of_derives {text : String} {tree : Expr}
    (derives : Derives .sequence (Token.scan text.toList) tree) :
    parse text = .ok ⟨String.ofList (Token.join (Token.scan text.toList)), tree⟩ :=
  parse_eq_ok_iff.mpr ⟨derives, rfl⟩

/-- The grammar derives at most one tree from the tokens of a text. -/
theorem derives_unique {text : String} {left right : Expr}
    (derives : Derives .sequence (Token.scan text.toList) left)
    (other : Derives .sequence (Token.scan text.toList) right) : left = right := by
  have same := (parse_of_derives derives).symm.trans (parse_of_derives other)
  exact congrArg Expression.root (Except.ok.inj same)

/-- A text is accepted exactly if the grammar derives its tokens; they then have a single tree, and
that tree is read. -/
theorem parse_ok_iff_derives (text : String) :
    ((∃ expression, parse text = .ok expression) ↔
      ∃ tree, Derives .sequence (Token.scan text.toList) tree) ∧
    ((∃ tree, Derives .sequence (Token.scan text.toList) tree) ↔
      ∃! tree, Derives .sequence (Token.scan text.toList) tree) ∧
    ∀ tree, (∃ expression, parse text = .ok expression ∧ expression.root = tree) ↔
      Derives .sequence (Token.scan text.toList) tree := by
  refine ⟨⟨?_, ?_⟩, ⟨?_, ExistsUnique.exists⟩, fun tree => ⟨?_, ?_⟩⟩
  · rintro ⟨expression, done⟩
    exact ⟨expression.root, (parse_eq_ok_iff.mp done).1⟩
  · rintro ⟨tree, derives⟩
    exact ⟨_, parse_of_derives derives⟩
  · rintro ⟨tree, derives⟩
    exact ⟨tree, derives, fun other otherDerives => derives_unique otherDerives derives⟩
  · rintro ⟨expression, done, rfl⟩
    exact (parse_eq_ok_iff.mp done).1
  · intro derives
    exact ⟨_, parse_of_derives derives, rfl⟩

end Expression

end Tabletop
