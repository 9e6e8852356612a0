import Tabletop.Proofs.Parse
import Tabletop.Proofs.Pieces
import Tabletop.Proofs.Respelling

/-!
# Completions

Every reading can be completed: what is open is closed, and what is missing is supplied. With a
space before each token the whole is then the text of an expression. So whatever tokens a run takes,
some accepted text begins with them.
-/

namespace Tabletop

open Phrase (Derives)

namespace Token

/-! ## Tokens with spaces between them -/

/-- The token with a single space before it. -/
def spaced (token : Token) : Token :=
  { token with gap := [' '] }

theorem StandsAlone.spaced {token : Token} (alone : token.StandsAlone) :
    token.spaced.StandsAlone :=
  ⟨alone.starts, alone.lexeme_eq⟩

theorem scanned_spaced {tokens : List Token} (alone : ∀ token ∈ tokens, token.StandsAlone) :
    Scanned (tokens.map spaced) [] := by
  induction tokens with
  | nil => exact .nil
  | cons token tokens ih =>
    have ends : Ends (chars (tokens.map spaced) ++ []) := by
      cases tokens with
      | nil => exact .nil
      | cons => exact .cons rfl
    have head := (alone token List.mem_cons_self).spaced
    exact .cons (head.leads space_blanks ends)
      (ih fun other member => alone other (List.mem_cons_of_mem token member))

/-- Spaced tokens are found again in their text. -/
theorem scan_spaced {tokens : List Token} (alone : ∀ token ∈ tokens, token.StandsAlone) :
    scan (chars (tokens.map spaced)) = tokens.map spaced := by
  have found := (scanned_spaced alone).scan_eq nil_blanks
  rw [List.append_nil] at found
  exact found

end Token

/-! ## Accepted texts -/

namespace Token

/-- What a token is apart from the blanks before it: its kind and its slice of the text. -/
def content (token : Token) : TokenKind × List Char :=
  (token.kind, token.text)

/-- The kinds and slices of the tokens of a text. -/
def contents (text : String) : List (TokenKind × List Char) :=
  (scan text.toList).map content

theorem map_face_of_map_content {tokens others : List Token}
    (same : tokens.map content = others.map content) : tokens.map face = others.map face := by
  have lowered := congrArg (List.map (Prod.map id (List.map Char.toLower))) same
  rw [List.map_map, List.map_map] at lowered
  exact lowered

end Token

namespace Expression

open Token (content)

/-- Some accepted text has these tokens. -/
def Accepted (contents : List (TokenKind × List Char)) : Prop :=
  ∃ text expression, parse text = .ok expression ∧ Token.contents text = contents

/-- The tokens of some accepted text begin with these. -/
def Extensible (contents : List (TokenKind × List Char)) : Prop :=
  ∃ rest, Accepted (contents ++ rest)

/-- Tokens of the grammar are those of an accepted text, if each of them is a token at all. -/
theorem accepted_of_derives {tokens : List Token} {tree : Expr}
    (derives : Derives .sequence tokens tree) (found : ∀ token ∈ tokens, ∃ rest, token.Leads rest) :
    Accepted (tokens.map content) := by
  have alone : ∀ token ∈ tokens, token.StandsAlone := by
    intro token member
    obtain ⟨_, leads⟩ := found token member
    exact (derives.pieces token member).standsAlone leads
  have scanned : Token.scan (String.ofList (Token.chars (tokens.map Token.spaced))).toList =
      tokens.map Token.spaced := by
    rw [String.toList_ofList]
    exact Token.scan_spaced alone
  have same : tokens.map content = (tokens.map Token.spaced).map content := by
    rw [List.map_map]
    rfl
  obtain ⟨_, spacedDerives, _⟩ := derives.respell _ (Token.map_face_of_map_content same)
  rw [← scanned] at spacedDerives
  refine ⟨_, _, parse_of_derives spacedDerives, ?_⟩
  rw [Token.contents, scanned, ← same]

/-- Tokens with which an accepted text begins can be completed in the grammar. -/
theorem derives_of_extensible {tokens : List Token}
    (extensible : Extensible (tokens.map content)) :
    ∃ more tree, Derives .sequence (tokens ++ more) tree := by
  obtain ⟨rest, text, expression, done, whole⟩ := extensible
  obtain ⟨others, more, split, same, _⟩ := List.map_eq_append_iff.mp whole
  have derives := (parse_eq_ok_iff.mp done).1
  rw [split] at derives
  have respelled : (others ++ more).map content = (tokens ++ more).map content := by
    rw [List.map_append, List.map_append, same]
  obtain ⟨tree, again, _⟩ := derives.respell _ (Token.map_face_of_map_content respelled)
  exact ⟨more, tree, again⟩

/-- The tokens of an accepted text are accepted in every text. -/
theorem derives_of_accepted {tokens : List Token} (accepted : Accepted (tokens.map content)) :
    ∃ tree, Derives .sequence tokens tree := by
  obtain ⟨text, expression, done, same⟩ := accepted
  obtain ⟨tree, derives, _⟩ :=
    (parse_eq_ok_iff.mp done).1.respell _ (Token.map_face_of_map_content same)
  exact ⟨tree, derives⟩

end Expression

/-! ## Readings that are completed -/

namespace Token

theorem denotes_one : Numeral.Denotes ['1'] 1 :=
  ⟨List.cons_ne_nil _ _, List.forall_mem_singleton.mpr rfl, rfl⟩

theorem isInteger_one : IsInteger ⟨[], .integer, ['1']⟩ .one :=
  ⟨rfl, 1, denotes_one, by decide, rfl⟩

theorem isDice_one : IsDice ⟨[], .dice, ['d', '1']⟩ ⟨.one, .numbered .one⟩ := by
  have faces : Sides.Spelled ['1'] (.numbered .one) := .numbered denotes_one
  exact ⟨rfl, @Dice.Spelled.intro [] ['1'] 'd' .one (.numbered .one) .absent (by decide) faces⟩

/-- A number may end a text. -/
theorem leads_one : Leads ⟨[], .integer, ['1']⟩ [] :=
  isInteger_one.standsAlone.leads nil_blanks .nil

/-- A closing parenthesis may end a text. -/
theorem leads_close : Leads ⟨[], .rightParen, [')']⟩ [] :=
  leads_rightParen nil_blanks

end Token

namespace Reading

/-- Some tokens lead on to an end of the text. -/
def Completable (reading : Reading) : Prop :=
  ∃ more last expression, (∀ token ∈ more, ∃ rest, token.Leads rest) ∧ Reads reading more last ∧
    last.finish = .ok expression

theorem Completable.of_step {reading next : Reading} {token : Token} {rest : List Char}
    (completable : next.Completable) (leads : token.Leads rest)
    (step : Step reading token next) : reading.Completable := by
  obtain ⟨more, last, expression, found, reads, done⟩ := completable
  exact ⟨token :: more, last, expression, List.forall_mem_cons.mpr ⟨⟨rest, leads⟩, found⟩,
    .step step.step_eq reads, done⟩

/-- A text may end after a complete operand outside of groups. -/
theorem finish_of_complete {slot : Slot} {value : Expr} (level : Level)
    (complete : slot.value? = some value) :
    finish ⟨slot, level, []⟩ = .ok ⟨level.text, level.join value⟩ := by
  simp only [finish, complete]

/-- After a complete operand, the groups around it are closed one by one. -/
theorem completable_of_complete {slot : Slot} {value : Expr} {level : Level} {outer : List Level}
    (complete : slot.value? = some value) : Completable ⟨slot, level, outer⟩ := by
  induction outer generalizing slot value level with
  | nil => exact ⟨[], _, _, nofun, .refl _, finish_of_complete level complete⟩
  | cons around outer ih =>
    exact (ih rfl).of_step Token.leads_close (.closes complete rfl)

/-- Every reading can be completed. -/
theorem completable (reading : Reading) : reading.Completable := by
  obtain ⟨slot, level, outer⟩ := reading
  have closed (value : Expr) (level : Level) : Completable ⟨.closed value, level, outer⟩ :=
    completable_of_complete rfl
  have counted (target : Expr) (word : FlagWord) (count : Score) (level : Level) :
      Completable ⟨.counted target word count, level, outer⟩ :=
    (closed (.flagged target ⟨word, some count⟩) _).of_step Token.leads_close (.countCloses rfl)
  cases slot with
  | operand =>
    exact (closed (.int .one) _).of_step Token.leads_one (.integer Token.isInteger_one)
  | closed value => exact closed value level
  | bare target => exact completable_of_complete rfl
  | flagged target word => exact completable_of_complete rfl
  | count target word =>
    exact (counted target word .one _).of_step Token.leads_one (.count Token.isInteger_one)
  | counted target word count => exact counted target word count level

end Reading

namespace Expression

open Reading (Reads)

variable {tokens : List Token} {last : Reading}

/-- What a run has taken is accepted if the text may end there. -/
theorem accepted_of_reads {expression : Expression} (reads : Reads .start tokens last)
    (found : ∀ token ∈ tokens, ∃ rest, token.Leads rest) (done : last.finish = .ok expression) :
    Accepted (tokens.map Token.content) := by
  have unsigned : ∀ token ∈ tokens, token.Unsigned := by
    intro token member
    obtain ⟨_, leads⟩ := found token member
    exact leads.unsigned
  have derives := ((Reading.start_took.reads unsigned reads).finish done).1
  exact accepted_of_derives derives found

/-- Some accepted text begins with what a run has taken. -/
theorem extensible_of_reads (reads : Reads .start tokens last)
    (found : ∀ token ∈ tokens, ∃ rest, token.Leads rest) :
    Extensible (tokens.map Token.content) := by
  obtain ⟨more, final, expression, moreFound, moreReads, done⟩ := last.completable
  have accepted := accepted_of_reads (reads.trans moreReads)
    (List.forall_mem_append.mpr ⟨found, moreFound⟩) done
  rw [List.map_append] at accepted
  exact ⟨more.map Token.content, accepted⟩

end Expression

end Tabletop
