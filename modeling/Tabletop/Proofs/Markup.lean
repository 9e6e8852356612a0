import Mathlib
import Tabletop.Outcome.Render
import Tabletop.Session

/-!
# Markup

Markup puts marks on both sides of some numbers. Nothing else in a rendering has a character of a
mark, except for the sign of a multiplication, which stands between blanks. So marks can be deleted
again, all of them at once or one kind after another, and the rendering in the plain style is left.
-/

namespace Tabletop

/-- What is put on both sides of a number. -/
inductive Mark where
  | bold
  | struck
  | code
  deriving DecidableEq

namespace Mark

def text : Mark → String
  | .bold => "**"
  | .struck => "~~"
  | .code => "\x60"

/-- The only character of a mark. -/
def char : Mark → Char
  | .bold => '*'
  | .struck => '~'
  | .code => '\x60'

/-- Every mark. -/
def all : List Mark := [.bold, .struck, .code]

/-- Deletes marks from left to right, wherever one of them begins. -/
def deleteChars (gone : List Mark) : List Char → List Char
  | [] => []
  | char :: rest =>
    match gone.find? (·.text.toList.isPrefixOf (char :: rest)) with
    | some mark => deleteChars gone (rest.drop (mark.text.length - 1))
    | none => char :: deleteChars gone rest
  termination_by chars => chars.length

/-- Deletes marks from a text. -/
def delete (gone : List Mark) (text : String) : String :=
  String.ofList (deleteChars gone text.toList)

/-- Puts the mark on both sides of a text, if it is among the shown ones. -/
def around (shown : List Mark) (mark : Mark) (text : String) : String :=
  if mark ∈ shown then mark.text ++ text ++ mark.text else text

/-- The marks that are still shown after some are deleted. -/
def without (gone shown : List Mark) : List Mark :=
  shown.filter (· ∉ gone)

/-- No character of the text is one of a mark. -/
def Free (text : String) : Prop :=
  ∀ char ∈ text.toList, ∀ mark ∈ all, char ≠ mark.char

instance (text : String) : Decidable (Free text) :=
  List.decidableBAll (fun char => ∀ mark ∈ all, char ≠ mark.char) text.toList

/-- Whatever stands behind it, deleting marks from the one text gives the other. -/
def Erases (gone : List Mark) (full bare : String) : Prop :=
  ∀ rest, deleteChars gone (full.toList ++ rest) = bare.toList ++ deleteChars gone rest

variable {gone shown : List Mark}

theorem mem_all (mark : Mark) : mark ∈ all := by
  cases mark <;> decide

/-! ## Characters of marks -/

theorem exists_text_eq_cons (mark : Mark) : ∃ behind, mark.text.toList = mark.char :: behind := by
  cases mark <;> exact ⟨_, rfl⟩

theorem eq_char_of_mem {mark : Mark} {char : Char} (member : char ∈ mark.text.toList) :
    char = mark.char := by
  cases mark <;> simpa [text, Mark.char] using member

theorem char_injective {mark other : Mark} (same : mark.char = other.char) : mark = other := by
  cases mark <;> cases other <;> simp_all [Mark.char]

theorem eq_char_of_begins {mark : Mark} {char : Char} {rest : List Char}
    (begins : mark.text.toList <+: char :: rest) : char = mark.char := by
  obtain ⟨behind, chars⟩ := exists_text_eq_cons mark
  rw [chars] at begins
  exact (List.cons_prefix_cons.mp begins).1.symm

/-- A text begins with one mark at most. -/
theorem eq_of_begins {mark other : Mark} {rest : List Char}
    (begins : other.text.toList <+: mark.text.toList ++ rest) : other = mark := by
  obtain ⟨behind, chars⟩ := exists_text_eq_cons mark
  rw [chars, List.cons_append] at begins
  exact (char_injective (eq_char_of_begins begins)).symm

/-! ## Deletion -/

theorem deleteChars_of_not_begins {char : Char} {rest : List Char}
    (none : ∀ mark ∈ gone, ¬ mark.text.toList <+: char :: rest) :
    deleteChars gone (char :: rest) = char :: deleteChars gone rest := by
  have search : gone.find? (·.text.toList.isPrefixOf (char :: rest)) = .none :=
    List.find?_eq_none.mpr fun mark member => by
      rw [List.isPrefixOf_iff_prefix]
      exact none mark member
  rw [deleteChars, search]

/-- Characters of no mark that is gone are left as they are. -/
theorem deleteChars_append_of_forall {chars : List Char} (rest : List Char)
    (other : ∀ char ∈ chars, ∀ mark ∈ gone, char ≠ mark.char) :
    deleteChars gone (chars ++ rest) = chars ++ deleteChars gone rest := by
  induction chars with
  | nil => rfl
  | cons char chars ih =>
    obtain ⟨here, later⟩ := List.forall_mem_cons.mp other
    rw [List.cons_append, deleteChars_of_not_begins, ih later, List.cons_append]
    exact fun mark member begins => here mark member (eq_char_of_begins begins)

/-- A mark that is gone is deleted at the beginning of a text. -/
theorem deleteChars_append_of_mem {mark : Mark} (member : mark ∈ gone) (rest : List Char) :
    deleteChars gone (mark.text.toList ++ rest) = deleteChars gone rest := by
  obtain ⟨behind, chars⟩ := exists_text_eq_cons mark
  have begins : mark.text.toList.isPrefixOf (mark.char :: (behind ++ rest)) = true := by
    rw [List.isPrefixOf_iff_prefix, ← List.cons_append, ← chars]
    exact List.prefix_append _ _
  have search :
      gone.find? (·.text.toList.isPrefixOf (mark.char :: (behind ++ rest))) = some mark := by
    cases found : gone.find? (·.text.toList.isPrefixOf (mark.char :: (behind ++ rest))) with
    | none => exact absurd begins (List.find?_eq_none.mp found mark member)
    | some other =>
      have here := List.isPrefixOf_iff_prefix.mp (List.find?_eq_some_iff_append.mp found).1
      rw [← List.cons_append, ← chars] at here
      rw [eq_of_begins here]
  have size : mark.text.length - 1 = behind.length := by
    rw [← String.length_toList, chars, List.length_cons, Nat.add_sub_cancel]
  rw [chars, List.cons_append, deleteChars, search]
  simp only [size, List.drop_left]

theorem without_nil (shown : List Mark) : without [] shown = shown := by
  simp [without]

theorem without_cons (mark : Mark) (gone shown : List Mark) :
    without gone (without [mark] shown) = without (mark :: gone) shown := by
  simp [without, List.filter_filter, Bool.and_comm]

theorem without_of_forall (every : ∀ mark, mark ∈ gone) : without gone shown = [] := by
  simp [without, every]

theorem mem_without {mark : Mark} : mark ∈ without gone shown ↔ mark ∈ shown ∧ mark ∉ gone := by
  simp [without]

/-! ## Texts with and without marks -/

namespace Erases

variable {first second firstBare secondBare text bare : String}

theorem of_free (gone : List Mark) (free : Free text) : Erases gone text text :=
  fun rest => deleteChars_append_of_forall rest fun char member mark _ =>
    free char member mark (mem_all mark)

theorem append (left : Erases gone first firstBare) (right : Erases gone second secondBare) :
    Erases gone (first ++ second) (firstBare ++ secondBare) := by
  intro rest
  rw [String.toList_append, List.append_assoc, left, right, String.toList_append,
    List.append_assoc]

theorem intercalate {separator : String} {full bare : List String} (free : Free separator)
    (each : List.Forall₂ (Erases gone) full bare) :
    Erases gone (separator.intercalate full) (separator.intercalate bare) := by
  induction each with
  | nil => exact .of_free gone nofun
  | cons first rest ih =>
    cases rest with
    | nil => simpa only [String.intercalate_singleton] using first
    | cons second rest =>
      rw [String.intercalate_cons_cons, String.intercalate_cons_cons]
      exact (first.append (.of_free gone free)).append ih

/-- A mark on both sides of a text goes or stays on both of them. -/
theorem around (mark : Mark) (erases : Erases gone text bare) :
    Erases gone (mark.around shown text) (mark.around (without gone shown) bare) := by
  unfold Mark.around
  simp only [mem_without]
  by_cases isShown : mark ∈ shown
  · by_cases isGone : mark ∈ gone
    · rw [if_pos isShown, if_neg fun stays => stays.2 isGone]
      intro rest
      rw [String.toList_append, String.toList_append, List.append_assoc, List.append_assoc,
        deleteChars_append_of_mem isGone, erases, deleteChars_append_of_mem isGone]
    · rw [if_pos isShown, if_pos ⟨isShown, isGone⟩]
      have stays : Erases gone mark.text mark.text := fun rest =>
        deleteChars_append_of_forall rest fun char inside other member same =>
          isGone (char_injective ((eq_char_of_mem inside).symm.trans same) ▸ member)
      exact (stays.append erases).append stays
  · rw [if_neg isShown, if_neg fun stays => isShown stays.1]
    exact erases

theorem delete_eq (erases : Erases gone text bare) : delete gone text = bare := by
  have whole := erases []
  rw [List.append_nil, deleteChars, List.append_nil] at whole
  rw [delete, whole, String.ofList_toList]

end Erases

namespace Free

theorem append {first second : String} (left : Free first) (right : Free second) :
    Free (first ++ second) := by
  intro char member
  rw [String.toList_append, List.mem_append] at member
  exact member.elim (left char) (right char)

theorem nat (n : Nat) : Free (toString n) := by
  intro char member mark _ same
  rw [Nat.toString_eq_ofList_toDigits, String.toList_ofList] at member
  have digit := Nat.isDigit_of_mem_toDigits (by decide) (by decide) member
  rw [same] at digit
  cases mark <;> cases digit

theorem score (score : Score) : Free (toString score) := by
  change Free (toString score.val)
  cases score.val with
  | ofNat n => exact nat n
  | negSucc n =>
    have sign : Free "-" := by decide
    exact sign.append (nat (n + 1))

theorem dice (term : Dice) : Free (toString term) := by
  have number : Free (toString term.rolls ++ "d") := (nat term.rolls.val).append (by decide)
  refine number.append ?_
  cases term.sides with
  | numbered count => exact nat count.val
  | fate abbreviated => cases abbreviated <;> decide

theorem flag (flag : Flag) : Free (toString flag) := by
  obtain ⟨word, count⟩ := flag
  have letters : Free (toString word) := by cases word <;> decide
  cases count with
  | none => exact letters
  | some count =>
    exact ((letters.append (by decide)).append (score count)).append (by decide)

end Free

end Mark

open Mark (Erases Free without)

variable {gone shown : List Mark}

/-! ## Renderings -/

namespace Style

/-- Markup that shows only some marks. -/
def marked (shown : List Mark) : Style where
  total score := Mark.code.around shown (toString score)
  literal := toString
  result score sides kept :=
    let face :=
      if isCritical score sides then Mark.bold.around shown (toString score) else toString score
    if kept then face else Mark.struck.around shown face

theorem marked_all : marked Mark.all = markdown := rfl

theorem marked_nil : marked [] = plain := by
  simp [marked, plain, Mark.around]

theorem erases_result (score : Score) (sides : Option Sides) (kept : Bool) :
    Erases gone ((marked shown).result score sides kept)
      ((marked (without gone shown)).result score sides kept) := by
  have number : Erases gone (toString score) (toString score) := .of_free gone (.score score)
  have face : Erases gone
      (if isCritical score sides then Mark.bold.around shown (toString score) else toString score)
      (if isCritical score sides then Mark.bold.around (without gone shown) (toString score)
        else toString score) := by
    split
    · exact number.around .bold
    · exact number
  cases kept with
  | true => exact face
  | false => exact face.around .struck

theorem erases_results (sides : Option Sides) (pool : Pool) (kept : List Bool) :
    Erases gone ((marked shown).results sides pool kept)
      ((marked (without gone shown)).results sides pool kept) := by
  refine .intercalate (by decide) ?_
  induction pool generalizing kept with
  | nil => exact .nil
  | cons score pool ih =>
    cases kept with
    | nil => exact .nil
    | cons keeps kept => exact .cons (erases_result score sides keeps) (ih kept)

end Style

/-- A sign between blanks is no mark, even if it has the character of one. -/
theorem BinaryOp.erases_spaced (op : BinaryOp) (gone : List Mark) :
    Erases gone (" " ++ toString op ++ " ") (" " ++ toString op ++ " ") := by
  intro rest
  have chars : (" " ++ toString op ++ " ").toList = [' ', op.symbol, ' '] := by
    cases op <;> rfl
  have blank (rest : List Char) :
      Mark.deleteChars gone (' ' :: rest) = ' ' :: Mark.deleteChars gone rest :=
    Mark.deleteChars_of_not_begins fun mark _ begins => by
      cases mark <;> cases Mark.eq_char_of_begins begins
  have sign : Mark.deleteChars gone (op.symbol :: ' ' :: rest) =
      op.symbol :: Mark.deleteChars gone (' ' :: rest) :=
    Mark.deleteChars_of_not_begins fun mark _ begins => by
      cases op <;> cases mark <;> simp [symbol, Mark.text] at begins
  rw [chars]
  simp only [List.cons_append, List.nil_append, blank, sign]

/-- Deleting marks from a rendering leaves the rendering without them. -/
theorem Outcome.erases_render (outcome : Outcome) (gone shown : List Mark) :
    Erases gone (outcome.render (.marked shown))
      (outcome.render (.marked (without gone shown))) := by
  have opening : Free " (" := by decide
  have closing : Erases gone ")" ")" := .of_free gone (by decide)
  induction outcome with
  | literal score => exact .of_free gone (.score score)
  | dice rolled =>
    have term : Erases gone _ _ := .of_free gone ((Free.dice rolled.dice).append opening)
    exact (term.append (Style.erases_results _ _ _)).append closing
  | group text inner ih =>
    have start : Erases gone "(" "(" := .of_free gone (by decide)
    exact (start.append ih).append closing
  | flagged target flag choices selected total ih =>
    have suffix : Erases gone _ _ := .of_free gone ((Free.flag flag).append opening)
    have results : Erases gone ((Style.marked shown).results target.sides? choices _) _ :=
      Style.erases_results _ _ (choices.marks selected)
    have behind := (suffix.append results).append closing
    -- a dice term under a flag is written without its results, any other target as it stands
    cases target with
    | dice rolled =>
      have term : Erases gone _ _ := .of_free gone (.dice rolled.dice)
      simpa only [render, String.append_assoc] using term.append behind
    | literal | group | flagged | binary =>
      simpa only [render, String.append_assoc] using ih.append behind
  | binary op left right total leftIh rightIh =>
    have parts := (leftIh.append (op.erases_spaced gone)).append rightIh
    simpa only [render, String.append_assoc] using parts

namespace Roll

theorem delete_render (roll : Roll) (gone shown : List Mark) :
    Mark.delete gone (roll.render (.marked shown)) =
      roll.render (.marked (without gone shown)) := by
  have equals : Erases gone " = " " = " := .of_free gone (by decide)
  have total : Erases gone (toString roll.total) (toString roll.total) :=
    .of_free gone (.score roll.total)
  have start := (roll.outcome.erases_render gone shown).append equals
  exact (start.append (total.around .code)).delete_eq

/-- To delete marks one kind after another is to delete all of them at once. -/
theorem foldl_delete_render (roll : Roll) (order shown : List Mark) :
    order.foldl (fun text mark => Mark.delete [mark] text) (roll.render (.marked shown)) =
      roll.render (.marked (without order shown)) := by
  induction order generalizing shown with
  | nil => rw [List.foldl_nil, Mark.without_nil]
  | cons mark order ih => rw [List.foldl_cons, delete_render, ih, Mark.without_cons]

/-- A roll in chat markup whose marks are deleted, all of them at once or one kind after another in
any order, is the roll in the plain style. -/
theorem delete_markdown (roll : Roll) :
    Mark.delete Mark.all (roll.render .markdown) = toString roll ∧
    ∀ order : List Mark, (∀ mark, mark ∈ order) →
      order.foldl (fun text mark => Mark.delete [mark] text) (roll.render .markdown) =
        toString roll := by
  have bare {gone : List Mark} (every : ∀ mark, mark ∈ gone) :
      roll.render (.marked (without gone Mark.all)) = toString roll := by
    rw [Mark.without_of_forall every, Style.marked_nil]
    rfl
  rw [← Style.marked_all]
  refine ⟨?_, fun order every => ?_⟩
  · rw [delete_render, bare Mark.mem_all]
  · rw [foldl_delete_render, bare every]

/-- The result that is dropped of four dice is critical as well, and what is left is doubled. -/
theorem delete_markdown_doubled :
    let score (n : Int) : Score := (Score.ofInt? n).getD .zero
    let dice : Dice := ⟨⟨4, by decide, by decide⟩, .numbered ⟨6, by decide, by decide⟩⟩
    let faces : Pool := [3, 1, 5, 6].map score
    let expression : Expression := ⟨"4d6!drop*2",
      .binary .multiply (.flagged (.dice dice) ⟨.drop, none⟩) (.int (score 2))⟩
    let kept : Outcome := .flagged (.dice ⟨dice, faces, score 15⟩) ⟨.drop, none⟩ faces
      ([3, 5, 6].map score) (score 14)
    let roll : Roll := ⟨"4d6!drop*2", .binary .multiply kept (.literal (score 2)) (score 28)⟩
    let order : List Mark := [.code, .struck, .bold]
    (∃ after, expression.roll (.start none (Loaded.cycle faces)) = .ok roll after) ∧
      roll.render .markdown = "4d6!drop (3, ~~**1**~~, 5, **6**) * 2 = \x6028\x60" ∧
      toString roll = "4d6!drop (3, 1, 5, 6) * 2 = 28" ∧ (∀ mark, mark ∈ order) ∧
      order.foldl (fun text mark => Mark.delete [mark] text) (roll.render .markdown) =
        toString roll := by
  intro score dice faces expression kept roll order
  have every : ∀ mark, mark ∈ order := fun mark => by cases mark <;> decide
  exact ⟨⟨_, rfl⟩, by decide +kernel, by decide +kernel, every, roll.delete_markdown.2 order every⟩

end Roll

end Tabletop
