/-!
# Ranges of code points

A property of characters is stored as an ascending list of closed ranges of code points.
-/

namespace Tabletop.Text

/-- The first and the last code point of a closed range. -/
abbrev CodeRange := Nat × Nat

/-- Whether a code point lies in one of the ranges. The ranges ascend, so the search ends at the
first one that begins beyond the code point. -/
def covers : List CodeRange → Nat → Bool
  | [], _ => false
  | (first, last) :: rest, code => first ≤ code && (code ≤ last || covers rest code)

theorem covers_head {first last code : Nat} {rest : List CodeRange} (low : first ≤ code)
    (high : code ≤ last) : covers ((first, last) :: rest) code = true := by
  simp [covers, low, high]

/-- Each range begins after the one before it has ended. -/
def Ascending (ranges : List CodeRange) : Prop :=
  ranges.Pairwise fun lower upper => lower.2 < upper.1

/-- On ascending ranges the early end of the search loses nothing. -/
theorem covers_iff {ranges : List CodeRange} (ascending : Ascending ranges)
    (nonempty : ∀ range ∈ ranges, range.1 ≤ range.2) (code : Nat) :
    covers ranges code = true ↔ ∃ range ∈ ranges, range.1 ≤ code ∧ code ≤ range.2 := by
  induction ranges with
  | nil => simp [covers]
  | cons range rest ih =>
    obtain ⟨later, restAscending⟩ := List.pairwise_cons.mp ascending
    have inner := ih restAscending fun other member =>
      nonempty other (List.mem_cons_of_mem _ member)
    have here := nonempty range List.mem_cons_self
    simp only [covers, Bool.and_eq_true, Bool.or_eq_true, decide_eq_true_eq, inner,
      List.mem_cons, exists_eq_or_imp]
    constructor
    · rintro ⟨low, high | found⟩
      · exact .inl ⟨low, high⟩
      · exact .inr found
    · rintro (⟨low, high⟩ | ⟨other, member, low, high⟩)
      · exact ⟨low, .inl high⟩
      · have := later other member
        exact ⟨by omega, .inr ⟨other, member, low, high⟩⟩

end Tabletop.Text
