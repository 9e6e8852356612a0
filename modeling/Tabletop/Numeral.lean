/-!
# Decimal numerals

A numeral is a run of ASCII digits, with at most one plus sign before it. It is read from left to
right up to the first character that is no digit or that takes the value beyond a given limit.
-/

namespace Tabletop.Numeral

/-- Why a text is not a numeral within the limit. -/
inductive Fault where
  | empty
  | invalidDigit
  | tooLarge
  deriving DecidableEq

def Fault.message : Fault → String
  | .empty => "cannot parse integer from empty string"
  | .invalidDigit => "invalid digit found in string"
  | .tooLarge => "number too large to fit in target type"

/-- The value of an ASCII digit. -/
def digitValue (char : Char) : Nat := char.toNat - '0'.toNat

/-- Reads digits onto a value. A character that is no digit is refused as such even where the value
is already at its limit. -/
def readDigits (limit : Nat) : Nat → List Char → Except Fault Nat
  | value, [] => .ok value
  | value, char :: rest =>
    if char.isDigit then
      let next := 10 * value + digitValue char
      if next ≤ limit then readDigits limit next rest else .error .tooLarge
    else .error .invalidDigit

/-- Reads a numeral whose value is at most `limit`. -/
def read (limit : Nat) : List Char → Except Fault Nat
  | [] => .error .empty
  | ['+'] => .error .invalidDigit
  | '+' :: digits => readDigits limit 0 digits
  | digits => readDigits limit 0 digits

theorem le_ofDigitChars (start : Nat) (digits : List Char) :
    start ≤ Nat.ofDigitChars 10 digits start := by
  induction digits generalizing start with
  | nil => exact Nat.le_refl _
  | cons char rest ih => exact Nat.le_trans (by omega) (ih (10 * start + digitValue char))

/-- Digits are read exactly when there is nothing else and their value is within the limit. -/
theorem readDigits_eq_ok_iff {limit start result : Nat} {chars : List Char}
    (within : start ≤ limit) :
    readDigits limit start chars = .ok result ↔
      (∀ char ∈ chars, char.isDigit = true) ∧ Nat.ofDigitChars 10 chars start = result ∧
        result ≤ limit := by
  induction chars generalizing start with
  | nil =>
    simp only [readDigits, Nat.ofDigitChars_nil, Except.ok.injEq, List.not_mem_nil]
    constructor
    · rintro rfl
      exact ⟨nofun, rfl, within⟩
    · exact fun h => h.2.1
  | cons char rest ih =>
    simp only [readDigits, List.forall_mem_cons]
    by_cases digit : char.isDigit = true
    · simp only [digit, if_true, true_and]
      by_cases small : 10 * start + digitValue char ≤ limit
      · rw [if_pos small, ih small]
        rfl
      · have grows := le_ofDigitChars (10 * start + digitValue char) rest
        simp only [if_neg small, reduceCtorEq, false_iff]
        rintro ⟨_, equal, bound⟩
        change Nat.ofDigitChars 10 rest (10 * start + digitValue char) = result at equal
        omega
    · simp [digit]

end Tabletop.Numeral
