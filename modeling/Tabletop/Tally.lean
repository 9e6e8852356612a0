import Tabletop.Numeral

/-!
# Tallies

How many dice a term rolls and how many sides a die has are counted by a tally: a positive number of
at most 32 bits.
-/

namespace Tabletop

/-- A positive number of at most 32 bits. -/
@[ext] structure Tally where
  val : Nat
  pos : 0 < val
  le_highest : val ≤ 4294967295
  deriving DecidableEq

namespace Tally

instance : ToString Tally := ⟨fun tally => toString tally.val⟩

def one : Tally := ⟨1, by decide, by decide⟩

instance : Inhabited Tally := ⟨one⟩

/-- The largest tally. -/
def highest : Nat := 4294967295

/-- The tally of this value, if there is one. -/
def ofNat? (n : Nat) : Option Tally :=
  if bounds : 0 < n ∧ n ≤ 4294967295 then some ⟨n, bounds.1, bounds.2⟩ else none

theorem ofNat?_eq_some_iff {n : Nat} {tally : Tally} : ofNat? n = some tally ↔ tally.val = n := by
  unfold ofNat?
  split
  · simp only [Option.some.injEq, Tally.ext_iff]
    exact eq_comm
  next outside =>
    simp only [reduceCtorEq, false_iff]
    rintro rfl
    exact outside ⟨tally.pos, tally.le_highest⟩

@[simp] theorem ofNat?_val (tally : Tally) : ofNat? tally.val = some tally :=
  ofNat?_eq_some_iff.mpr rfl

/-- Why a text is not the numeral of a tally. -/
inductive Fault where
  | numeral (fault : Numeral.Fault)
  | zero
  deriving DecidableEq

/-- Reads the numeral of a tally. -/
def read (chars : List Char) : Except Fault Tally :=
  match Numeral.read highest chars with
  | .error fault => .error (.numeral fault)
  | .ok n =>
    match ofNat? n with
    | some tally => .ok tally
    | none => .error .zero

end Tally

end Tabletop
