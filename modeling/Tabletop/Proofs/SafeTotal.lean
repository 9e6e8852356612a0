import Tabletop.Proofs.Choice
import Tabletop.Proofs.Draws
import Tabletop.Proofs.Overflow

/-!
# Totals under a safe limit

A face is at least minus one and at most the largest tally, so 2147483648 dice have a sum in the
range of scores, and so has every selection from them. Under a limit of that many dice, a term that
is within the limit is rolled if its source keeps to the faces of the dice, and a flag behind it
makes its choice. Neither overflows.
-/

namespace Tabletop

/-- Whatever dice it is asked for, the source gives each of them one of its faces. -/
def Source.KeepsBounds {σ : Type} [Source σ] (source : σ) : Prop :=
  ∀ dice : List Sides, List.Forall₂
    (fun sides face => sides.bounds.low ≤ face ∧ face ≤ sides.bounds.high)
    dice (nextMany (dice.map Sides.bounds) source).1

/-- Every result lies between the bounds, both included. -/
def Pool.Within (bounds : Bounds) (pool : Pool) : Prop :=
  ∀ result ∈ pool, bounds.low ≤ result ∧ result ≤ bounds.high

/-! ## Sums of faces -/

theorem Sides.bounds_between (sides : Sides) :
    -1 ≤ sides.bounds.low.val ∧ sides.bounds.high.val ≤ 4294967295 := by
  have lowest : -1 ≤ Score.one.val ∧ Score.one.val ≤ 4294967295 := by decide
  cases sides with
  | numbered count => exact ⟨lowest.1, Int.ofNat_le.mpr count.le_highest⟩
  | fate abbreviated => exact ⟨Int.le_refl (-1), lowest.2⟩

namespace Pool

variable {pool : Pool}

theorem sum_bounds {low high : Int}
    (within : ∀ result ∈ pool, low ≤ result.val ∧ result.val ≤ high) :
    pool.length * low ≤ pool.sum ∧ pool.sum ≤ pool.length * high := by
  have least := List.card_nsmul_le_sum (pool.map Score.val) low
    (List.forall_mem_map.mpr fun result member => (within result member).1)
  have most := List.sum_le_card_nsmul (pool.map Score.val) high
    (List.forall_mem_map.mpr fun result member => (within result member).2)
  rw [List.length_map, nsmul_eq_mul] at least most
  exact ⟨least, most⟩

namespace Within

theorem sublist {bounds : Bounds} {other : Pool} (within : pool.Within bounds)
    (part : other.Sublist pool) : other.Within bounds :=
  fun result member => within result (part.subset member)

variable {sides : Sides}

/-- The sum of so few faces is a score. -/
theorem fits_sum (within : pool.Within sides.bounds) (few : pool.length ≤ 2147483648) :
    Score.Fits pool.sum := by
  obtain ⟨low, high⟩ := sides.bounds_between
  have wide : ∀ result ∈ pool, -1 ≤ result.val ∧ result.val ≤ 4294967295 :=
    fun result member =>
      ⟨le_trans low (within result member).1, le_trans (within result member).2 high⟩
  have := sum_bounds wide
  omega

/-- So few faces have a total, since the first of them always have one. -/
theorem exists_total (within : pool.Within sides.bounds) (few : pool.length ≤ 2147483648) :
    ∃ total, pool.total = .ok total := by
  have stays (first : Pool) (isFirst : first <+: pool) : Score.Fits first.sum :=
    (within.sublist isFirst.sublist).fits_sum (isFirst.length_le.trans few)
  exact ⟨⟨_, stays pool List.prefix_rfl⟩, total_eq_ok_iff.mpr ⟨stays, rfl⟩⟩

end Within

end Pool

/-! ## Choices -/

namespace Flag

variable {flag : Flag} {choices : Pool}

/-- Four kinds of flags choose from any results there are. -/
theorem exists_chooses
    (chooser : flag.kind ∈ ([.advantage, .disadvantage, .keep, .drop] : List FlagKind))
    (nonempty : choices ≠ []) : ∃ selected, flag.Chooses choices selected := by
  unfold Chooses
  cases kind : flag.kind with
  | advantage =>
    obtain ⟨best, found⟩ := Option.isSome_iff_exists.mp (List.isSome_max?_of_ne_nil nonempty)
    exact ⟨[best], best, rfl, List.max?_eq_some_iff.mp found⟩
  | disadvantage =>
    obtain ⟨worst, found⟩ := Option.isSome_iff_exists.mp (List.isSome_min?_of_ne_nil nonempty)
    exact ⟨[worst], worst, rfl, List.min?_eq_some_iff.mp found⟩
  | keep | drop => exact ⟨_, rfl⟩
  | grow | shrink | reroll =>
    rw [kind] at chooser
    exact absurd chooser (by decide)

end Flag

/-! ## Rolls -/

variable {σ : Type} [Source σ] {session : Session σ} {term : Dice}

/-- The dice of a term come up within the bounds of its sides. -/
theorem Session.Draws.within {faces : Pool} {after : Session σ}
    (draws : session.Draws term.requests faces after)
    (keeps : Source.KeepsBounds session.source) : faces.Within term.sides.bounds := by
  have given := keeps (List.replicate term.rolls.val term.sides)
  have requests : (List.replicate term.rolls.val term.sides).map Sides.bounds = term.requests :=
    List.map_replicate
  rw [requests, draws.given] at given
  have equal : ∀ sides ∈ List.replicate term.rolls.val term.sides, sides = term.sides :=
    fun _ => List.eq_of_mem_replicate
  have faces := ((List.forall₂_and_left _ _).mpr ⟨equal, given⟩).imp
    fun sides face (bounded : sides = term.sides ∧ _) =>
      show (term.sides.bounds.low ≤ face ∧ face ≤ term.sides.bounds.high) ∧ True from
        ⟨bounded.1 ▸ bounded.2, trivial⟩
  exact ((List.forall₂_and_left _ _).mp faces.flip).1

theorem Sides.low_le_high (sides : Sides) : sides.bounds.low ≤ sides.bounds.high := by
  cases sides with
  | numbered count => exact Int.ofNat_le.mpr count.pos
  | fate abbreviated => exact show Score.minusOne ≤ Score.one by decide

theorem Loaded.keepsBounds_highest : Source.KeepsBounds Loaded.highest := by
  intro dice
  induction dice with
  | nil => exact .nil
  | cons sides dice ih => exact .cons ⟨sides.low_le_high, le_refl _⟩ ih

namespace Dice

/-- Under a safe limit a term that is within the limit is rolled. -/
theorem exists_rolls {limit : Nat} (limited : session.limit = some limit)
    (safe : limit ≤ 2147483648) (within : session.counted + term.rolls.val ≤ limit)
    (keeps : Source.KeepsBounds session.source) :
    ∃ rolled after, term.Rolls session rolled after ∧
      rolled.results.Within term.sides.bounds := by
  have counted : (session.count term.rolls.val).exceeded = false := by
    simp only [Session.exceeded, Session.count, limited, Option.any_some, decide_eq_false_iff_not]
    omega
  obtain ⟨results, drawn, drawing⟩ : ∃ results drawn,
      (session.count term.rolls.val).drawMany term.sides.bounds term.rolls.val = (results, drawn) :=
    ⟨_, _, rfl⟩
  have draws : session.Draws term.requests results drawn :=
    (Session.draws_drawMany drawing).of_counted
  have number : results.length = term.rolls.val :=
    draws.length_eq.trans List.length_replicate
  have faces := draws.within keeps
  obtain ⟨total, sum⟩ := faces.exists_total (by omega)
  exact ⟨_, _, .intro counted drawing sum, faces⟩

/-- What a flag chooses from so few dice has a total. -/
theorem Rolls.exists_flagged {flag : Flag} {rolled : Rolled} {after : Session σ}
    (rolls : term.Rolls session rolled after) (faces : rolled.results.Within term.sides.bounds)
    (few : term.rolls.val ≤ 2147483648)
    (chooser : flag.kind ∈ ([.advantage, .disadvantage, .keep, .drop] : List FlagKind)) :
    ∃ selected total step, flag.Chooses rolled.results selected ∧ total.val = selected.sum ∧
      (Expr.flagged (.dice term) flag).Rolls session
        (.flagged (.dice rolled) flag rolled.results selected total)
        (after.record (.step step)) := by
  obtain ⟨rfl, number, _⟩ := rolls.consistent
  have nonempty : rolled.results ≠ [] :=
    List.ne_nil_of_length_pos (number ▸ rolled.dice.rolls.pos)
  obtain ⟨selected, chooses⟩ := Flag.exists_chooses chooser nonempty
  have part := chooses.sublist
  obtain ⟨total, sum⟩ := (faces.sublist part).exists_total
    (part.length_le.trans (number ▸ few))
  obtain ⟨step, flagged⟩ := Expr.Rolls.flagged_of_chooses (.dice rolls) rfl chooses sum
  exact ⟨selected, total, step, chooses, Pool.total_exact sum, flagged⟩

/-- Under a safe limit, a term that is within the limit, and whose faces the source keeps to, is
rolled: as many faces come up as it has dice, each within the bounds of its sides, and so is their
total with as many times these bounds. A flag behind the term that selects from its results, or
takes the best or the worst of them, comes to what it chooses. An evaluation of both does not fail
either, whatever is counted before it. -/
theorem roll_within_limit {limit : Nat} (limited : session.limit = some limit)
    (safe : limit ≤ 2147483648) (within : session.counted + term.rolls.val ≤ limit)
    (keeps : Source.KeepsBounds session.source) :
    ∃ rolled after, term.roll session = .ok rolled after ∧
      rolled.results.length = term.rolls.val ∧ rolled.results.Within term.sides.bounds ∧
      rolled.total.val = rolled.results.sum ∧
      term.rolls.val * term.sides.bounds.low.val ≤ rolled.total.val ∧
      rolled.total.val ≤ term.rolls.val * term.sides.bounds.high.val ∧
      ∀ flag : Flag,
        flag.kind ∈ ([.advantage, .disadvantage, .keep, .drop] : List FlagKind) →
        (∃ selected total step, flag.Chooses rolled.results selected ∧
          total.val = selected.sum ∧
          (Expr.flagged (.dice term) flag).roll session =
            .ok (.flagged (.dice rolled) flag rolled.results selected total)
              (after.record (.step step))) ∧
        ∀ text counted, ∃ roll ended,
          Expression.roll ⟨text, .flagged (.dice term) flag⟩ { session with counted } =
            .ok roll ended := by
  obtain ⟨rolled, after, rolls, faces⟩ := exists_rolls limited safe within keeps
  obtain ⟨same, number, sum⟩ := rolls.consistent
  rw [same] at number
  have few : term.rolls.val ≤ 2147483648 := by omega
  obtain ⟨least, most⟩ := Pool.sum_bounds faces
  rw [number, ← sum] at least most
  refine ⟨rolled, after, roll_eq_ok_iff.mpr rolls, number, faces, sum, least, most,
    fun flag chooser => ⟨?_, fun text counted => ?_⟩⟩
  · obtain ⟨selected, total, step, chooses, exact, flagged⟩ :=
      rolls.exists_flagged faces few chooser
    exact ⟨selected, total, step, chooses, exact, Expr.roll_eq_ok_iff.mpr flagged⟩
  · have start : 0 + term.rolls.val ≤ limit := by omega
    obtain ⟨again, ended, rolls, faces⟩ : ∃ again ended,
        term.Rolls { session with counted := 0 } again ended ∧
          again.results.Within term.sides.bounds :=
      exists_rolls limited safe start keeps
    obtain ⟨selected, total, step, _, _, flagged⟩ := rolls.exists_flagged faces few chooser
    exact ⟨⟨text, _⟩, _, Expression.roll_eq_ok_iff.mpr ⟨rfl, flagged⟩⟩

/-- As many dice as a safe limit may allow, with as many sides as there can be, all of which show
their highest face. -/
theorem roll_within_limit_highest :
    let term : Dice :=
      ⟨⟨2147483648, by decide, by decide⟩, .numbered ⟨4294967295, by decide, by decide⟩⟩
    let flag : Flag := ⟨.keep, some ⟨2147483647, by decide⟩⟩
    let session := Session.start (some 2147483648) Loaded.highest
    session.limit = some 2147483648 ∧ session.counted + term.rolls.val ≤ 2147483648 ∧
      Source.KeepsBounds session.source ∧
      ∃ rolled after, term.roll session = .ok rolled after ∧
        rolled.results.length = term.rolls.val ∧ rolled.total.val ≤ 9223372034707292160 ∧
        ∃ roll ended, Expression.roll ⟨"2147483648d4294967295!keep(2147483647)",
          .flagged (.dice term) flag⟩ { session with counted := 1 } = .ok roll ended := by
  intro term flag session
  have limited : session.limit = some 2147483648 := rfl
  have within : session.counted + term.rolls.val ≤ 2147483648 := by decide
  have keeps : Source.KeepsBounds session.source := Loaded.keepsBounds_highest
  obtain ⟨rolled, after, done, number, _, _, _, most, flags⟩ :=
    roll_within_limit limited (le_refl _) within keeps
  have bound : (term.rolls.val * term.sides.bounds.high.val : Int) ≤ 9223372034707292160 := by
    decide
  exact ⟨limited, within, keeps, rolled, after, done, number, most.trans bound,
    (flags flag (by decide)).2 _ 1⟩

end Dice

end Tabletop
