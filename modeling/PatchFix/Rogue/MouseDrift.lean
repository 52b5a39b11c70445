import Mathlib.Tactic.LinearCombination
import PatchFix.Library.WeightedWalk
import PatchFix.Rogue.MouseAxisFilter

/-! How far the engine's motion drifts from the mouse's, for one factor over runs of any length. -/

namespace PatchFix.Rogue

open FirstOrderLag Rounding TransitionRun WeightedWalk

namespace ActiveFactor

variable (factor : ActiveFactor)

def gain : ℚ := 1 / factor.value

def wholeGain : ℤ := ⌊factor.gain + 1 / 2⌋

/-- What the gain has over the integer nearest to it. -/
def excess : ℚ := factor.gain - factor.wholeGain

/-- The largest delta that a run short of the limit can reach. -/
def farthest : ℤ := ⌈kMouseDeltaLimit - factor.gain⌉

/-- The largest change of the delta from one frame to the next in such a run. -/
def longest : ℤ := ⌈(kMouseDeltaLimit + factor.farthest) / factor.gain⌉ - 1

/-- Over the longest change the excess makes up less than half a count, or just half a count short
of what the integer gain gives. -/
def DriftFree : Prop :=
  |factor.excess| * factor.longest < 1 / 2 ∨
    |factor.excess| * factor.longest = 1 / 2 ∧ factor.excess < 0

instance : Decidable factor.DriftFree := inferInstanceAs (Decidable (_ ∨ _))

theorem one_lt_gain : 1 < factor.gain :=
  one_lt_one_div factor.positive factor.belowOne

theorem gain_lt : factor.gain < 51 := by
  have least := one_div_le_one_div_of_le (by norm_num [kMouseMinFactor]) factor.least
  exact lt_of_le_of_lt least (by norm_num [kMouseMinFactor])

theorem excess_bounds : -(1 / 2) ≤ factor.excess ∧ factor.excess < 1 / 2 := by
  have lower := Int.floor_le (factor.gain + 1 / 2)
  have upper := Int.lt_floor_add_one (factor.gain + 1 / 2)
  unfold excess wholeGain
  exact ⟨by linarith, by linarith⟩

theorem abs_le_farthest_iff (raw : ℤ) :
    |raw| ≤ factor.farthest ↔ |(raw : ℚ)| < kMouseDeltaLimit - factor.gain + 1 := by
  rw [farthest, Int.le_ceil_iff, Int.cast_abs, sub_lt_iff_lt_add]

theorem farthest_bounds :
    kMouseDeltaLimit - factor.gain ≤ factor.farthest ∧
      (factor.farthest : ℚ) < kMouseDeltaLimit - factor.gain + 1 :=
  ⟨Int.le_ceil _, Int.ceil_lt_add_one _⟩

theorem longest_bounds :
    factor.longest * factor.gain < kMouseDeltaLimit + factor.farthest ∧
      kMouseDeltaLimit + factor.farthest ≤ (factor.longest + 1) * factor.gain := by
  have positive : 0 < factor.gain := one_pos.trans factor.one_lt_gain
  have lower := Int.ceil_lt_add_one ((kMouseDeltaLimit + factor.farthest) / factor.gain)
  have upper := Int.le_ceil ((kMouseDeltaLimit + factor.farthest) / factor.gain)
  have whole : (factor.longest : ℚ) + 1 = ⌈(kMouseDeltaLimit + factor.farthest) / factor.gain⌉ := by
    rw [longest]
    push_cast
    ring
  rw [← whole] at lower upper
  exact ⟨(lt_div_iff₀ positive).mp (by linarith), (div_le_iff₀ positive).mp upper⟩

def outFrom (last next : ℤ) : ℚ := last + (next - last) * factor.gain

def Feasible (last next : ℤ) : Prop := |factor.outFrom last next| < kMouseDeltaLimit

def wholeOut (last next : ℤ) : ℤ := last + (next - last) * factor.wholeGain

def defect (last next : ℤ) : ℤ := halfAway (factor.outFrom last next) - factor.wholeOut last next

theorem outFrom_sub_wholeOut (last next : ℤ) :
    factor.outFrom last next - factor.wholeOut last next = (next - last) * factor.excess := by
  unfold outFrom wholeOut excess
  push_cast
  ring

theorem defect_eq_zero_iff (last next : ℤ) :
    factor.defect last next = 0 ↔
      RoundsAway (factor.outFrom last next) (factor.wholeOut last next) := by
  rw [defect, sub_eq_zero, halfAway_eq_iff]

def store (state : Tracking) : ℚ :=
  factor.excess * state.filter.estimate +
    (factor.gain - 1) * (state.engine - state.filter.estimate)

def slack : ℚ := |factor.excess| * factor.farthest + (factor.gain - 1) / 2

def landed (last : ℤ) (engine : ℚ) : Tracking := ⟨⟨last, 0⟩, engine⟩

def step (state : Tracking) (raw : ℤ) : Tracking := state.step (factor.frame raw)

def Short (state : Tracking) (raw : ℤ) : Prop :=
  |state.filter.out (factor.frame raw).raw (factor.frame raw).factor| < kMouseDeltaLimit

theorem landed_out (last next : ℤ) (engine : ℚ) :
    (landed last engine).filter.out (factor.frame next).raw (factor.frame next).factor =
      factor.outFrom last next := by
  change (last : ℚ) + (next + 0 - last) / factor.value = last + (next - last) * (1 / factor.value)
  ring

theorem short_landed (last next : ℤ) (engine : ℚ) :
    factor.Short (landed last engine) next ↔ factor.Feasible last next := by
  rw [Short, landed_out, Feasible]

theorem step_landed {last next : ℤ} (feasible : factor.Feasible last next) (engine : ℚ) :
    factor.step (landed last engine) next =
      landed next
        (lag factor.value engine (factor.wholeOut last next + factor.defect last next)) := by
  have filter : (factor.step (landed last engine) next).filter = ⟨next, 0⟩ := by
    have unclamped := (factor.short_landed last next engine).mpr feasible
    refine (Tracking.step_unclamped (LT.lt.le unclamped)).trans ?_
    simp [landed, MouseAxisFilter.target, frame]
  have output : (factor.step (landed last engine) next).engine =
      lag factor.value engine (halfAway (factor.outFrom last next)) := by
    change lag _ _ ((MouseAxisFilter.apply _ _ _).2 : ℚ) = _
    rw [MouseAxisFilter.apply_output, landed_out, clampDelta_of_abs_le feasible.le]
    rfl
  have split : halfAway (factor.outFrom last next) =
      factor.wholeOut last next + factor.defect last next := by
    rw [defect]
    ring
  rw [split, Int.cast_add] at output
  exact congrArg₂ Tracking.mk filter output

/-- In one frame the engine's motion differs from the mouse's by what goes into store and by the
defect of the output. -/
theorem step_drift {last next : ℤ} (feasible : factor.Feasible last next) (engine : ℚ) :
    (factor.step (landed last engine) next).engine - next +
        factor.store (factor.step (landed last engine) next) =
      factor.store (landed last engine) + factor.defect last next := by
  rw [factor.step_landed feasible engine]
  have nonzero : factor.value ≠ 0 := factor.positive.ne'
  simp only [store, landed, lag, wholeOut, excess, gain]
  push_cast
  field_simp
  ring

theorem drift_eq {last finish : ℤ} {raws : List ℤ} (walk : Walk factor.Feasible last raws finish)
    (engine : ℚ) :
    Along factor.step factor.Short (landed last engine) raws ∧
      total factor.step Tracking.engine (landed last engine) raws - raws.sum +
          factor.store (raws.foldl factor.step (landed last engine)) =
        factor.store (landed last engine) + WeightedWalk.total factor.defect last raws := by
  induction raws generalizing last engine with
  | nil => exact ⟨trivial, by simp [TransitionRun.total, WeightedWalk.total]⟩
  | cons next raws ih =>
      obtain ⟨feasible, later⟩ := walk
      have here := factor.step_drift feasible engine
      rw [factor.step_landed feasible engine] at here
      obtain ⟨along, rest⟩ := ih later _
      refine ⟨⟨(factor.short_landed last next engine).mpr feasible, ?_⟩, ?_⟩
      · rw [factor.step_landed feasible engine]
        exact along
      · rw [TransitionRun.total, WeightedWalk.total, List.foldl_cons, List.sum_cons,
          factor.step_landed feasible engine, Int.cast_add, Int.cast_add]
        linear_combination here + rest

theorem foldl_landed {last finish : ℤ} {raws : List ℤ}
    (walk : Walk factor.Feasible last raws finish) (engine : ℚ) :
    ∃ reached, raws.foldl factor.step (landed last engine) = landed finish reached := by
  induction raws generalizing last engine with
  | nil => exact ⟨engine, congrArg (landed · engine) walk⟩
  | cons next raws ih =>
      obtain ⟨feasible, later⟩ := walk
      rw [List.foldl_cons, factor.step_landed feasible engine]
      exact ih later _

theorem store_landed_le {last : ℤ} {engine : ℚ} (within : |last| ≤ factor.farthest)
    (close : (landed last engine).Close) : |factor.store (landed last engine)| ≤ factor.slack := by
  have far : |(last : ℚ)| ≤ factor.farthest := by
    rw [← Int.cast_abs]
    exact_mod_cast within
  have steep : 0 ≤ factor.gain - 1 := by linarith [factor.one_lt_gain]
  calc |factor.store (landed last engine)|
      ≤ |factor.excess * last| + |(factor.gain - 1) * (engine - last)| := abs_add_le _ _
    _ = |factor.excess| * |(last : ℚ)| + (factor.gain - 1) * |engine - last| := by
        rw [abs_mul, abs_mul, abs_of_nonneg steep]
    _ ≤ |factor.excess| * factor.farthest + (factor.gain - 1) * (1 / 2) :=
        add_le_add (mul_le_mul_of_nonneg_left far (abs_nonneg _))
          (mul_le_mul_of_nonneg_left close steep)
    _ = factor.slack := by rw [slack]; ring

theorem walk_of_along {last : ℤ} {raws : List ℤ} {engine : ℚ}
    (along : Along factor.step factor.Short (landed last engine) raws) :
    ∃ finish, Walk factor.Feasible last raws finish := by
  induction raws generalizing last engine with
  | nil => exact ⟨last, rfl⟩
  | cons next raws ih =>
      obtain ⟨short, later⟩ := along
      have feasible := (factor.short_landed last next engine).mp short
      rw [factor.step_landed feasible engine] at later
      obtain ⟨finish, walk⟩ := ih later
      exact ⟨finish, feasible, walk⟩

variable {factor}

theorem outFrom_neg (last next : ℤ) :
    factor.outFrom (-last) (-next) = -factor.outFrom last next := by
  unfold outFrom
  push_cast
  ring

theorem feasible_neg {last next : ℤ} :
    factor.Feasible (-last) (-next) ↔ factor.Feasible last next := by
  rw [Feasible, outFrom_neg, abs_neg, Feasible]

theorem Feasible.rising {last next : ℤ} (feasible : factor.Feasible last next)
    (rising : last < next) : (next : ℚ) < kMouseDeltaLimit - factor.gain + 1 := by
  have upper := (abs_lt.mp feasible).2
  have change : (1 : ℚ) ≤ next - last := by exact_mod_cast Int.sub_pos_of_lt rising
  have steeper : 1 * (factor.gain - 1) ≤ (next - last) * (factor.gain - 1) :=
    mul_le_mul_of_nonneg_right change (by linarith [factor.one_lt_gain])
  unfold outFrom at upper
  linarith

theorem Feasible.within {last next : ℤ} (feasible : factor.Feasible last next)
    (within : |last| ≤ factor.farthest) : |next| ≤ factor.farthest := by
  have here := (factor.abs_le_farthest_iff last).mp within
  obtain ⟨lower, upper⟩ := abs_lt.mp here
  rw [abs_le_farthest_iff, abs_lt]
  rcases lt_trichotomy last next with rising | rfl | falling
  · have above : (last : ℚ) < next := by exact_mod_cast rising
    exact ⟨by linarith, feasible.rising rising⟩
  · exact ⟨lower, upper⟩
  · have below : (next : ℚ) < last := by exact_mod_cast falling
    have mirrored := (feasible_neg.mpr feasible).rising (neg_lt_neg falling)
    push_cast at mirrored
    exact ⟨by linarith, by linarith⟩

theorem Feasible.change_le {last next : ℤ} (feasible : factor.Feasible last next)
    (within : |last| ≤ factor.farthest) : next - last ≤ factor.longest := by
  have upper := (abs_lt.mp feasible).2
  have lower : -(factor.farthest : ℚ) ≤ last := by exact_mod_cast (abs_le.mp within).1
  have whole := factor.longest_bounds.2
  unfold outFrom at upper
  have less : ((next - last : ℤ) : ℚ) * factor.gain < (factor.longest + 1) * factor.gain := by
    push_cast
    linarith
  have positive : 0 < factor.gain := one_pos.trans factor.one_lt_gain
  have shorter : ((next - last : ℤ) : ℚ) < (factor.longest + 1 : ℤ) := by
    push_cast at less ⊢
    exact lt_of_mul_lt_mul_right less positive.le
  exact Int.lt_add_one_iff.mp (by exact_mod_cast shorter)

theorem outFrom_pos_of_longest {last next : ℤ} (within : |last| ≤ factor.farthest)
    (longest : next - last = factor.longest) : 0 < factor.outFrom last next := by
  have lower : -(factor.farthest : ℚ) ≤ last := by exact_mod_cast (abs_le.mp within).1
  have change : (next : ℚ) - last = factor.longest := by exact_mod_cast longest
  have whole := factor.longest_bounds.2
  have small := factor.gain_lt
  unfold kMouseDeltaLimit at whole
  rw [outFrom, change]
  linarith

theorem defect_neg (last next : ℤ) :
    factor.defect (-last) (-next) = -factor.defect last next := by
  rw [defect, outFrom_neg, halfAway_neg, defect, wholeOut, wholeOut]
  ring

theorem defect_of_small {last next : ℤ} (small : |(next - last : ℚ) * factor.excess| < 1 / 2) :
    factor.defect last next = 0 := by
  rw [defect_eq_zero_iff]
  exact Or.inl (by rwa [outFrom_sub_wholeOut])

theorem defect_of_tie {last next : ℤ} (tie : |(next - last : ℚ) * factor.excess| = 1 / 2)
    (positive : 0 < factor.outFrom last next) (below : (next - last : ℚ) * factor.excess < 0) :
    factor.defect last next = 0 := by
  rw [defect_eq_zero_iff]
  have apart := factor.outFrom_sub_wholeOut last next
  refine Or.inr ⟨by rw [apart, tie], ?_⟩
  rw [abs_of_pos positive]
  exact lt_of_lt_of_le (by linarith) (le_abs_self _)

theorem DriftFree.defect_of_rising (free : factor.DriftFree) {last next : ℤ}
    (within : |last| ≤ factor.farthest) (feasible : factor.Feasible last next)
    (rising : last ≤ next) : factor.defect last next = 0 := by
  have nonneg : (0 : ℚ) ≤ next - last := by exact_mod_cast Int.sub_nonneg_of_le rising
  have change : (next - last : ℚ) ≤ factor.longest := by
    exact_mod_cast feasible.change_le within
  have size : |(next - last : ℚ) * factor.excess| ≤ |factor.excess| * factor.longest := by
    rw [abs_mul, abs_of_nonneg nonneg, mul_comm]
    exact mul_le_mul_of_nonneg_left change (abs_nonneg _)
  rcases free with small | ⟨tie, negative⟩
  · exact defect_of_small (lt_of_le_of_lt size small)
  · rcases (tie ▸ size).lt_or_eq with smaller | same
    · exact defect_of_small smaller
    · have longest : (next - last : ℚ) = factor.longest := by
        rw [← tie, abs_mul, abs_of_nonneg nonneg, mul_comm] at same
        exact mul_left_cancel₀ (abs_pos.mpr negative.ne).ne' same
      have steps : next - last = factor.longest := by exact_mod_cast longest
      refine defect_of_tie same (outFrom_pos_of_longest within steps) ?_
      have moved : (next - last : ℚ) ≠ 0 := by
        rintro still
        rw [still] at same
        norm_num at same
      exact mul_neg_of_pos_of_neg (lt_of_le_of_ne nonneg moved.symm) negative

theorem DriftFree.defect_eq_zero (free : factor.DriftFree) {last next : ℤ}
    (within : |last| ≤ factor.farthest) (feasible : factor.Feasible last next) :
    factor.defect last next = 0 := by
  rcases le_total last next with rising | falling
  · exact free.defect_of_rising within feasible rising
  · have mirrored := free.defect_of_rising (by rwa [abs_neg]) (feasible_neg.mpr feasible)
      (neg_le_neg falling)
    rwa [defect_neg, neg_eq_zero] at mirrored

theorem feasible_up {last : ℤ} (within : |last| ≤ factor.farthest)
    (next : |last + 1| ≤ factor.farthest) : factor.Feasible last (last + 1) := by
  obtain ⟨lower, _⟩ := abs_lt.mp ((factor.abs_le_farthest_iff last).mp within)
  obtain ⟨_, upper⟩ := abs_lt.mp ((factor.abs_le_farthest_iff (last + 1)).mp next)
  have steep := factor.one_lt_gain
  rw [Feasible, outFrom, abs_lt]
  push_cast at upper ⊢
  exact ⟨by linarith, by linarith⟩

theorem feasible_down {last : ℤ} (within : |last| ≤ factor.farthest)
    (next : |last - 1| ≤ factor.farthest) : factor.Feasible last (last - 1) := by
  rw [← feasible_neg, neg_sub', sub_neg_eq_add]
  exact feasible_up (by rwa [abs_neg]) (by rwa [← abs_neg, neg_add, neg_neg])

theorem exists_unitStep {start finish : ℤ} (apart : start ≠ finish)
    (first : |start| ≤ factor.farthest) (second : |finish| ≤ factor.farthest) :
    ∃ next, |next| ≤ factor.farthest ∧ factor.Feasible start next ∧ |next - start| = 1 ∧
      (finish - start).natAbs = (finish - next).natAbs + 1 := by
  have ⟨_, startAbove⟩ := abs_le.mp first
  have ⟨_, finishAbove⟩ := abs_le.mp second
  rcases apart.lt_or_gt with rising | falling
  · have within : |start + 1| ≤ factor.farthest := abs_le.mpr (by omega)
    exact ⟨start + 1, within, feasible_up first within, by simp, by omega⟩
  · have within : |start - 1| ≤ factor.farthest := abs_le.mpr (by omega)
    exact ⟨start - 1, within, feasible_down first within, by simp, by omega⟩

theorem defect_of_unit (small : |factor.excess| < 1 / 2) {last next : ℤ}
    (unit : |next - last| = 1) : factor.defect last next = 0 := by
  refine defect_of_small ?_
  have change : |(next - last : ℚ)| = 1 := by exact_mod_cast congrArg (Int.cast : ℤ → ℚ) unit
  rwa [abs_mul, change, one_mul]

theorem exists_unitWalk (distance : ℕ) {start finish : ℤ}
    (apart : (finish - start).natAbs = distance) (first : |start| ≤ factor.farthest)
    (second : |finish| ≤ factor.farthest) :
    ∃ walk, Walk factor.Feasible start walk finish ∧
      (|factor.excess| < 1 / 2 → WeightedWalk.total factor.defect start walk = 0) := by
  induction distance generalizing start with
  | zero => exact ⟨[], by simp only [Walk]; omega, fun _ => rfl⟩
  | succ distance ih =>
      have different : start ≠ finish := by omega
      obtain ⟨next, within, feasible, unit, closer⟩ := exists_unitStep different first second
      obtain ⟨walk, rest, weightless⟩ := ih (by omega) within
      refine ⟨next :: walk, ⟨feasible, rest⟩, fun small => ?_⟩
      rw [WeightedWalk.total, defect_of_unit small unit, weightless small, add_zero]

variable (factor) in
theorem farthest_large : 101 < factor.farthest ∧ 0 < factor.longest := by
  have small := factor.gain_lt
  have steep := factor.one_lt_gain
  have far := factor.farthest_bounds.1
  have whole := factor.longest_bounds.2
  unfold kMouseDeltaLimit at far whole
  constructor
  · have wide : (101 : ℚ) < factor.farthest := by linarith
    exact_mod_cast wide
  · have long : (1 : ℚ) * factor.gain < (factor.longest + 1) * factor.gain := by linarith
    have more : (1 : ℚ) < factor.longest + 1 := lt_of_mul_lt_mul_right long (by linarith)
    have rises : (0 : ℚ) < factor.longest := by linarith
    exact_mod_cast rises

variable (factor) in
theorem zero_within : |(0 : ℤ)| ≤ factor.farthest := by
  have ⟨far, _⟩ := factor.farthest_large
  rw [abs_zero]
  omega

variable (factor) in
theorem lowest_within : |-factor.farthest| ≤ factor.farthest := by
  have ⟨far, _⟩ := factor.farthest_large
  rw [abs_neg, abs_of_pos (by omega)]

variable (factor) in
theorem feasible_longest :
    factor.Feasible (-factor.farthest) (factor.longest - factor.farthest) := by
  have upper := factor.longest_bounds.1
  have steep := factor.one_lt_gain
  have far := factor.farthest_bounds.2
  have rises : (0 : ℚ) < factor.longest * factor.gain := by
    have positive : (0 : ℚ) < factor.longest := by exact_mod_cast factor.farthest_large.2
    exact mul_pos positive (by linarith)
  rw [Feasible, outFrom, abs_lt]
  push_cast
  exact ⟨by linarith, by linarith⟩

theorem defect_ne_zero {last next : ℤ} (positive : 0 < factor.outFrom last next)
    (large : 1 / 2 < |(next - last : ℚ) * factor.excess| ∨
      (next - last : ℚ) * factor.excess = 1 / 2) : factor.defect last next ≠ 0 := by
  have apart := factor.outFrom_sub_wholeOut last next
  rw [Ne, defect_eq_zero_iff]
  rintro (near | ⟨tie, below⟩)
  · rw [apart] at near
    rcases large with large | same
    · exact absurd near large.not_gt
    · rw [same] at near
      norm_num at near
  · rw [apart] at tie
    rcases large with large | same
    · exact absurd tie large.ne'
    · have above : (-1 : ℚ) < factor.wholeOut last next := by linarith
      have nonneg : 0 ≤ factor.wholeOut last next := by
        have whole : -1 < factor.wholeOut last next := by exact_mod_cast above
        omega
      rw [abs_of_pos positive, abs_of_nonneg (by exact_mod_cast nonneg)] at below
      linarith

theorem defect_longest_ne_zero (drifts : ¬factor.DriftFree) :
    factor.defect (-factor.farthest) (factor.longest - factor.farthest) ≠ 0 := by
  have ⟨_, long⟩ := factor.farthest_large
  refine defect_ne_zero (outFrom_pos_of_longest factor.lowest_within (by omega)) ?_
  have change : ((factor.longest - factor.farthest : ℤ) - (-factor.farthest : ℤ) : ℚ) =
      factor.longest := by
    push_cast
    ring
  have nonneg : (0 : ℚ) ≤ factor.longest := by exact_mod_cast long.le
  obtain ⟨notSmall, notTie⟩ := not_or.mp drifts
  rw [change, abs_mul, abs_of_nonneg nonneg, mul_comm (factor.longest : ℚ)]
  rcases (not_lt.mp notSmall).lt_or_eq with large | same
  · exact Or.inl large
  · have rising : 0 ≤ factor.excess := not_lt.mp fun negative => notTie ⟨same.symm, negative⟩
    exact Or.inr (by rw [mul_comm, ← abs_of_nonneg rising]; exact same.symm)

/-- Some cycle of deltas short of the limit adds to the drift. -/
theorem exists_heavyCycle (drifts : ¬factor.DriftFree) :
    ∃ turn cycle, |turn| ≤ factor.farthest ∧ Walk factor.Feasible turn cycle turn ∧
      WeightedWalk.total factor.defect turn cycle ≠ 0 := by
  have ⟨far, _⟩ := factor.farthest_large
  by_cases small : |factor.excess| < 1 / 2
  · -- Unit steps add nothing, so the longest step and a way back by them weigh what it does.
    have base := factor.lowest_within
    have up := factor.feasible_longest
    obtain ⟨back, walk, weightless⟩ := exists_unitWalk _ rfl (up.within base) base
    refine ⟨-factor.farthest, _ :: back, base, ⟨up, walk⟩, ?_⟩
    rw [WeightedWalk.total, weightless small, add_zero]
    exact defect_longest_ne_zero drifts
  · -- Halfway between two integer gains, one of the two unit steps above 0 rounds away.
    have half : factor.excess = -(1 / 2) := by
      obtain ⟨lower, upper⟩ := factor.excess_bounds
      by_contra other
      exact small (abs_lt.mpr ⟨lt_of_le_of_ne lower (Ne.symm other), upper⟩)
    have steep := factor.one_lt_gain
    have gentle := factor.gain_lt
    have first : |(100 : ℤ)| ≤ factor.farthest := by rw [abs_of_pos (by omega)]; omega
    have second : |(101 : ℤ)| ≤ factor.farthest := by rw [abs_of_pos (by omega)]; omega
    have up : factor.defect 100 101 = 0 :=
      defect_of_tie (by rw [half]; norm_num) (by norm_num [outFrom]; linarith)
        (by rw [half]; norm_num)
    have down : factor.defect 101 100 ≠ 0 :=
      defect_ne_zero (by norm_num [outFrom]; linarith) (Or.inr (by rw [half]; norm_num))
    refine ⟨100, [101, 100], first, ⟨feasible_up first second, feasible_down second first, rfl⟩, ?_⟩
    simpa [WeightedWalk.total, up] using down

variable (factor) in
/-- Short of the limit, the drift is what the defects add up to, but for a bounded rest. -/
theorem drift_near {raws : List ℤ} {finish : ℤ} (walk : Walk factor.Feasible 0 raws finish) :
    |total factor.step Tracking.engine (landed 0 0) raws - raws.sum -
        WeightedWalk.total factor.defect 0 raws| ≤ factor.slack := by
  have balance := (factor.drift_eq walk 0).2
  obtain ⟨reached, final⟩ := factor.foldl_landed walk 0
  have close : (raws.foldl factor.step (landed 0 0)).Close :=
    foldl_invariant Tracking.Close (by simp [Tracking.Close, landed])
      fun state held raw _ => Tracking.step_close held (factor.frame raw)
  have within : |finish| ≤ factor.farthest :=
    walk.invariant (fun last => |last| ≤ factor.farthest) factor.zero_within
      fun last next inside feasible => feasible.within inside
  have start : factor.store (landed 0 0) = 0 := by simp [store, landed]
  rw [final] at close balance
  rw [start, zero_add] at balance
  rw [← balance, sub_add_cancel_left, abs_neg]
  exact factor.store_landed_le within close

theorem DriftFree.bounded (free : factor.DriftFree) {raws : List ℤ}
    (along : Along factor.step factor.Short (landed 0 0) raws) :
    |total factor.step Tracking.engine (landed 0 0) raws - raws.sum| ≤ factor.slack := by
  obtain ⟨finish, walk⟩ := factor.walk_of_along along
  have weightless : WeightedWalk.total factor.defect 0 raws = 0 :=
    walk.total_eq_zero (fun last => |last| ≤ factor.farthest) factor.zero_within
      (fun _ _ inside feasible => feasible.within inside)
      (fun _ _ inside feasible => free.defect_eq_zero inside feasible)
  have near := factor.drift_near walk
  rwa [weightless, Int.cast_zero, sub_zero] at near

theorem drift_unbounded_of_cycle {turn : ℤ} {first cycle : List ℤ}
    (reach : Walk factor.Feasible 0 first turn) (loop : Walk factor.Feasible turn cycle turn)
    (heavy : WeightedWalk.total factor.defect turn cycle ≠ 0) (bound : ℚ) :
    ∃ count, Along factor.step factor.Short (landed 0 0) (first ++ rounds cycle count) ∧
      bound < |total factor.step Tracking.engine (landed 0 0) (first ++ rounds cycle count) -
        (first ++ rounds cycle count).sum| := by
  obtain ⟨count, walk, beyond⟩ := unbounded_of_cycle reach loop heavy ⌈bound + factor.slack⌉
  refine ⟨count, (factor.drift_eq walk 0).1, ?_⟩
  have near := factor.drift_near walk
  have large : bound + factor.slack <
      |(WeightedWalk.total factor.defect 0 (first ++ rounds cycle count) : ℚ)| := by
    rw [← Int.cast_abs]
    exact lt_of_le_of_lt (Int.le_ceil _) (by exact_mod_cast beyond)
  rw [abs_sub_comm] at near
  have apart := abs_sub_abs_le_abs_sub
    (WeightedWalk.total factor.defect 0 (first ++ rounds cycle count) : ℚ)
    (total factor.step Tracking.engine (landed 0 0) (first ++ rounds cycle count) -
      (first ++ rounds cycle count).sum)
  linarith

theorem drift_unbounded (drifts : ¬factor.DriftFree) (bound : ℚ) :
    ∃ raws, Along factor.step factor.Short (landed 0 0) raws ∧
      bound < |total factor.step Tracking.engine (landed 0 0) raws - raws.sum| := by
  obtain ⟨turn, cycle, within, loop, heavy⟩ := exists_heavyCycle drifts
  obtain ⟨first, reach, _⟩ := exists_unitWalk _ rfl factor.zero_within within
  obtain ⟨count, unbounded⟩ := drift_unbounded_of_cycle reach loop heavy bound
  exact ⟨_, unbounded⟩

theorem start_eq_landed : Tracking.start 0 = landed 0 0 := by
  simp [Tracking.start, landed]

/-- The motion that the engine adds up stays within one bound of the mouse's, over all runs short of
the limit, exactly when no output is rounded away from the one an integer gain would give. -/
theorem drift_bounded_iff (factor : ActiveFactor) :
    (∃ bound : ℚ, ∀ raws : List ℤ,
      Along factor.step factor.Short (Tracking.start 0) raws →
        |total factor.step Tracking.engine (Tracking.start 0) raws - raws.sum| ≤ bound) ↔
      factor.DriftFree := by
  rw [start_eq_landed]
  constructor
  · rintro ⟨bound, bounded⟩
    by_contra drifts
    obtain ⟨raws, along, beyond⟩ := drift_unbounded drifts bound
    exact absurd (bounded raws along) beyond.not_ge
  · intro free
    exact ⟨factor.slack, fun raws along => free.bounded along⟩

theorem driftFree_of_whole {factor : ActiveFactor} (whole : factor.gain = factor.wholeGain) :
    factor.DriftFree := by
  refine Or.inl ?_
  rw [excess, whole, sub_self, abs_zero, zero_mul]
  norm_num

def defaultFactor : ActiveFactor := ⟨13421773 / 2 ^ 27, by decide +kernel⟩

example : Binary32.rounded (1 / 10) = defaultFactor.value := by decide +kernel

example : defaultFactor.DriftFree := by decide +kernel

def threeTenths : ActiveFactor := ⟨3 / 10, by decide +kernel⟩

/-- At 3/10, every round of the deltas 2, 1, 0 moves the engine one count too far. -/
theorem threeTenths_drifts : ¬∃ bound : ℚ, ∀ count,
    Along threeTenths.step threeTenths.Short (Tracking.start 0) (rounds [2, 1, 0] count) →
      |total threeTenths.step Tracking.engine (Tracking.start 0) (rounds [2, 1, 0] count) -
        ((rounds [2, 1, 0] count).sum : ℤ)| ≤ bound := by
  rintro ⟨bound, bounded⟩
  have loop : Walk threeTenths.Feasible 0 [2, 1, 0] 0 := by
    simp only [Walk, Feasible]
    decide +kernel
  have heavy : WeightedWalk.total threeTenths.defect 0 [2, 1, 0] ≠ 0 := by decide +kernel
  have reach : Walk threeTenths.Feasible 0 [] 0 := rfl
  obtain ⟨count, along, beyond⟩ := drift_unbounded_of_cycle reach loop heavy bound
  rw [start_eq_landed] at bounded
  exact absurd (bounded count along) beyond.not_ge

end ActiveFactor

end PatchFix.Rogue
