import PatchFix.Library.Binary32
import PatchFix.Library.FirstOrderLag
import PatchFix.Library.TransitionRun

/-!
`MouseAxisFilter` over exact rationals, and the lag downstream that its outputs drive, in runs with
any inputs and factors.
-/

namespace PatchFix.Rogue

open FirstOrderLag TransitionRun

def kMouseDeltaLimit : ℚ := 30000

def kMouseMinFactor : ℚ := 5368709 / 2 ^ 28

example : Binary32.rounded (1 / 50) = kMouseMinFactor := by decide +kernel

def clampDelta (value : ℚ) : ℚ :=
  if value < -kMouseDeltaLimit then -kMouseDeltaLimit
  else if kMouseDeltaLimit < value then kMouseDeltaLimit
  else value

theorem clampDelta_of_abs_le {value : ℚ} (within : |value| ≤ kMouseDeltaLimit) :
    clampDelta value = value := by
  obtain ⟨lower, upper⟩ := abs_le.mp within
  rw [clampDelta, if_neg (not_lt.mpr lower), if_neg (not_lt.mpr upper)]

structure MouseAxisFilter where
  estimate : ℚ := 0
  carry : ℚ := 0
  deriving DecidableEq

namespace MouseAxisFilter

def reset (_filter : MouseAxisFilter) (raw : ℚ) : MouseAxisFilter where
  estimate := raw
  carry := 0

def target (filter : MouseAxisFilter) (raw : ℚ) : ℚ := raw + filter.carry

def out (filter : MouseAxisFilter) (raw factor : ℚ) : ℚ :=
  filter.estimate + (filter.target raw - filter.estimate) / factor

def apply (filter : MouseAxisFilter) (raw factor : ℚ) : MouseAxisFilter × ℤ :=
  let limited := clampDelta (filter.out raw factor)
  let estimate := filter.estimate + factor * (limited - filter.estimate)
  ({ estimate, carry := clampDelta (filter.target raw - estimate) }, Rounding.halfAway limited)

variable (filter : MouseAxisFilter) (raw factor : ℚ)

theorem apply_estimate :
    (filter.apply raw factor).1.estimate =
      lag factor filter.estimate (clampDelta (filter.out raw factor)) := rfl

theorem apply_output :
    (filter.apply raw factor).2 = Rounding.halfAway (clampDelta (filter.out raw factor)) := rfl

theorem apply_conserves
    (within : |filter.target raw - (filter.apply raw factor).1.estimate| ≤ kMouseDeltaLimit) :
    (filter.apply raw factor).1.estimate + (filter.apply raw factor).1.carry =
      filter.carry + raw := by
  have carried : (filter.apply raw factor).1.carry =
      filter.target raw - (filter.apply raw factor).1.estimate := clampDelta_of_abs_le within
  rw [carried, target]
  ring

theorem apply_unclamped {factor : ℚ} (nonzero : factor ≠ 0)
    (unclamped : |filter.out raw factor| ≤ kMouseDeltaLimit) :
    (filter.apply raw factor).1 = ⟨filter.target raw, 0⟩ := by
  have landed : (filter.apply raw factor).1.estimate = filter.target raw := by
    rw [apply_estimate, clampDelta_of_abs_le unclamped]
    exact lag_cancel nonzero _ _
  have carried : (filter.apply raw factor).1.carry =
      clampDelta (filter.target raw - (filter.apply raw factor).1.estimate) := rfl
  rw [landed, sub_self, clampDelta_of_abs_le (by norm_num [kMouseDeltaLimit])] at carried
  rw [← landed, ← carried]

end MouseAxisFilter

def factorActive (factor : ℚ) : Bool := factor ≥ kMouseMinFactor && factor < 1

structure ActiveFactor where
  value : ℚ
  active : factorActive value = true

namespace ActiveFactor

variable (factor : ActiveFactor)

theorem least : kMouseMinFactor ≤ factor.value :=
  of_decide_eq_true (Bool.and_eq_true_iff.mp factor.active).1

theorem belowOne : factor.value < 1 :=
  of_decide_eq_true (Bool.and_eq_true_iff.mp factor.active).2

theorem positive : 0 < factor.value :=
  lt_of_lt_of_le (by norm_num [kMouseMinFactor]) factor.least

end ActiveFactor

/-- One frame's input, and the factor of the engine's blend in that frame. -/
structure Frame where
  raw : ℚ
  factor : ℚ
  positive : 0 < factor
  atMostOne : factor ≤ 1

def ActiveFactor.frame (factor : ActiveFactor) (raw : ℤ) : Frame where
  raw := raw
  factor := factor.value
  positive := factor.positive
  atMostOne := factor.belowOne.le

structure Tracking where
  filter : MouseAxisFilter
  engine : ℚ

namespace Tracking

def start (value : ℚ) : Tracking := ⟨⟨value, 0⟩, value⟩

def step (state : Tracking) (frame : Frame) : Tracking where
  filter := (state.filter.apply frame.raw frame.factor).1
  engine := lag frame.factor state.engine (state.filter.apply frame.raw frame.factor).2

/-- The estimate is within the rounding of one output of what it stands for. -/
def Close (state : Tracking) : Prop := |state.engine - state.filter.estimate| ≤ 1 / 2

def ShortfallFits (state : Tracking) (frame : Frame) : Prop :=
  |state.filter.target frame.raw - (state.step frame).filter.estimate| ≤ kMouseDeltaLimit

def Unclamped (state : Tracking) (frame : Frame) : Prop :=
  |state.filter.out frame.raw frame.factor| ≤ kMouseDeltaLimit

instance : DecidableRel ShortfallFits := fun _ _ => inferInstanceAs (Decidable (_ ≤ _))

instance : DecidableRel Unclamped := fun _ _ => inferInstanceAs (Decidable (_ ≤ _))

theorem start_close (value : ℚ) : (start value).Close := by
  simp [Close, start]

theorem step_close {state : Tracking} (close : state.Close) (frame : Frame) :
    (state.step frame).Close := by
  unfold Close step
  rw [MouseAxisFilter.apply_estimate, MouseAxisFilter.apply_output]
  refine lag_close frame.positive.le frame.atMostOne close ?_
  rw [abs_sub_comm]
  exact Rounding.abs_halfAway_sub _

theorem step_far {state : Tracking} {frame : Frame}
    (far : (1 + frame.factor) / 2 <
      (1 - frame.factor) * |state.engine - state.filter.estimate|) :
    ¬(state.step frame).Close := by
  unfold Close step
  rw [MouseAxisFilter.apply_estimate, MouseAxisFilter.apply_output, lag_sub, not_le]
  generalize clampDelta (state.filter.out frame.raw frame.factor) = limited
  have rounded :
      |frame.factor * (Rounding.halfAway limited - limited)| ≤ frame.factor * (1 / 2) := by
    rw [abs_mul, abs_of_pos frame.positive, abs_sub_comm]
    exact mul_le_mul_of_nonneg_left (Rounding.abs_halfAway_sub limited) frame.positive.le
  have kept : |(1 - frame.factor) * (state.engine - state.filter.estimate)| =
      (1 - frame.factor) * |state.engine - state.filter.estimate| := by
    rw [abs_mul, abs_of_nonneg (sub_nonneg.mpr frame.atMostOne)]
  have apart := abs_sub_abs_le_abs_add
    ((1 - frame.factor) * (state.engine - state.filter.estimate))
    (frame.factor * (Rounding.halfAway limited - limited))
  linarith

theorem step_unclamped {state : Tracking} {frame : Frame} (unclamped : state.Unclamped frame) :
    (state.step frame).filter = ⟨state.filter.target frame.raw, 0⟩ :=
  MouseAxisFilter.apply_unclamped _ _ frame.positive.ne' unclamped

theorem delivered {state : Tracking} {frames : List Frame}
    (fits : Along step ShortfallFits state frames) :
    total step (fun reached => reached.filter.estimate) state frames +
        (frames.foldl step state).filter.carry =
      state.filter.carry + (frames.map Frame.raw).sum :=
  fits.total_add_store (fun reached => reached.filter.estimate)
    (fun reached => reached.filter.carry) Frame.raw fun before frame within =>
      before.filter.apply_conserves frame.raw frame.factor within

/-- The engine stays within the rounding of one output of the estimate, and the estimates add up to
the input but for the carry, to the whole input after any output short of the limit. -/
theorem tracks (value : ℚ) (frames : List Frame) :
    (∀ reached ∈ states step (start value) frames, reached.Close) ∧
      (Along step ShortfallFits (start value) frames →
        total step (fun reached => reached.filter.estimate) (start value) frames +
            (frames.foldl step (start value)).filter.carry = (frames.map Frame.raw).sum ∧
          ∀ before last, frames = before ++ [last] →
            (before.foldl step (start value)).Unclamped last →
            total step (fun reached => reached.filter.estimate) (start value) frames =
              (frames.map Frame.raw).sum) := by
  refine ⟨?_, fun fits => ?_⟩
  · exact states_invariant Close (start_close value) fun state close frame _ =>
      step_close close frame
  · have whole := delivered fits
    rw [start, zero_add, ← start] at whole
    refine ⟨whole, ?_⟩
    rintro before last rfl unclamped
    rw [List.foldl_append, List.foldl_cons, List.foldl_nil, step_unclamped unclamped,
      add_zero] at whole
    exact whole

def frame50 (raw : ℚ) : Frame where
  raw := raw
  factor := 1 / 50
  positive := by norm_num
  atMostOne := by norm_num

theorem tracks_flick :
    total step (fun reached => reached.filter.estimate) (start 0)
      ([2000, 0, 0, 0, 0].map frame50) = 2000 := by
  have fits : Along step ShortfallFits (start 0) ([2000, 0, 0, 0, 0].map frame50) := by
    decide +kernel
  have unclamped : (([2000, 0, 0, 0].map frame50).foldl step (start 0)).Unclamped (frame50 0) := by
    decide +kernel
  rw [((tracks 0 _).2 fits).2 ([2000, 0, 0, 0].map frame50) (frame50 0) rfl unclamped]
  decide +kernel

end Tracking

end PatchFix.Rogue
