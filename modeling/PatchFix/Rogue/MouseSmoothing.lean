import PatchFix.Rogue.MouseAxisFilter

/-!
`MouseSmoothing`'s callback on both axes, and the engine's blend of the deltas that it leaves in the
buffer, over runs that switch the compensation on and off.
-/

namespace PatchFix.Rogue

open FirstOrderLag TransitionRun

inductive Axis where
  | x | y
  deriving DecidableEq, Repr

structure MouseFrame where
  delta : Axis → ℤ
  enabled : Bool
  isInGame : Bool

def MouseFrame.active (frame : MouseFrame) : Bool := frame.enabled && frame.isInGame

def mouseSmoothing (factor : ℚ) (frame : MouseFrame) (filters : Axis → MouseAxisFilter) :
    (Axis → MouseAxisFilter) × (Axis → ℤ) :=
  if !frame.enabled || !factorActive factor || !frame.isInGame then
    (fun axis => (filters axis).reset (frame.delta axis), frame.delta)
  else
    (fun axis => ((filters axis).apply (frame.delta axis) factor).1,
      fun axis => ((filters axis).apply (frame.delta axis) factor).2)

theorem mouseSmoothing_active (factor : ActiveFactor) {frame : MouseFrame}
    (active : frame.active = true) (filters : Axis → MouseAxisFilter) :
    mouseSmoothing factor.value frame filters =
      (fun axis => ((filters axis).apply (frame.delta axis) factor.value).1,
        fun axis => ((filters axis).apply (frame.delta axis) factor.value).2) := by
  obtain ⟨enabled, inGame⟩ := Bool.and_eq_true_iff.mp active
  simp [mouseSmoothing, enabled, inGame, factor.active]

structure MouseRun where
  filters : Axis → MouseAxisFilter
  engine : Axis → ℚ
  compensated : Bool

namespace MouseRun

def start (filters : Axis → MouseAxisFilter) (engine : Axis → ℚ) : MouseRun where
  filters := filters
  engine := engine
  compensated := false

def step (factor : ActiveFactor) (run : MouseRun) (frame : MouseFrame) : MouseRun :=
  let (filters, delta) := mouseSmoothing factor.value frame run.filters
  { filters
    engine := fun axis => lag factor.value (run.engine axis) (delta axis)
    compensated := frame.active }

def tracking (run : MouseRun) (axis : Axis) : Tracking := ⟨run.filters axis, run.engine axis⟩

/-- In a compensated frame whose output is not clamped and that carries no shortfall, the engine
lands within half a count of the delta. -/
def Lands (factor : ActiveFactor) (axis : Axis) (run : MouseRun) (frame : MouseFrame) : Prop :=
  frame.active = true →
    (run.tracking axis).Unclamped (factor.frame (frame.delta axis)) →
    (run.filters axis).carry = 0 →
    |(run.step factor frame).engine axis - frame.delta axis| ≤ 1 / 2

/-- Where the compensation starts, the engine is within half a count of the estimate. -/
def SwitchesClose (axis : Axis) (run : MouseRun) (frame : MouseFrame) : Prop :=
  frame.active = true → run.compensated = false → (run.tracking axis).Close

instance (factor : ActiveFactor) (axis : Axis) : DecidableRel (Lands factor axis) :=
  fun _ _ => inferInstanceAs (Decidable (_ → _ → _ → _ ≤ _))

instance (axis : Axis) : DecidableRel (SwitchesClose axis) :=
  fun _ _ => inferInstanceAs (Decidable (_ → _ → _ ≤ _))

variable {factor : ActiveFactor} {axis : Axis} {run : MouseRun} {frame : MouseFrame}

theorem tracking_step (active : frame.active = true) :
    (run.step factor frame).tracking axis =
      (run.tracking axis).step (factor.frame (frame.delta axis)) := by
  simp only [tracking, step, mouseSmoothing_active factor active]
  rfl

def Tracks (axis : Axis) (run : MouseRun) : Prop :=
  run.compensated = true → (run.tracking axis).Close

theorem close_of_active (tracks : run.Tracks axis) (close : SwitchesClose axis run frame)
    (active : frame.active = true) : (run.tracking axis).Close := by
  cases compensated : run.compensated with
  | true => exact tracks compensated
  | false => exact close active compensated

theorem step_tracks (tracks : run.Tracks axis) (close : SwitchesClose axis run frame) :
    (run.step factor frame).Tracks axis := by
  intro compensated
  have active : frame.active = true := compensated
  rw [tracking_step active]
  exact Tracking.step_close (close_of_active tracks close active) _

theorem estimate_step (active : frame.active = true)
    (unclamped : (run.tracking axis).Unclamped (factor.frame (frame.delta axis)))
    (still : (run.filters axis).carry = 0) :
    ((run.step factor frame).tracking axis).filter.estimate = frame.delta axis := by
  rw [tracking_step active, Tracking.step_unclamped unclamped]
  exact (congrArg _ still).trans (add_zero _)

theorem lands_of_close (tracks : run.Tracks axis) (close : SwitchesClose axis run frame) :
    Lands factor axis run frame := by
  intro active unclamped still
  have near : ((run.step factor frame).tracking axis).Close := step_tracks tracks close active
  rwa [Tracking.Close, estimate_step active unclamped still] at near

/-- A frame that starts far off misses the delta, so that the condition is sharp up to rounding. -/
theorem not_lands_of_far (active : frame.active = true)
    (unclamped : (run.tracking axis).Unclamped (factor.frame (frame.delta axis)))
    (still : (run.filters axis).carry = 0)
    (far : (1 + factor.value) / 2 <
      (1 - factor.value) * |run.engine axis - (run.filters axis).estimate|) :
    ¬Lands factor axis run frame := by
  intro lands
  have misses : ¬((run.tracking axis).step (factor.frame (frame.delta axis))).Close :=
    Tracking.step_far far
  rw [← tracking_step active, Tracking.Close, estimate_step active unclamped still] at misses
  exact misses (lands active unclamped still)

/-- When the compensation only ever starts close, it lands the engine on the delta. -/
theorem lands_of_switchesClose (factor : ActiveFactor) (axis : Axis)
    (filters : Axis → MouseAxisFilter) (engine : Axis → ℚ) (frames : List MouseFrame)
    (close : Along (step factor) (SwitchesClose axis) (start filters engine) frames) :
    Along (step factor) (Lands factor axis) (start filters engine) frames := by
  refine close.imp (Tracks axis) ?_ ?_ ?_
  · exact fun run frame tracks near => lands_of_close tracks near
  · exact fun run frame tracks near => step_tracks tracks near
  · exact fun compensated => absurd compensated Bool.false_ne_true

def tenth : ActiveFactor := ⟨1 / 10, by decide +kernel⟩

def frameOf (enabled : Bool) (delta : ℤ) : MouseFrame where
  delta := fun _ => delta
  enabled := enabled
  isInGame := true

theorem lands_of_still : Along (step tenth) (Lands tenth .x) (start (fun _ => {}) fun _ => 0)
    [frameOf false 0, frameOf true 3, frameOf true (-25), frameOf false (-25), frameOf true 4] :=
  lands_of_switchesClose _ _ _ _ _ (by decide +kernel)

/-- After one frame at 100 with the compensation off, the next one lands at 19. -/
theorem not_lands : ¬Along (step tenth) (Lands tenth .x) (start (fun _ => {}) fun _ => 0)
    [frameOf false 100, frameOf true 100] := by
  decide +kernel

end MouseRun

end PatchFix.Rogue
