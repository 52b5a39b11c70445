import PatchFix.Library.Binary32
import PatchFix.Library.TransitionRun

/-!
Rogue's `FPSUnlock`: the cap period in game memory and the timer resolution of the process, which
one call changes one after the other.
-/

namespace PatchFix.Rogue

structure TimerResolution where
  raised : Bool
  begun : Nat
  ended : Nat
  deriving DecidableEq, Repr

namespace TimerResolution

def raise (timer : TimerResolution) (beginOk : Bool) : Bool × TimerResolution :=
  if timer.raised then (true, timer)
  else if beginOk then (true, { timer with raised := true, begun := timer.begun + 1 })
  else (false, { timer with raised := false })

def restore (timer : TimerResolution) : TimerResolution :=
  if timer.raised then { timer with raised := false, ended := timer.ended + 1 } else timer

end TimerResolution

/-- The pointers are absent until `install` finds them; `raiseFailed` is the latest answer of
`raise_timer_resolution`. -/
structure FrameCap where
  targetTime : Option UInt64
  capPeriod : Option Binary32
  timer : TimerResolution
  raiseFailed : Bool
  deriving DecidableEq

structure FpsCall where
  target : Binary32
  beginOk : Bool
  writeOk : Bool

def minFps : Binary32 := 1

def periodFor (target : Binary32) : Binary32 :=
  let target := target.max 0
  if target.lt minFps then 0 else Binary32.thousand.div target

def FrameCap.pace (cap : FrameCap) (period : Binary32) (beginOk : Bool) : FrameCap :=
  if period = 0 then { cap with timer := cap.timer.restore }
  else
    let (raised, timer) := cap.timer.raise beginOk
    { cap with timer, raiseFailed := !raised }

def applyFpsPatch (cap : FrameCap) (call : FpsCall) : FrameCap :=
  if cap.targetTime.isNone ∨ cap.capPeriod.isNone then cap
  else
    let period := periodFor call.target
    let paced := cap.pace period call.beginOk
    if call.writeOk then { paced with capPeriod := some period, targetTime := some 0 } else paced

structure FollowsCap (cap : FrameCap) : Prop where
  net : cap.timer.begun = cap.timer.ended ∨ cap.timer.begun = cap.timer.ended + 1
  raised : cap.timer.begun = cap.timer.ended + 1 → cap.capPeriod ≠ some 0
  restored : cap.timer.begun = cap.timer.ended → cap.capPeriod = some 0 ∨ cap.raiseFailed = true

/-- The write succeeds, or what it leaves in place agrees with what the timer was set to. -/
def KeepsPeriod (cap : FrameCap) (call : FpsCall) : Prop :=
  call.writeOk = true ∨
    (periodFor call.target = 0 ∧ (cap.capPeriod = some 0 ∨ cap.raiseFailed = true)) ∨
    (periodFor call.target ≠ 0 ∧ (cap.capPeriod ≠ some 0 ∨ call.beginOk = false))

structure Tracked (cap : FrameCap) : Prop where
  found : cap.targetTime.isNone = false ∧ cap.capPeriod.isNone = false
  counted : cap.timer.begun = cap.timer.ended + cap.timer.raised.toNat
  answered : cap.timer.raised = true → cap.raiseFailed = false

theorem Tracked.net_eq {cap : FrameCap} (tracked : Tracked cap) :
    (cap.timer.begun = cap.timer.ended + 1 ↔ cap.timer.raised = true) ∧
      (cap.timer.begun = cap.timer.ended ↔ cap.timer.raised = false) := by
  rw [tracked.counted]
  cases cap.timer.raised <;> simp

theorem Tracked.followsCap_iff {cap : FrameCap} (tracked : Tracked cap) :
    FollowsCap cap ↔ if cap.timer.raised then cap.capPeriod ≠ some 0
      else cap.capPeriod = some 0 ∨ cap.raiseFailed = true := by
  obtain ⟨up, down⟩ := tracked.net_eq
  cases raised : cap.timer.raised with
  | true =>
      have isUp := up.mpr raised
      refine ⟨fun follows => follows.raised isUp, fun kept => ⟨Or.inr isUp, fun _ => kept, ?_⟩⟩
      intro isDown
      rw [down.mp isDown] at raised
      contradiction
  | false =>
      have isDown := down.mpr raised
      refine ⟨fun follows => follows.restored isDown,
        fun kept => ⟨Or.inl isDown, ?_, fun _ => kept⟩⟩
      intro isUp
      rw [up.mp isUp] at raised
      contradiction

inductive FrameCap.Paced (cap : FrameCap) (period : Binary32) (beginOk : Bool) :
    FrameCap → Prop
  | idle : period = 0 → cap.timer.raised = false → Paced cap period beginOk cap
  | restored : period = 0 → cap.timer.raised = true →
      Paced cap period beginOk
        { cap with timer := { cap.timer with raised := false, ended := cap.timer.ended + 1 } }
  | kept : period ≠ 0 → cap.timer.raised = true →
      Paced cap period beginOk { cap with raiseFailed := false }
  | began : period ≠ 0 → cap.timer.raised = false → beginOk = true →
      Paced cap period beginOk
        { cap with
          timer := { cap.timer with raised := true, begun := cap.timer.begun + 1 }
          raiseFailed := false }
  | refused : period ≠ 0 → cap.timer.raised = false → beginOk = false →
      Paced cap period beginOk
        { cap with timer := { cap.timer with raised := false }, raiseFailed := true }

theorem pace_cases (cap : FrameCap) (period : Binary32) (beginOk : Bool) :
    cap.Paced period beginOk (cap.pace period beginOk) := by
  unfold FrameCap.pace TimerResolution.raise TimerResolution.restore
  by_cases uncap : period = 0
  · cases raised : cap.timer.raised with
    | true => simpa [uncap, raised] using FrameCap.Paced.restored uncap raised
    | false => simpa [uncap, raised] using FrameCap.Paced.idle uncap raised
  · cases raised : cap.timer.raised with
    | true => simpa [uncap, raised] using FrameCap.Paced.kept uncap raised
    | false =>
        cases begins : beginOk with
        | true => simpa [uncap, raised, begins] using FrameCap.Paced.began uncap raised begins
        | false => simpa [uncap, raised, begins] using FrameCap.Paced.refused uncap raised begins

theorem FrameCap.Paced.tracked {cap paced : FrameCap} {period : Binary32} {beginOk : Bool}
    (step : cap.Paced period beginOk paced) (tracked : Tracked cap) : Tracked paced := by
  obtain ⟨found, counted, answered⟩ := tracked
  cases step with
  | idle _ _ => exact ⟨found, counted, answered⟩
  | restored _ raised => exact ⟨found, by simp [counted, raised], by simp⟩
  | kept _ raised => exact ⟨found, counted, fun _ => rfl⟩
  | began _ lowered _ => exact ⟨found, by simp [counted, lowered], fun _ => rfl⟩
  | refused _ lowered _ => exact ⟨found, by simp [counted, lowered], by simp⟩

theorem FrameCap.Paced.written {cap paced : FrameCap} {period : Binary32} {beginOk : Bool}
    (step : cap.Paced period beginOk paced) :
    if paced.timer.raised then period ≠ 0 else period = 0 ∨ paced.raiseFailed = true := by
  cases step with
  | idle uncap lowered => simp [lowered, uncap]
  | restored uncap _ => simp [uncap]
  | kept caps raised => simp [raised, caps]
  | began caps _ _ => simp [caps]
  | refused _ _ _ => simp

theorem FrameCap.Paced.unwritten_iff {cap paced : FrameCap} {period : Binary32} {beginOk : Bool}
    (step : cap.Paced period beginOk paced) (tracked : Tracked cap) (follows : FollowsCap cap) :
    FollowsCap paced ↔
      (period = 0 ∧ (cap.capPeriod = some 0 ∨ cap.raiseFailed = true)) ∨
        (period ≠ 0 ∧ (cap.capPeriod ≠ some 0 ∨ beginOk = false)) := by
  have before := tracked.followsCap_iff.mp follows
  rw [(step.tracked tracked).followsCap_iff]
  cases step with
  | idle uncap lowered => simp [uncap, lowered]
  | restored uncap raised => simp [uncap]
  | kept caps raised =>
      have held : cap.capPeriod ≠ some 0 := by simpa [raised] using before
      simp [caps, raised, held]
  | began caps _ begins => simp [caps, begins]
  | refused caps _ refused => simp [caps, refused]

theorem applyFpsPatch_found {cap : FrameCap} (tracked : Tracked cap) (call : FpsCall) :
    applyFpsPatch cap call =
      if call.writeOk then
        { cap.pace (periodFor call.target) call.beginOk with
          capPeriod := some (periodFor call.target), targetTime := some 0 }
      else cap.pace (periodFor call.target) call.beginOk := by
  obtain ⟨time, period⟩ := tracked.found
  simp [applyFpsPatch, time, period]

theorem applyFpsPatch_tracked {cap : FrameCap} (tracked : Tracked cap) (call : FpsCall) :
    Tracked (applyFpsPatch cap call) := by
  have paced := (pace_cases cap (periodFor call.target) call.beginOk).tracked tracked
  rw [applyFpsPatch_found tracked]
  split
  · exact ⟨⟨rfl, rfl⟩, paced.counted, paced.answered⟩
  · exact paced

theorem followsCap_of_written {cap : FrameCap} (tracked : Tracked cap) {call : FpsCall}
    (writeOk : call.writeOk = true) : FollowsCap (applyFpsPatch cap call) := by
  have written := (pace_cases cap (periodFor call.target) call.beginOk).written
  rw [(applyFpsPatch_tracked tracked call).followsCap_iff, applyFpsPatch_found tracked,
    if_pos writeOk]
  simpa using written

theorem followsCap_iff_keepsPeriod {cap : FrameCap} (tracked : Tracked cap)
    (follows : FollowsCap cap) (call : FpsCall) :
    FollowsCap (applyFpsPatch cap call) ↔ KeepsPeriod cap call := by
  by_cases writeOk : call.writeOk = true
  · exact iff_of_true (followsCap_of_written tracked writeOk) (Or.inl writeOk)
  · have step := pace_cases cap (periodFor call.target) call.beginOk
    rw [applyFpsPatch_found tracked, if_neg writeOk, step.unwritten_iff tracked follows,
      KeepsPeriod, or_iff_right writeOk]

def installed (targetTime : UInt64) (capPeriod : Binary32) : FrameCap where
  targetTime := some targetTime
  capPeriod := some capPeriod
  timer := ⟨false, 0, 0⟩
  raiseFailed := false

theorem installed_tracked (targetTime : UInt64) (capPeriod : Binary32) :
    Tracked (installed targetTime capPeriod) :=
  ⟨⟨rfl, rfl⟩, rfl, fun _ => rfl⟩

theorem run_followsCap_iff (targetTime : UInt64) (capPeriod : Binary32) (first : FpsCall)
    (calls : List FpsCall) (succeeded : first.writeOk = true) :
    TransitionRun.Along applyFpsPatch (fun cap call => FollowsCap (applyFpsPatch cap call))
        (installed targetTime capPeriod) (first :: calls) ↔
      TransitionRun.Along applyFpsPatch KeepsPeriod
        (installed targetTime capPeriod) (first :: calls) := by
  have tracked := installed_tracked targetTime capPeriod
  have follows := followsCap_of_written tracked succeeded
  refine and_congr (iff_of_true follows (Or.inl succeeded)) ?_
  apply TransitionRun.along_iff fun cap => Tracked cap ∧ FollowsCap cap
  · exact fun cap call ⟨tracked, follows⟩ => followsCap_iff_keepsPeriod tracked follows call
  · intro cap call ⟨tracked, follows⟩ kept
    exact ⟨applyFpsPatch_tracked tracked call,
      (followsCap_iff_keepsPeriod tracked follows call).mpr kept⟩
  · exact ⟨applyFpsPatch_tracked tracked first, follows⟩

def uncapWritten : FpsCall := ⟨0, true, true⟩

def capUnwritten : FpsCall := ⟨Binary32.thousand, true, false⟩

theorem run_followsCap_iff_uncapThenCap :
    TransitionRun.Along applyFpsPatch (fun cap call => FollowsCap (applyFpsPatch cap call))
        (installed 7 1) [uncapWritten, capUnwritten] ↔
      TransitionRun.Along applyFpsPatch KeepsPeriod (installed 7 1)
        [uncapWritten, capUnwritten] :=
  run_followsCap_iff 7 1 uncapWritten [capUnwritten] rfl

theorem capUnwritten_notFollowed :
    ¬∀ (targetTime : UInt64) (capPeriod : Binary32) (first : FpsCall) (calls : List FpsCall),
      first.writeOk = true →
        TransitionRun.Along applyFpsPatch (fun cap call => FollowsCap (applyFpsPatch cap call))
          (installed targetTime capPeriod) (first :: calls) := by
  intro claimed
  obtain ⟨_, follows, _⟩ := claimed 7 1 uncapWritten [capUnwritten] rfl
  exact follows.raised (by decide +kernel) (by decide +kernel)

end PatchFix.Rogue
