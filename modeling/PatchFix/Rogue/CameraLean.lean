import Mathlib.Algebra.BigOperators.Group.List.Basic
import PatchFix.Library.Binary32
import PatchFix.Library.ByteImage
import PatchFix.Library.FirstOrderLag
import PatchFix.Library.LittleEndian

/-!
Rogue's `CameraLean` over exact rationals: the smoothed frame time, the tracks whose weight it
scales and what the weights of a run of frames add up to.
-/

namespace PatchFix.Rogue

open ByteImage FirstOrderLag

def kCameraFxSlot : UInt64 := 0x38
def kBindingDescriptor : UInt64 := 0x08
def kBindingEntries : UInt64 := 264
def kBindingCount : UInt64 := 274
def kEntrySize : Nat := 56
def kEntryTarget : UInt64 := 40
def kModeMask : Nat := 7
def kModeAdditive : Nat := 1

def kDtAlpha : ℚ := 13421773 / 2 ^ 28

def kMaxPlausibleDt : ℚ := 13421773 / 2 ^ 26

def kMaxScale : ℚ := 4

example : Binary32.rounded (1 / 20) = kDtAlpha := by decide +kernel

example : Binary32.rounded (1 / 5) = kMaxPlausibleDt := by decide +kernel

/-- The frequency of the performance counter is a positive number from `install` on. -/
structure CameraLean where
  cameraManager : UInt64
  qpcFrequency : Nat
  referenceFps : ℚ
  prevTicks : UInt64
  frameDt : ℚ

namespace CameraLean

def readPointer (image : Image) (addr : UInt64) : UInt64 :=
  UInt64.ofNat (LittleEndian.decode (ByteImage.read image addr 8))

def cameraFx (image : Image) (lean : CameraLean) : UInt64 :=
  let manager := readPointer image lean.cameraManager
  if manager = 0 then 0 else readPointer image (manager + kCameraFxSlot)

def entryTarget (image : Image) (entries : UInt64) (index : Nat) : UInt64 :=
  readPointer image (entries + UInt64.ofNat (index * kEntrySize) + kEntryTarget)

def bindingTargets (image : Image) (binding object : UInt64) : Bool :=
  let entries := readPointer image (binding + kBindingEntries)
  let count := LittleEndian.decode (ByteImage.read image (binding + kBindingCount) 2)
  if entries = 0 then false
  else (List.range count).any fun index => entryTarget image entries index = object

def sampleFrameTime (lean : CameraLean) (ticks : UInt64) : CameraLean :=
  let prev := lean.prevTicks
  let lean := { lean with prevTicks := ticks }
  if prev = 0 ∨ lean.qpcFrequency = 0 ∨ ticks ≤ prev then lean
  else
    let dt : ℚ := (ticks - prev).toNat / lean.qpcFrequency
    if kMaxPlausibleDt < dt then lean
    else { lean with frameDt := if lean.frameDt ≤ 0 then dt else lag kDtAlpha lean.frameDt dt }

def scale (lean : CameraLean) : ℚ := max 0 (min kMaxScale (lean.frameDt * lean.referenceFps))

def scaleTrackWeight (image : Image) (lean : CameraLean) (rbx : UInt64) (weight : ℚ) : ℚ :=
  let descriptor := readPointer image (rbx + kBindingDescriptor)
  if descriptor = 0 ∨
      LittleEndian.decode (ByteImage.read image descriptor 4) &&& kModeMask ≠ kModeAdditive then
    weight
  else
    let fx := lean.cameraFx image
    if fx = 0 ∨ bindingTargets image rbx fx = false then weight
    else if lean.referenceFps ≤ 0 then 0
    else if lean.frameDt ≤ 0 then weight
    else weight * lean.scale

def onReload (lean : CameraLean) (referenceFps : ℚ) : CameraLean :=
  { lean with referenceFps := max referenceFps 0 }

/-- The track is additive and one of its entries is the camera's effects object. -/
def Scales (image : Image) (lean : CameraLean) (rbx : UInt64) : Prop :=
  readPointer image (rbx + kBindingDescriptor) ≠ 0 ∧
    LittleEndian.decode (ByteImage.read image (readPointer image (rbx + kBindingDescriptor)) 4) &&&
      kModeMask = kModeAdditive ∧
    lean.cameraFx image ≠ 0 ∧ readPointer image (rbx + kBindingEntries) ≠ 0 ∧
    ∃ index < LittleEndian.decode (ByteImage.read image (rbx + kBindingCount) 2),
      entryTarget image (readPointer image (rbx + kBindingEntries)) index = lean.cameraFx image

def frameTimes : CameraLean → List UInt64 → List CameraLean
  | _, [] => []
  | lean, ticks :: rest =>
      lean.sampleFrameTime ticks :: frameTimes (lean.sampleFrameTime ticks) rest

def weights (image : Image) (rbx : UInt64) (weight : ℚ) (lean : CameraLean) (ticks : List UInt64) :
    List ℚ :=
  (lean.frameTimes ticks).map fun lean => lean.scaleTrackWeight image rbx weight

def interval (frequency : Nat) (prev ticks : UInt64) : ℚ := (ticks - prev).toNat / frequency

def intervals (frequency : Nat) : UInt64 → List UInt64 → List ℚ
  | _, [] => []
  | prev, ticks :: rest => interval frequency prev ticks :: intervals frequency ticks rest

/-- A frame time that is neither discarded as a hitch nor scales a weight past the limit. -/
def Moderate (referenceFps dt : ℚ) : Prop := dt ≤ kMaxPlausibleDt ∧ dt * referenceFps ≤ kMaxScale

def Steady (frequency : Nat) (referenceFps : ℚ) : UInt64 → List UInt64 → Prop
  | _, [] => True
  | prev, ticks :: rest =>
      prev < ticks ∧ Moderate referenceFps (interval frequency prev ticks) ∧
        Steady frequency referenceFps ticks rest

variable {image : Image} {lean : CameraLean} {rbx : UInt64} {frequency : Nat} {fps : ℚ}

theorem bindingTargets_iff (binding object : UInt64) :
    bindingTargets image binding object = true ↔
      readPointer image (binding + kBindingEntries) ≠ 0 ∧
        ∃ index < LittleEndian.decode (ByteImage.read image (binding + kBindingCount) 2),
          entryTarget image (readPointer image (binding + kBindingEntries)) index = object := by
  unfold bindingTargets
  by_cases missing : readPointer image (binding + kBindingEntries) = 0
  · simp [missing]
  · simp [missing]

theorem scaleTrackWeight_of_scales (scales : lean.Scales image rbx) (weight : ℚ) :
    lean.scaleTrackWeight image rbx weight =
      if lean.referenceFps ≤ 0 then 0 else if lean.frameDt ≤ 0 then weight
      else weight * lean.scale := by
  obtain ⟨descriptor, additive, fx, targets⟩ := scales
  have bound := (bindingTargets_iff rbx (lean.cameraFx image)).mpr targets
  simp [scaleTrackWeight, descriptor, additive, fx, bound]

structure Sampling (lean : CameraLean) : Prop where
  frequency : 0 < lean.qpcFrequency
  fps : 0 < lean.referenceFps
  started : lean.prevTicks ≠ 0
  nonneg : 0 ≤ lean.frameDt
  moderate : Moderate lean.referenceFps lean.frameDt

theorem kDtAlpha_pos : 0 < kDtAlpha := by norm_num [kDtAlpha]

theorem kDtAlpha_le_one : kDtAlpha ≤ 1 := by norm_num [kDtAlpha]

theorem Moderate.lag {state input : ℚ} (positive : 0 < fps) (before : Moderate fps state)
    (now : Moderate fps input) : Moderate fps (lag kDtAlpha state input) := by
  have bound (limit : ℚ) (first : state ≤ limit) (second : input ≤ limit) :
      FirstOrderLag.lag kDtAlpha state input ≤ limit :=
    lag_le kDtAlpha_pos.le kDtAlpha_le_one first second
  refine ⟨bound _ before.1 now.1, ?_⟩
  rw [← le_div_iff₀ positive]
  exact bound _ ((le_div_iff₀ positive).mpr before.2) ((le_div_iff₀ positive).mpr now.2)

theorem interval_pos (positive : 0 < frequency) {prev ticks : UInt64} (later : prev < ticks) :
    0 < interval frequency prev ticks := by
  have gap : 0 < (ticks - prev).toNat := by
    rw [UInt64.toNat_sub_of_le _ _ (UInt64.le_of_lt later)]
    exact Nat.sub_pos_of_lt (UInt64.lt_iff_toNat_lt.mp later)
  exact div_pos (Nat.cast_pos.mpr gap) (Nat.cast_pos.mpr positive)

theorem sampleFrameTime_steady (held : lean.Sampling) {ticks : UInt64}
    (later : lean.prevTicks < ticks)
    (moderate : Moderate lean.referenceFps (interval lean.qpcFrequency lean.prevTicks ticks)) :
    lean.sampleFrameTime ticks =
      { lean with
        prevTicks := ticks
        frameDt := if lean.frameDt ≤ 0 then interval lean.qpcFrequency lean.prevTicks ticks
          else lag kDtAlpha lean.frameDt (interval lean.qpcFrequency lean.prevTicks ticks) } := by
  have taken : ¬(lean.prevTicks = 0 ∨ lean.qpcFrequency = 0 ∨ ticks ≤ lean.prevTicks) := by
    rintro (unstarted | none | back)
    · exact held.started unstarted
    · exact held.frequency.ne' none
    · exact absurd later (UInt64.not_lt.mpr back)
  simp only [sampleFrameTime, if_neg taken]
  exact if_neg (not_lt.mpr moderate.1)

theorem Sampling.step (held : lean.Sampling) {ticks : UInt64} (later : lean.prevTicks < ticks)
    (moderate : Moderate lean.referenceFps (interval lean.qpcFrequency lean.prevTicks ticks)) :
    (lean.sampleFrameTime ticks).Sampling ∧ 0 < (lean.sampleFrameTime ticks).frameDt := by
  have positive := interval_pos held.frequency later
  have started : ticks ≠ 0 := by
    rintro rfl
    exact absurd later (by simp)
  rw [sampleFrameTime_steady held later moderate]
  by_cases first : lean.frameDt ≤ 0
  · simp only [if_pos first]
    exact ⟨⟨held.frequency, held.fps, started, positive.le, moderate⟩, positive⟩
  · have moved := lag_pos kDtAlpha_pos kDtAlpha_le_one held.nonneg positive
    simp only [if_neg first]
    exact ⟨⟨held.frequency, held.fps, started, moved.le,
      held.moderate.lag held.fps moderate⟩, moved⟩

/-- The frame times of steady frames are the states of the lag, from the second frame on. -/
theorem frameTimes_lags (held : lean.Sampling) (sampled : 0 < lean.frameDt) {ticks : List UInt64}
    (steady : Steady lean.qpcFrequency lean.referenceFps lean.prevTicks ticks) :
    (lean.frameTimes ticks).map frameDt =
      lags kDtAlpha lean.frameDt (intervals lean.qpcFrequency lean.prevTicks ticks) := by
  induction ticks generalizing lean with
  | nil => rfl
  | cons first rest ih =>
      obtain ⟨later, moderate, steady⟩ := steady
      obtain ⟨next, positive⟩ := held.step later moderate
      have sampledNext := sampleFrameTime_steady held later moderate
      have tail := ih next positive (by rw [sampledNext]; exact steady)
      rw [frameTimes, List.map_cons, tail, intervals, lags, sampledNext]
      simp only [if_neg (not_le.mpr sampled)]

theorem Scales.sampled (scales : lean.Scales image rbx) (ticks : UInt64) :
    (lean.sampleFrameTime ticks).Scales image rbx := by
  have same : (lean.sampleFrameTime ticks).cameraManager = lean.cameraManager := by
    simp only [sampleFrameTime]
    split
    · rfl
    · split
      · rfl
      · rfl
  have fx : (lean.sampleFrameTime ticks).cameraFx image = lean.cameraFx image := by
    rw [cameraFx, same, cameraFx]
  unfold Scales
  rw [fx]
  exact scales

theorem scaleTrackWeight_sampling (held : lean.Sampling) (sampled : 0 < lean.frameDt)
    (scales : lean.Scales image rbx) (weight : ℚ) :
    lean.scaleTrackWeight image rbx weight = weight * (lean.frameDt * lean.referenceFps) := by
  have within : lean.scale = lean.frameDt * lean.referenceFps := by
    rw [scale, min_eq_right held.moderate.2, max_eq_right (mul_nonneg held.nonneg held.fps.le)]
  rw [scaleTrackWeight_of_scales scales, if_neg (not_le.mpr held.fps),
    if_neg (not_le.mpr sampled), within]

theorem weights_sum (held : lean.Sampling) (scales : lean.Scales image rbx) (weight : ℚ)
    {ticks : List UInt64}
    (steady : Steady lean.qpcFrequency lean.referenceFps lean.prevTicks ticks) :
    (lean.weights image rbx weight ticks).sum =
      weight * lean.referenceFps * ((lean.frameTimes ticks).map frameDt).sum := by
  induction ticks generalizing lean with
  | nil => simp [weights, frameTimes]
  | cons first rest ih =>
      obtain ⟨later, moderate, steady⟩ := steady
      obtain ⟨next, positive⟩ := held.step later moderate
      have sampledNext := sampleFrameTime_steady held later moderate
      have tail := ih next (scales.sampled first) (by rw [sampledNext]; exact steady)
      have here := scaleTrackWeight_sampling next positive (scales.sampled first) weight
      have fps : (lean.sampleFrameTime first).referenceFps = lean.referenceFps := by
        rw [sampledNext]
      rw [fps] at tail here
      rw [weights] at tail
      rw [weights, frameTimes, List.map_cons, List.sum_cons, tail, here, List.map_cons,
        List.sum_cons]
      ring

theorem intervals_sum {prev : UInt64} {ticks : List UInt64}
    (steady : Steady frequency fps prev ticks) :
    (intervals frequency prev ticks).sum =
      (((ticks.getLastD prev).toNat : ℚ) - prev.toNat) / frequency := by
  induction ticks generalizing prev with
  | nil => simp [intervals]
  | cons first rest ih =>
      obtain ⟨later, _, steady⟩ := steady
      have before : prev.toNat ≤ first.toNat := (UInt64.lt_iff_toNat_lt.mp later).le
      have gap : ((first - prev).toNat : ℚ) = first.toNat - prev.toNat := by
        rw [UInt64.toNat_sub_of_le _ _ (UInt64.le_of_lt later), Nat.cast_sub before]
      rw [intervals, List.sum_cons, ih steady, interval, gap, ← add_div, List.getLastD_cons]
      ring

theorem intervals_bounded (positive : 0 < frequency) {prev : UInt64} {ticks : List UInt64}
    (steady : Steady frequency fps prev ticks) :
    ∀ dt ∈ intervals frequency prev ticks, 0 < dt ∧ dt ≤ kMaxPlausibleDt := by
  induction ticks generalizing prev with
  | nil => simp [intervals]
  | cons first rest ih =>
      obtain ⟨later, moderate, steady⟩ := steady
      rw [intervals]
      intro dt member
      rcases List.mem_cons.mp member with rfl | member
      · exact ⟨interval_pos positive later, moderate.1⟩
      · exact ih steady dt member

def kOwed : ℚ := (1 - kDtAlpha) / kDtAlpha

theorem kOwed_nonneg : 0 ≤ kOwed := by norm_num [kOwed, kDtAlpha]

theorem lags_owe {state : ℚ} {inputs : List ℚ} (positive : 0 < state)
    (within : state ≤ kMaxPlausibleDt)
    (bounded : ∀ dt ∈ inputs, 0 < dt ∧ dt ≤ kMaxPlausibleDt) :
    |(lags kDtAlpha state inputs).sum - inputs.sum| ≤ kOwed * kMaxPlausibleDt := by
  have above := foldl_lag_le kDtAlpha_pos.le kDtAlpha_le_one within
    fun dt member => (bounded dt member).2
  have below := foldl_lag_pos kDtAlpha_pos kDtAlpha_le_one positive
    fun dt member => (bounded dt member).1
  rw [lags_sum kDtAlpha_pos.ne', sub_sub_cancel_left, abs_neg, abs_mul]
  have owed : |(1 - kDtAlpha) / kDtAlpha| = kOwed := abs_of_nonneg kOwed_nonneg
  rw [owed]
  apply mul_le_mul_of_nonneg_left _ kOwed_nonneg
  rw [abs_le]
  constructor
  · linarith
  · linarith

/-- The smoothed frame times of a run add up to the time it took, within a constant. -/
theorem frameTimes_sum (held : lean.Sampling) {ticks : List UInt64}
    (steady : Steady lean.qpcFrequency lean.referenceFps lean.prevTicks ticks) :
    |((lean.frameTimes ticks).map frameDt).sum -
      (intervals lean.qpcFrequency lean.prevTicks ticks).sum| ≤ kOwed * kMaxPlausibleDt := by
  have bounded := intervals_bounded held.frequency steady
  by_cases sampled : 0 < lean.frameDt
  · rw [frameTimes_lags held sampled steady]
    exact lags_owe sampled held.moderate.1 bounded
  · cases ticks with
    | nil =>
        have nonneg := mul_nonneg kOwed_nonneg
          (by norm_num [kMaxPlausibleDt] : (0 : ℚ) ≤ kMaxPlausibleDt)
        simpa [frameTimes, intervals] using nonneg
    | cons first rest =>
        obtain ⟨later, moderate, steady⟩ := steady
        obtain ⟨next, positive⟩ := held.step later moderate
        have sampledNext := sampleFrameTime_steady held later moderate
        rw [if_pos (not_lt.mp sampled)] at sampledNext
        have tail := frameTimes_lags next positive (by rw [sampledNext]; exact steady)
        have owed := lags_owe positive next.moderate.1 fun dt member =>
          bounded dt (List.mem_cons_of_mem _ (by simpa [sampledNext] using member))
        rw [frameTimes, List.map_cons, tail, intervals, List.sum_cons, List.sum_cons]
        simp only [sampledNext] at owed ⊢
        rwa [add_sub_add_left_eq_sub]

/-- Over a run of steady frames the scaled weights of the lean add up to what its curve gives at the
reference rate in the time that has passed, within a bound that the number of frames is not in. -/
theorem weights_follow_time (held : lean.Sampling) (scales : lean.Scales image rbx) (weight : ℚ)
    {ticks : List UInt64}
    (steady : Steady lean.qpcFrequency lean.referenceFps lean.prevTicks ticks) :
    |(lean.weights image rbx weight ticks).sum - weight * lean.referenceFps *
        ((((ticks.getLastD lean.prevTicks).toNat : ℚ) - lean.prevTicks.toNat) /
          lean.qpcFrequency)| ≤
      |weight| * lean.referenceFps * (kOwed * kMaxPlausibleDt) := by
  rw [weights_sum held scales weight steady, ← intervals_sum steady, ← mul_sub, abs_mul, abs_mul,
    abs_of_pos held.fps]
  exact mul_le_mul_of_nonneg_left (frameTimes_sum held steady)
    (mul_nonneg (abs_nonneg weight) held.fps.le)

def sprinting : CameraLean where
  cameraManager := 0x1000
  qpcFrequency := 10000000
  referenceFps := 30
  prevTicks := 5000000
  frameDt := 0

def sprintTrack : Image := fun address =>
  if address = 0x1001 then 0x20
  else if address = 0x2039 then 0x30
  else if address = 0x4009 then 0x50
  else if address = 0x4109 then 0x60
  else if address = 0x4112 then 1
  else if address = 0x5000 then 1
  else if address = 0x6029 then 0x30
  else 0

theorem weights_follow_time_sprinting :
    |(sprinting.weights sprintTrack 0x4000 1 [5100000, 5250000]).sum - 1 * sprinting.referenceFps *
        ((((([5100000, 5250000] : List UInt64).getLastD sprinting.prevTicks).toNat : ℚ) -
          sprinting.prevTicks.toNat) / sprinting.qpcFrequency)| ≤
      |1| * sprinting.referenceFps * (kOwed * kMaxPlausibleDt) := by
  refine weights_follow_time ?_ ?_ 1 ?_
  · refine ⟨by decide, by norm_num [sprinting], by decide, le_rfl, ?_⟩
    norm_num [Moderate, sprinting, kMaxPlausibleDt, kMaxScale]
  · exact ⟨by decide, by decide, by decide, by decide, 0, by decide, by decide⟩
  · refine ⟨by decide, ?_, by decide, ?_, trivial⟩
    · have gap : (5100000 - 5000000 : UInt64).toNat = 100000 := by decide
      norm_num [Moderate, interval, gap, sprinting, kMaxPlausibleDt, kMaxScale]
    · have gap : (5250000 - 5100000 : UInt64).toNat = 150000 := by decide
      norm_num [Moderate, interval, gap, sprinting, kMaxPlausibleDt, kMaxScale]

end CameraLean

end PatchFix.Rogue
