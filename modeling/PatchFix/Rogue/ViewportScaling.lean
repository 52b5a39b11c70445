import Mathlib.Tactic.Linarith
import PatchFix.Rogue.Configuration
import PatchFix.Rogue.ViewportFitting

/-!
Rogue's `ViewportScaling`: the box of the interface inside the display and the offsets of what is in
it, frame after frame and in exact arithmetic, under whatever stretch the INI asks for.
-/

namespace PatchFix.Rogue

def invBaseWidth : ℚ := 1 / 1280
def invBaseHeight : ℚ := 1 / 720

structure ScalingConfig where
  stretchH : ℚ
  stretchV : ℚ

/-- `xmm6`, `xmm7` and `xmm4`: the fitted width and height, and the scale. -/
structure ScalingBox where
  width : ℚ
  height : ℚ
  scale : ℚ

structure ScalingState where
  gActiveStretch : ℚ
  box : ScalingBox
  offsetX : ℚ
  offsetY : ℚ

namespace ScalingState

/-- `ViewportScalingBranch` on the display size in `xmm8` and `xmm9`. -/
def scalingBranch (enabled : Bool) (cfg : ScalingConfig) (w h : ℚ) (state : ScalingState) :
    ScalingState :=
  if !enabled then
    if h < w then
      let fittedH := w * invDefaultAspect
      let height := if h < fittedH then h else fittedH
      { state with gActiveStretch := 0, box := ⟨w, height, height * invBaseHeight⟩ }
    else
      let fittedW := h * defaultAspect
      let width := if w < fittedW then w else fittedW
      { state with gActiveStretch := 0, box := ⟨width, h, width * invBaseWidth⟩ }
  else if w * invBaseWidth ≤ h * invBaseHeight then
    let fittedH := w * invDefaultAspect
    let clampedH := if h < fittedH then h else fittedH
    let height := clampedH + cfg.stretchV * (h - clampedH)
    { state with gActiveStretch := cfg.stretchV, box := ⟨w, height, height * invBaseHeight⟩ }
  else
    let fittedW := h * defaultAspect
    let clampedW := if w < fittedW then w else fittedW
    let width := clampedW + cfg.stretchH * (w - clampedW)
    { state with gActiveStretch := cfg.stretchH, box := ⟨width, h, width * invBaseWidth⟩ }

def scalingOffsets (xmm1 xmm0 : ℚ) (state : ScalingState) : ScalingState :=
  let fade := 1 - state.gActiveStretch
  { state with offsetX := xmm1 * fade, offsetY := xmm0 * (1 / 2) * fade }

end ScalingState

def Setting.exact : Setting → Option ℚ
  | .number (.finite value _) => some value
  | _ => none

def ScalingConfig.load (ini : INIStructure) : Option ScalingConfig :=
  match (configFields .viewportScalingHook).map fun field => (field.loadFrom ini).exact with
  | [some stretchH, some stretchV] => some ⟨stretchH, stretchV⟩
  | _ => none

structure ScalingFrame where
  enabled : Bool
  ini : INIStructure
  w : ℚ
  h : ℚ
  xmm1 : ℚ
  xmm0 : ℚ

def ScalingFrame.step (frame : ScalingFrame) (state : ScalingState) : ScalingState :=
  match ScalingConfig.load frame.ini with
  | none => state
  | some cfg =>
      (state.scalingBranch frame.enabled cfg frame.w frame.h).scalingOffsets frame.xmm1 frame.xmm0

/-- The box lies between the largest box of the default aspect and the display, and the offsets are
faded: not at all where the hook is off. -/
structure ScalingFrame.Fits (frame : ScalingFrame) (state : ScalingState) : Prop where
  width : min frame.w (frame.h * defaultAspect) ≤ state.box.width ∧ state.box.width ≤ frame.w
  height : min frame.h (frame.w * invDefaultAspect) ≤ state.box.height ∧
    state.box.height ≤ frame.h
  touches : state.box.width = frame.w ∨ state.box.height = frame.h
  scale : state.box.scale =
    if frame.enabled then
      max (state.box.width * invBaseWidth) (state.box.height * invBaseHeight)
    else min (state.box.width * invBaseWidth) (state.box.height * invBaseHeight)
  offsets : |state.offsetX| ≤ |frame.xmm1| ∧ |state.offsetY| ≤ |frame.xmm0 * (1 / 2)|
  unfaded : frame.enabled = false → state.offsetX = frame.xmm1 ∧
    state.offsetY = frame.xmm0 * (1 / 2)

def ScalingConfig.Unit (cfg : ScalingConfig) : Prop :=
  (0 ≤ cfg.stretchH ∧ cfg.stretchH ≤ 1) ∧ 0 ≤ cfg.stretchV ∧ cfg.stretchV ≤ 1

theorem parseFloat_isFinite (text : Text) : (parseFloat text).isFinite = true := by
  unfold parseFloat
  cases parsed : parseFinite text with
  | none => rfl
  | some value => exact (parseFinite_denotes parsed).isFinite

theorem clampedUnitParser_unit (text : Text) :
    ∃ value, (Setting.number (clampedUnitParser text)).exact = some value ∧ 0 ≤ value ∧
      value ≤ 1 := by
  obtain ⟨exact, bounded, parsed⟩ := Binary32.eq_finite (parseFloat_isFinite text)
  have below : (Binary32.finite exact bounded).lt 0 = decide (exact < 0) := rfl
  have above : Binary32.lt 1 (.finite exact bounded) = decide (1 < exact) := rfl
  rw [clampedUnitParser, parsed, Binary32.clamp, below, above]
  by_cases negative : exact < 0
  · simp only [negative, decide_true, if_true]
    exact ⟨0, rfl, le_rfl, zero_le_one⟩
  · by_cases large : 1 < exact
    · simp only [negative, large, decide_true, decide_false, if_true]
      exact ⟨1, rfl, zero_le_one, le_rfl⟩
    · simp only [negative, large, decide_false]
      exact ⟨exact, rfl, not_lt.mp negative, not_lt.mp large⟩

theorem stretch_unit (ini : INIStructure) (key : String) :
    ∃ value, ((iniField .number "UI" key 0 clampedUnitParser).loadFrom ini).exact = some value ∧
      0 ≤ value ∧ value ≤ 1 := by
  unfold IniField.loadFrom
  split
  · next text _ => exact clampedUnitParser_unit text
  · exact ⟨0, rfl, le_rfl, zero_le_one⟩

theorem ScalingConfig.load_unit (ini : INIStructure) :
    ∃ cfg, ScalingConfig.load ini = some cfg ∧ cfg.Unit := by
  obtain ⟨stretchH, horizontal, unitH⟩ := stretch_unit ini "StretchHorizontal"
  obtain ⟨stretchV, vertical, unitV⟩ := stretch_unit ini "StretchVertical"
  refine ⟨⟨stretchH, stretchV⟩, ?_, unitH, unitV⟩
  simp only [ScalingConfig.load, configFields, List.map_cons, List.map_nil, horizontal, vertical]

theorem stretched_bounds {clamped full stretch : ℚ} (within : clamped ≤ full) (low : 0 ≤ stretch)
    (high : stretch ≤ 1) :
    clamped ≤ clamped + stretch * (full - clamped) ∧
      clamped + stretch * (full - clamped) ≤ full := by
  have room : 0 ≤ full - clamped := sub_nonneg.mpr within
  have some := mul_nonneg low room
  have most := mul_le_mul_of_nonneg_right high room
  constructor
  · linarith
  · linarith

theorem faded_le {offset stretch : ℚ} (low : 0 ≤ stretch) (high : stretch ≤ 1) :
    |offset * (1 - stretch)| ≤ |offset| := by
  rw [abs_mul, abs_of_nonneg (sub_nonneg.mpr high)]
  exact mul_le_of_le_one_right (abs_nonneg offset) (by linarith)

variable {frame : ScalingFrame} {cfg : ScalingConfig} {state : ScalingState}

theorem ScalingFrame.Fits.of_box (unit : 0 ≤ state.gActiveStretch ∧ state.gActiveStretch ≤ 1)
    (off : frame.enabled = false → state.gActiveStretch = 0)
    (width : min frame.w (frame.h * defaultAspect) ≤ state.box.width ∧ state.box.width ≤ frame.w)
    (height : min frame.h (frame.w * invDefaultAspect) ≤ state.box.height ∧
      state.box.height ≤ frame.h)
    (touches : state.box.width = frame.w ∨ state.box.height = frame.h)
    (scale : state.box.scale =
      if frame.enabled then
        max (state.box.width * invBaseWidth) (state.box.height * invBaseHeight)
      else min (state.box.width * invBaseWidth) (state.box.height * invBaseHeight)) :
    frame.Fits (state.scalingOffsets frame.xmm1 frame.xmm0) where
  width := width
  height := height
  touches := touches
  scale := scale
  offsets := ⟨faded_le unit.1 unit.2, faded_le unit.1 unit.2⟩
  unfaded := fun disabled => by simp [ScalingState.scalingOffsets, off disabled]

theorem ScalingFrame.fits_disabled
    (disabled : frame.enabled = false) :
    frame.Fits ((state.scalingBranch frame.enabled cfg frame.w frame.h).scalingOffsets
      frame.xmm1 frame.xmm0) := by
  by_cases wide : frame.h < frame.w
  · simp only [disabled, ScalingState.scalingBranch, if_pos wide, Bool.not_false, if_true,
      ← min_def_lt]
    have fitted := min_le_right frame.h (frame.w * invDefaultAspect)
    apply Fits.of_box
    · exact ⟨le_rfl, zero_le_one⟩
    · exact fun _ => rfl
    · exact ⟨min_le_left _ _, le_rfl⟩
    · exact ⟨le_rfl, min_le_left _ _⟩
    · exact Or.inl rfl
    · rw [disabled]
      simp only [Bool.false_eq_true, if_false]
      symm
      apply min_eq_right
      simp only [invBaseWidth, invBaseHeight, invDefaultAspect] at fitted ⊢
      linarith
  · simp only [disabled, ScalingState.scalingBranch, if_neg wide, Bool.not_false, if_true,
      ← min_def_lt]
    have fitted := min_le_right frame.w (frame.h * defaultAspect)
    apply Fits.of_box
    · exact ⟨le_rfl, zero_le_one⟩
    · exact fun _ => rfl
    · exact ⟨le_rfl, min_le_left _ _⟩
    · exact ⟨min_le_left _ _, le_rfl⟩
    · exact Or.inr rfl
    · rw [disabled]
      simp only [Bool.false_eq_true, if_false]
      symm
      apply min_eq_left
      simp only [invBaseWidth, invBaseHeight, defaultAspect] at fitted ⊢
      linarith

theorem ScalingFrame.fits_enabled (unit : cfg.Unit) (enabled : frame.enabled = true) :
    frame.Fits ((state.scalingBranch frame.enabled cfg frame.w frame.h).scalingOffsets
      frame.xmm1 frame.xmm0) := by
  have on : frame.enabled = false → False := fun off => by simp [enabled] at off
  by_cases tall : frame.w * invBaseWidth ≤ frame.h * invBaseHeight
  · have fitted : frame.w * invDefaultAspect ≤ frame.h := by
      simp only [invBaseWidth, invBaseHeight, invDefaultAspect] at tall ⊢
      linarith
    have stretched := stretched_bounds fitted unit.2.1 unit.2.2
    simp only [enabled, ScalingState.scalingBranch, if_pos tall, Bool.not_true, ← min_def_lt,
      Bool.false_eq_true, if_false, min_eq_right fitted]
    apply Fits.of_box
    · exact unit.2
    · exact fun off => (on off).elim
    · exact ⟨min_le_left _ _, le_rfl⟩
    · exact ⟨(min_eq_right fitted).trans_le stretched.1, stretched.2⟩
    · exact Or.inl rfl
    · simp only [enabled, if_true]
      symm
      apply max_eq_right
      have covered := stretched.1
      simp only [invBaseWidth, invBaseHeight, invDefaultAspect] at covered ⊢
      linarith
  · have fitted : frame.h * defaultAspect ≤ frame.w := by
      simp only [invBaseWidth, invBaseHeight, defaultAspect] at tall ⊢
      linarith
    have stretched := stretched_bounds fitted unit.1.1 unit.1.2
    simp only [enabled, ScalingState.scalingBranch, if_neg tall, Bool.not_true, ← min_def_lt,
      Bool.false_eq_true, if_false, min_eq_right fitted]
    apply Fits.of_box
    · exact unit.1
    · exact fun off => (on off).elim
    · exact ⟨(min_eq_right fitted).trans_le stretched.1, stretched.2⟩
    · exact ⟨min_le_left _ _, le_rfl⟩
    · exact Or.inr rfl
    · simp only [enabled, if_true]
      symm
      apply max_eq_left
      have covered := stretched.1
      simp only [invBaseWidth, invBaseHeight, defaultAspect] at covered ⊢
      linarith

theorem ScalingFrame.fits_step (frame : ScalingFrame) (state : ScalingState) :
    frame.Fits (frame.step state) := by
  obtain ⟨cfg, loaded, unit⟩ := ScalingConfig.load_unit frame.ini
  simp only [step, loaded]
  cases enabled : frame.enabled with
  | true => exact enabled ▸ fits_enabled unit enabled
  | false => exact enabled ▸ fits_disabled enabled

def scalingStates : ScalingState → List ScalingFrame → List ScalingState
  | _, [] => []
  | state, frame :: rest => frame.step state :: scalingStates (frame.step state) rest

/-- Whatever the INI says and the display is, in every frame the box covers what a box of the
default aspect would, stays inside the display, and the offsets never grow. -/
theorem scaling_fits (start : ScalingState) (frames : List ScalingFrame) :
    List.Forall₂ ScalingFrame.Fits frames (scalingStates start frames) := by
  induction frames generalizing start with
  | nil => exact .nil
  | cons frame rest ih => exact .cons (frame.fits_step start) (ih (frame.step start))

end PatchFix.Rogue
