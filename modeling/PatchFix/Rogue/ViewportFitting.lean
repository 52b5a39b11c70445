import Mathlib.Algebra.Order.Field.Rat
import Mathlib.Tactic.NormNum

/-!
Rogue's `ViewportFitting`: the two callbacks that stand in for the erased loads of the engine's
aspect constants, in exact arithmetic.
-/

namespace PatchFix.Rogue

def defaultAspect : ℚ := 16 / 9
def invDefaultAspect : ℚ := 9 / 16

structure ViewportInputs where
  enabled : Bool
  inGame : Bool
  aspectRatio : ℚ
  width : ℚ
  height : ℚ
  deriving DecidableEq

structure RatioLoadState where
  xmm0 : ℚ
  currentAspect : ℚ
  deriving DecidableEq

def viewportRatioLoad (inputs : ViewportInputs) (state : RatioLoadState) : RatioLoadState :=
  if !inputs.enabled || !inputs.inGame then { state with xmm0 := invDefaultAspect }
  else if 0 < inputs.aspectRatio then
    { xmm0 := 1 / inputs.aspectRatio, currentAspect := inputs.aspectRatio }
  else if 0 < inputs.width ∧ 0 < inputs.height then
    { xmm0 := inputs.height / inputs.width, currentAspect := inputs.width / inputs.height }
  else state

def viewportRatioMul (inputs : ViewportInputs) (xmm4 : ℚ) : ℚ :=
  if !inputs.enabled || !inputs.inGame then xmm4 * defaultAspect
  else if 0 < inputs.aspectRatio then xmm4 * inputs.aspectRatio
  else if 0 < inputs.height then xmm4 * (inputs.width / inputs.height)
  else xmm4

def fittedRatio (inputs : ViewportInputs) : ℚ :=
  if !inputs.enabled || !inputs.inGame then defaultAspect
  else if 0 < inputs.aspectRatio then inputs.aspectRatio
  else if 0 < inputs.width ∧ 0 < inputs.height then inputs.width / inputs.height
  else defaultAspect

structure AppliesOneRatio (inputs : ViewportInputs) : Prop where
  positive : 0 < fittedRatio inputs
  loads : ∀ state, (viewportRatioLoad inputs state).xmm0 = 1 / fittedRatio inputs
  multiplies : ∀ xmm4, viewportRatioMul inputs xmm4 = xmm4 * fittedRatio inputs

/-- Either the default applies, or there is a ratio to take in its place. -/
def ViewportInputs.Known (inputs : ViewportInputs) : Prop :=
  inputs.enabled = false ∨ inputs.inGame = false ∨ 0 < inputs.aspectRatio ∨
    (0 < inputs.width ∧ 0 < inputs.height)

theorem fittedRatio_pos (inputs : ViewportInputs) : 0 < fittedRatio inputs := by
  unfold fittedRatio defaultAspect
  split
  · norm_num
  · split
    · assumption
    · split
      · next dimensions => exact div_pos dimensions.1 dimensions.2
      · norm_num

theorem viewportRatioLoad_unknown {inputs : ViewportInputs} (unknown : ¬inputs.Known)
    (state : RatioLoadState) : viewportRatioLoad inputs state = state := by
  simp only [ViewportInputs.Known, not_or, Bool.not_eq_false] at unknown
  obtain ⟨enabled, inGame, noOverride, noDisplay⟩ := unknown
  simp [viewportRatioLoad, enabled, inGame, noOverride, noDisplay]

theorem ViewportInputs.Known.display {inputs : ViewportInputs} (known : inputs.Known)
    (active : ¬(!inputs.enabled || !inputs.inGame) = true) (noOverride : ¬0 < inputs.aspectRatio) :
    0 < inputs.width ∧ 0 < inputs.height := by
  simp only [Bool.or_eq_true, Bool.not_eq_true', not_or] at active
  rcases known with off | away | override | display
  · exact absurd off active.1
  · exact absurd away active.2
  · exact absurd override noOverride
  · exact display

theorem appliesOneRatio_of_known {inputs : ViewportInputs} (known : inputs.Known) :
    AppliesOneRatio inputs := by
  by_cases inactive : (!inputs.enabled || !inputs.inGame) = true
  · have ratio : fittedRatio inputs = defaultAspect := if_pos inactive
    refine ⟨fittedRatio_pos inputs, fun state => ?_, fun xmm4 => ?_⟩
    · rw [viewportRatioLoad, if_pos inactive, ratio]
      norm_num [invDefaultAspect, defaultAspect]
    · rw [viewportRatioMul, if_pos inactive, ratio]
  · by_cases override : 0 < inputs.aspectRatio
    · have ratio : fittedRatio inputs = inputs.aspectRatio := by
        rw [fittedRatio, if_neg inactive, if_pos override]
      refine ⟨fittedRatio_pos inputs, fun state => ?_, fun xmm4 => ?_⟩
      · rw [viewportRatioLoad, if_neg inactive, if_pos override, ratio]
      · rw [viewportRatioMul, if_neg inactive, if_pos override, ratio]
    · have display := known.display inactive override
      have ratio : fittedRatio inputs = inputs.width / inputs.height := by
        rw [fittedRatio, if_neg inactive, if_neg override, if_pos display]
      refine ⟨fittedRatio_pos inputs, fun state => ?_, fun xmm4 => ?_⟩
      · rw [viewportRatioLoad, if_neg inactive, if_neg override, if_pos display, ratio,
          one_div_div]
      · rw [viewportRatioMul, if_neg inactive, if_neg override, if_pos display.2, ratio]

theorem appliesOneRatio_iff (inputs : ViewportInputs) :
    AppliesOneRatio inputs ↔ inputs.Known := by
  refine ⟨fun applies => ?_, appliesOneRatio_of_known⟩
  by_contra unknown
  have first := applies.loads ⟨0, 0⟩
  have second := applies.loads ⟨1, 0⟩
  rw [viewportRatioLoad_unknown unknown] at first second
  have clash : (0 : ℚ) = 1 := first.trans second.symm
  exact absurd clash (by norm_num)

theorem zeroDisplay_stale : ¬∀ inputs : ViewportInputs, AppliesOneRatio inputs := by
  intro claimed
  have loaded := (claimed ⟨true, true, 0, 0, 0⟩).loads ⟨0, defaultAspect⟩
  exact absurd loaded (by decide +kernel)

end PatchFix.Rogue
