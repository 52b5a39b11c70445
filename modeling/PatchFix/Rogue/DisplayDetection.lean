import PatchFix.Library.Binary32Order
import PatchFix.Rogue.EnumSwitches

/-!
Rogue's `DisplayDetection`: the flag it writes for a display of whole pixels, next to the ratio of
the pixels.
-/

namespace PatchFix.Rogue

def displayOf (width height : Nat) : DisplaySettings where
  width := Binary32.ofRat width
  height := Binary32.ofRat height

variable {width height : Nat}

def belowFour : ℚ := 4 - 2 ^ (-22 : ℤ)

theorem representable_belowFour : Binary32.Representable belowFour :=
  ⟨2 ^ 24 - 1, -22, by decide, by decide, by norm_num [belowFour]⟩

theorem representable_four : Binary32.Representable 4 := ⟨4, 0, by decide, by decide, by norm_num⟩

/-- No quotient of whole pixels is so close to four that it is rounded to it. -/
theorem four_le_rounded_iff (tall : 0 < height) (low : height < 2 ^ 22) :
    4 ≤ Binary32.rounded ((width : ℚ) / height) ↔ 4 * height ≤ width := by
  have heightPositive : (0 : ℚ) < height := by exact_mod_cast tall
  constructor
  · intro reached
    by_contra narrow
    have short : (width : ℚ) + 1 ≤ 4 * height := by exact_mod_cast not_le.mp narrow
    rcases Nat.eq_zero_or_pos width with none | wide
    · rw [none, Nat.cast_zero, zero_div, Binary32.rounded_zero] at reached
      norm_num at reached
    · have positive : (0 : ℚ) < width / height := div_pos (by exact_mod_cast wide) heightPositive
      have step : (2 : ℚ) ^ (-22 : ℤ) * height ≤ 1 := by
        have bound : (height : ℚ) ≤ 2 ^ 22 := by exact_mod_cast low.le
        have unit : (2 : ℚ) ^ (-22 : ℤ) * 2 ^ 22 = 1 := by norm_num
        calc (2 : ℚ) ^ (-22 : ℤ) * height ≤ 2 ^ (-22 : ℤ) * 2 ^ 22 :=
              mul_le_mul_of_nonneg_left bound (by positivity)
          _ = 1 := unit
      have quotient : (width : ℚ) / height ≤ belowFour := by
        rw [div_le_iff₀ heightPositive, belowFour, sub_mul]
        linarith
      have rounds := Binary32.rounded_le representable_belowFour positive quotient
      have less : belowFour < 4 := by norm_num [belowFour]
      linarith
  · intro wide
    have exact : (4 : ℚ) ≤ width / height := by
      rw [le_div_iff₀ heightPositive]
      exact_mod_cast wide
    exact Binary32.le_rounded representable_four (by norm_num) exact

theorem abs_quotient_lt (narrow : width < 2 ^ 24) : |(width : ℚ) / height| < 2 ^ 127 := by
  have wide : (width : ℚ) < 2 ^ 24 := by exact_mod_cast narrow
  rw [abs_div, abs_of_nonneg (Nat.cast_nonneg width), abs_of_nonneg (Nat.cast_nonneg height)]
  rcases Nat.eq_zero_or_pos height with none | tall
  · rw [none, Nat.cast_zero, div_zero]
    positivity
  · have one : (1 : ℚ) ≤ height := by exact_mod_cast tall
    calc (width : ℚ) / height ≤ width := div_le_self (Nat.cast_nonneg width) one
      _ < 2 ^ 24 := wide
      _ < 2 ^ 127 := by norm_num

theorem threshold_le_quotient (narrow : width < 2 ^ 24) (tall : 0 < height)
    (low : height < 2 ^ 22) :
    tripleScreenThreshold.le ((displayOf width height).width.div (displayOf width height).height) =
      decide (4 * height ≤ width) := by
  obtain ⟨widthBounded, widthExact⟩ := Binary32.ofRat_natCast narrow
  obtain ⟨heightBounded, heightExact⟩ :=
    Binary32.ofRat_natCast (low.trans (by decide : 2 ^ 22 < 2 ^ 24))
  obtain ⟨fourBounded, four⟩ := Binary32.ofRat_natCast (by decide : 4 < 2 ^ 24)
  have threshold : tripleScreenThreshold = .finite ((4 : ℕ) : ℚ) fourBounded := four
  have nonzero : (height : ℚ) ≠ 0 := by exact_mod_cast tall.ne'
  have quotient : Binary32.div (.finite width widthBounded) (.finite height heightBounded) =
      .finite (Binary32.rounded ((width : ℚ) / height))
        (Binary32.abs_rounded_le_of_small (abs_quotient_lt narrow)) := by
    rw [Binary32.div, if_pos nonzero, Binary32.ofRat, dif_pos]
  rw [displayOf, widthExact, heightExact, quotient, threshold]
  exact decide_eq_decide.mpr (four_le_rounded_iff tall low)

/-- `Auto` takes a display for a triple screen exactly when it is at least four times as wide as it
is high, the rounded division of the two notwithstanding. -/
theorem multiMonitorFlag_auto (narrow : width < 2 ^ 24) (low : height < 2 ^ 22) :
    multiMonitorFlag (displayOf width height) (.named .auto) =
      some (if 0 < height ∧ 4 * height ≤ width then 1 else 0) := by
  obtain ⟨heightBounded, heightExact⟩ :=
    Binary32.ofRat_natCast (low.trans (by decide : 2 ^ 22 < 2 ^ 24))
  have above : Binary32.lt 0 (displayOf width height).height = decide (0 < height) := by
    rw [displayOf, heightExact]
    exact decide_eq_decide.mpr Nat.cast_pos
  rw [multiMonitorFlag, above]
  by_cases tall : 0 < height
  · rw [threshold_le_quotient narrow tall low]
    by_cases wide : 4 * height ≤ width
    · simp [tall, wide]
    · simp [wide]
  · simp [tall]

theorem multiMonitorFlag_auto_ultrawide :
    multiMonitorFlag (displayOf 5759 1440) (.named .auto) =
      some (if 0 < 1440 ∧ 4 * 1440 ≤ 5759 then 1 else 0) :=
  multiMonitorFlag_auto (by decide) (by decide)

end PatchFix.Rogue
