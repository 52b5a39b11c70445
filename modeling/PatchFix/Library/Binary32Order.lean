import PatchFix.Library.Binary32

/-! Rounding to single precision keeps the order of positive numbers and moves none that fits. -/

namespace Rounding

theorem RoundsEven.mono {left right : ℚ} {first second : ℤ} (leftRounds : RoundsEven left first)
    (rightRounds : RoundsEven right second) (ordered : left ≤ right) : first ≤ second := by
  by_contra above
  have apart : (second : ℚ) + 1 ≤ first := by exact_mod_cast not_le.mp above
  have leftNear : |left - first| ≤ 1 / 2 := leftRounds.elim le_of_lt fun tie => tie.1.le
  have rightNear : |right - second| ≤ 1 / 2 := rightRounds.elim le_of_lt fun tie => tie.1.le
  have lower := (abs_le.mp leftNear).1
  have upper := (abs_le.mp rightNear).2
  -- Both are halfway between two integers that differ by one, and both round to an even one.
  have next : (first : ℚ) = second + 1 := by linarith
  have leftTie : |left - first| = 1 / 2 := by
    have below : left - first = -(1 / 2) := by linarith
    rw [below, abs_neg, abs_of_pos one_half_pos]
  have rightTie : |right - second| = 1 / 2 := by
    have past : right - second = 1 / 2 := by linarith
    rw [past, abs_of_pos one_half_pos]
  have firstEven : Even first := leftRounds.elim (fun near => absurd leftTie near.ne) And.right
  have secondEven : Even second := rightRounds.elim (fun near => absurd rightTie near.ne) And.right
  have successor : first = second + 1 := by exact_mod_cast next
  exact Int.not_even_iff_odd.mpr (successor ▸ secondEven.add_one) firstEven

theorem halfEven_intCast (value : ℤ) : halfEven value = value := by
  simp [halfEven]

end Rounding

namespace Binary32

/-- At most 24 binary digits, the last of them no smaller than the smallest place. -/
def Representable (exact : ℚ) : Prop :=
  ∃ digits place : ℤ, |digits| < 2 ^ 24 ∧ -149 ≤ place ∧ exact = digits * 2 ^ place

/-- Of the finite values only some are single-precision numbers. -/
def IsSingle : Binary32 → Prop
  | finite exact _ => Representable exact
  | infinite _ => True
  | nan => True

theorem rounded_of_representable {exact : ℚ} (representable : Representable exact) :
    rounded exact = exact := by
  obtain ⟨digits, place, short, least, rfl⟩ := representable
  by_cases zero : digits = 0
  · simp [zero]
  · have nonzero : (digits : ℚ) ≠ 0 := by exact_mod_cast zero
    have unit : (0 : ℚ) < 2 ^ place := zpow_pos two_pos place
    have positive : (0 : ℚ) < |(digits : ℚ) * 2 ^ place| :=
      abs_pos.mpr (mul_ne_zero nonzero unit.ne')
    have magnitude : |(digits : ℚ) * 2 ^ place| < 2 ^ (24 + place) := by
      have digitsBelow : |(digits : ℚ)| < 2 ^ (24 : ℤ) := by exact_mod_cast short
      rw [abs_mul, abs_of_pos unit, zpow_add₀ two_ne_zero]
      exact mul_lt_mul_of_pos_right digitsBelow unit
    have logBelow : Int.log 2 |(digits : ℚ) * 2 ^ place| < 24 + place :=
      (Int.lt_zpow_iff_log_lt one_lt_two positive).mp (by exact_mod_cast magnitude)
    have placeBelow : lastPlace ((digits : ℚ) * 2 ^ place) ≤ place := by
      rw [lastPlace]
      omega
    obtain ⟨room, total⟩ := Int.le.dest placeBelow
    obtain ⟨last, same⟩ : ∃ last, lastPlace ((digits : ℚ) * 2 ^ place) = last := ⟨_, rfl⟩
    rw [same] at total
    have whole : (digits : ℚ) * 2 ^ place / 2 ^ last = ((digits * 2 ^ room : ℤ) : ℚ) := by
      rw [div_eq_iff (zpow_ne_zero _ two_ne_zero), ← total, zpow_add₀ two_ne_zero]
      push_cast
      rw [zpow_natCast]
      ring
    rw [rounded, same, whole, Rounding.halfEven_intCast, ← whole,
      div_mul_cancel₀ _ (zpow_ne_zero _ two_ne_zero)]

theorem rounded_mono {left right : ℚ} (positive : 0 < left) (ordered : left ≤ right) :
    rounded left ≤ rounded right := by
  have rightPositive := lt_of_lt_of_le positive ordered
  have logs : Int.log 2 |left| ≤ Int.log 2 |right| := by
    rw [abs_of_pos positive, abs_of_pos rightPositive]
    exact Int.log_mono_right positive ordered
  have leftRounds := Rounding.roundsEven_halfEven (left / 2 ^ lastPlace left)
  have rightRounds := Rounding.roundsEven_halfEven (right / 2 ^ lastPlace right)
  have leftUnit : (0 : ℚ) < 2 ^ lastPlace left := zpow_pos two_pos _
  have rightUnit : (0 : ℚ) < 2 ^ lastPlace right := zpow_pos two_pos _
  rcases (show lastPlace left ≤ lastPlace right by unfold lastPlace; omega).eq_or_lt with
    same | coarser
  · unfold rounded
    rw [same] at leftRounds ⊢
    apply mul_le_mul_of_nonneg_right _ rightUnit.le
    exact_mod_cast leftRounds.mono rightRounds (div_le_div_of_nonneg_right ordered rightUnit.le)
  · -- A power of two lies between them, and neither rounds past it.
    have binade : lastPlace right + 23 = Int.log 2 |right| := by
      unfold lastPlace at coarser ⊢
      omega
    have leftBelow : left < 2 ^ (lastPlace right + 23) := by
      have smaller : Int.log 2 |left| < lastPlace right + 23 := by
        unfold lastPlace at coarser ⊢
        omega
      rw [abs_of_pos positive] at smaller
      exact_mod_cast (Int.lt_zpow_iff_log_lt (b := 2) one_lt_two positive).mpr smaller
    have rightAbove : (2 : ℚ) ^ (lastPlace right + 23) ≤ right := by
      rw [binade, abs_of_pos rightPositive]
      exact_mod_cast Int.zpow_log_le_self (b := 2) one_lt_two rightPositive
    obtain ⟨room, total⟩ := Int.le.dest (coarser.le.trans (Int.le_add_of_nonneg_right
      (by decide : (0 : ℤ) ≤ 23)))
    have leftWhole : ((2 ^ room : ℤ) : ℚ) * 2 ^ lastPlace left = 2 ^ (lastPlace right + 23) := by
      rw [← total, zpow_add₀ two_ne_zero, zpow_natCast, mul_comm]
      push_cast
      rfl
    have rightWhole : ((2 ^ 23 : ℤ) : ℚ) * 2 ^ lastPlace right = 2 ^ (lastPlace right + 23) := by
      rw [zpow_add₀ two_ne_zero, mul_comm]
      norm_num
    have leftBound : Rounding.halfEven (left / 2 ^ lastPlace left) ≤ 2 ^ room := by
      apply leftRounds.le_of_le
      rw [div_le_iff₀ leftUnit, leftWhole]
      exact leftBelow.le
    have rightBound : 2 ^ 23 ≤ Rounding.halfEven (right / 2 ^ lastPlace right) := by
      apply rightRounds.ge_of_ge
      rw [le_div_iff₀ rightUnit, rightWhole]
      exact rightAbove
    calc rounded left
        _ ≤ ((2 ^ room : ℤ) : ℚ) * 2 ^ lastPlace left :=
            mul_le_mul_of_nonneg_right (by exact_mod_cast leftBound) leftUnit.le
        _ = ((2 ^ 23 : ℤ) : ℚ) * 2 ^ lastPlace right := leftWhole.trans rightWhole.symm
        _ ≤ rounded right :=
            mul_le_mul_of_nonneg_right (by exact_mod_cast rightBound) rightUnit.le

theorem representable_zpow {place : ℤ} (least : -149 ≤ place) : Representable (2 ^ place) :=
  ⟨1, place, by decide, least, by norm_num⟩

theorem le_rounded {bound exact : ℚ} (representable : Representable bound) (positive : 0 < bound)
    (above : bound ≤ exact) : bound ≤ rounded exact := by
  calc bound = rounded bound := (rounded_of_representable representable).symm
    _ ≤ rounded exact := rounded_mono positive above

theorem rounded_le {bound exact : ℚ} (representable : Representable bound) (positive : 0 < exact)
    (below : exact ≤ bound) : rounded exact ≤ bound := by
  calc rounded exact ≤ rounded bound := rounded_mono positive below
    _ = bound := rounded_of_representable representable

theorem ofRat_natCast {value : Nat} (short : value < 2 ^ 24) :
    ∃ bounded, ofRat value = finite value bounded := by
  have same : rounded value = value := by
    apply rounded_of_representable
    refine ⟨value, 0, ?_, by decide, by simp⟩
    rw [abs_of_nonneg (Int.natCast_nonneg value)]
    exact_mod_cast short
  have bounded : |rounded value| ≤ maxFinite := by
    apply abs_rounded_le_of_small
    rw [abs_of_nonneg (Nat.cast_nonneg value)]
    exact lt_of_lt_of_le (by exact_mod_cast short : (value : ℚ) < 2 ^ 24) (by norm_num)
  rw [ofRat, dif_pos bounded]
  refine ⟨same ▸ bounded, ?_⟩
  simp only [same]

end Binary32
