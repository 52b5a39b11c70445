import Mathlib.Algebra.Order.Round
import Mathlib.Data.Rat.Floor
import Mathlib.Tactic.Linarith
import Mathlib.Tactic.Ring

/-! Rounding of rationals to integers: to nearest with ties to even, and with ties away from 0. -/

namespace Rounding

def halfEven (exact : ℚ) : ℤ :=
  let below := ⌊exact⌋
  if exact - below < 1 / 2 then below
  else if 1 / 2 < exact - below then below + 1
  else if below % 2 = 0 then below
  else below + 1

def halfAway (exact : ℚ) : ℤ :=
  if 0 ≤ exact then ⌊exact + 1 / 2⌋ else -⌊-exact + 1 / 2⌋

theorem halfAway_neg (exact : ℚ) : halfAway (-exact) = -halfAway exact := by
  unfold halfAway
  rcases lt_trichotomy exact 0 with negative | rfl | positive
  · rw [if_pos (by linarith), if_neg (by linarith), neg_neg]
  · norm_num
  · rw [if_neg (by linarith), if_pos positive.le, neg_neg]

/-- The nearest integer, and of two equally near ones the one farther from 0. -/
def RoundsAway (exact : ℚ) (value : ℤ) : Prop :=
  |exact - value| < 1 / 2 ∨ (|exact - value| = 1 / 2 ∧ |exact| < |(value : ℚ)|)

theorem roundsAway_neg {exact : ℚ} {value : ℤ} :
    RoundsAway (-exact) (-value) ↔ RoundsAway exact value := by
  unfold RoundsAway
  have flipped : -exact - ((-value : ℤ) : ℚ) = -(exact - value) := by push_cast; ring
  rw [flipped, abs_neg, abs_neg, Int.cast_neg, abs_neg]

theorem halfAway_eq_iff_of_nonneg {exact : ℚ} (nonneg : 0 ≤ exact) (value : ℤ) :
    halfAway exact = value ↔ RoundsAway exact value := by
  have bounds : halfAway exact = value ↔ value - 1 / 2 ≤ exact ∧ exact < value + 1 / 2 := by
    rw [halfAway, if_pos nonneg, Int.floor_eq_iff]
    constructor
    · rintro ⟨lower, upper⟩
      exact ⟨by linarith, by linarith⟩
    · rintro ⟨lower, upper⟩
      exact ⟨by linarith, by linarith⟩
  rw [bounds, RoundsAway, abs_of_nonneg nonneg]
  constructor
  · rintro ⟨lower, upper⟩
    rcases lower.lt_or_eq with inside | tie
    · exact Or.inl (abs_lt.mpr ⟨by linarith, by linarith⟩)
    · refine Or.inr ⟨?_, lt_of_lt_of_le ?_ (le_abs_self _)⟩
      · rw [← tie]
        norm_num
      · linarith
  · rintro (near | ⟨tie, below⟩)
    · obtain ⟨lower, upper⟩ := abs_lt.mp near
      exact ⟨by linarith, by linarith⟩
    · have positive : (0 : ℚ) ≤ value := by
        have least : (-1 : ℚ) < value := by
          have lower := (abs_le.mp tie.le).2
          linarith
        exact_mod_cast (by exact_mod_cast least : (-1 : ℤ) < value)
      rw [abs_of_nonneg positive] at below
      have upper := (abs_le.mp tie.le).1
      exact ⟨by linarith [(abs_le.mp tie.le).1], by linarith⟩

theorem halfAway_eq_iff (exact : ℚ) (value : ℤ) :
    halfAway exact = value ↔ RoundsAway exact value := by
  rcases le_total 0 exact with nonneg | nonpos
  · exact halfAway_eq_iff_of_nonneg nonneg value
  · have mirrored := halfAway_eq_iff_of_nonneg (neg_nonneg.mpr nonpos) (-value)
    rwa [halfAway_neg, neg_inj, roundsAway_neg] at mirrored

theorem abs_halfAway_sub (exact : ℚ) : |exact - halfAway exact| ≤ 1 / 2 := by
  rcases (halfAway_eq_iff exact _).mp rfl with near | ⟨tie, _⟩
  · exact near.le
  · exact tie.le

/-- The nearest integer, and of two equally near ones the even one. -/
def RoundsEven (exact : ℚ) (value : ℤ) : Prop :=
  |exact - value| < 1 / 2 ∨ (|exact - value| = 1 / 2 ∧ Even value)

theorem roundsEven_halfEven (exact : ℚ) : RoundsEven exact (halfEven exact) := by
  have lower := Int.floor_le exact
  have upper := Int.lt_floor_add_one exact
  unfold halfEven
  dsimp only
  split
  · next near => exact Or.inl (abs_lt.mpr ⟨by linarith, near⟩)
  · next far =>
      split
      · next above =>
          refine Or.inl (abs_lt.mpr ⟨?_, ?_⟩)
          · push_cast
            linarith
          · push_cast
            linarith
      · next notAbove =>
          have tie : exact - ⌊exact⌋ = 1 / 2 := le_antisymm (not_lt.mp notAbove) (not_lt.mp far)
          split
          · next even =>
              exact Or.inr ⟨by rw [tie, abs_of_pos one_half_pos], Int.even_iff.mpr even⟩
          · next odd =>
              have below : exact - ((⌊exact⌋ + 1 : ℤ) : ℚ) = -(1 / 2) := by
                push_cast
                linarith
              refine Or.inr ⟨by rw [below, abs_neg, abs_of_pos one_half_pos], ?_⟩
              exact (Int.not_even_iff_odd.mp (mt Int.even_iff.mp odd)).add_one

theorem RoundsEven.le_of_le {exact : ℚ} {value bound : ℤ} (rounds : RoundsEven exact value)
    (below : exact ≤ bound) : value ≤ bound := by
  have near : |exact - value| ≤ 1 / 2 := rounds.elim le_of_lt fun tie => tie.1.le
  have lower := (abs_le.mp near).1
  have close : (value : ℚ) < bound + 1 := by linarith
  exact Int.lt_add_one_iff.mp (by exact_mod_cast close)

theorem RoundsEven.neg {exact : ℚ} {value : ℤ} (rounds : RoundsEven exact value) :
    RoundsEven (-exact) (-value) := by
  have flipped : -exact - ((-value : ℤ) : ℚ) = -(exact - value) := by push_cast; ring
  rw [RoundsEven, flipped, abs_neg, even_neg]
  exact rounds

theorem RoundsEven.ge_of_ge {exact : ℚ} {value bound : ℤ} (rounds : RoundsEven exact value)
    (above : (bound : ℚ) ≤ exact) : bound ≤ value := by
  have mirrored : -value ≤ -bound := rounds.neg.le_of_le (by push_cast; linarith)
  exact neg_le_neg_iff.mp mirrored

theorem RoundsEven.le_odd_iff {exact : ℚ} {value bound : ℤ} (rounds : RoundsEven exact value)
    (odd : Odd bound) : value ≤ bound ↔ exact < bound + 1 / 2 := by
  constructor
  · intro below
    have cast : (value : ℚ) ≤ bound := by exact_mod_cast below
    rcases rounds with near | ⟨tie, even⟩
    · have upper := (abs_lt.mp near).2
      linarith
    · have upper := (abs_le.mp tie.le).2
      have different : value ≠ bound := by
        rintro rfl
        exact Int.not_even_iff_odd.mpr odd even
      have less : (value : ℚ) < bound := by exact_mod_cast below.lt_of_ne different
      linarith
  · intro below
    by_contra above
    have cast : (bound : ℚ) + 1 ≤ value := by exact_mod_cast not_le.mp above
    have near : |exact - value| ≤ 1 / 2 := rounds.elim le_of_lt fun tie => tie.1.le
    have lower := (abs_le.mp near).1
    linarith

theorem RoundsEven.abs {exact : ℚ} {value : ℤ} (rounds : RoundsEven exact value) :
    RoundsEven |exact| |value| := by
  rcases le_total 0 exact with nonneg | nonpos
  · have above : 0 ≤ value := rounds.ge_of_ge (by exact_mod_cast nonneg)
    rwa [abs_of_nonneg nonneg, abs_of_nonneg above]
  · have below : value ≤ 0 := rounds.le_of_le (by exact_mod_cast nonpos)
    rw [abs_of_nonpos nonpos, abs_of_nonpos below]
    exact rounds.neg

end Rounding
