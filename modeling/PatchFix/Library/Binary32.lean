import Mathlib.Data.Int.Log
import Mathlib.Tactic.NormNum
import PatchFix.Library.Rounding

/-! Single-precision numbers as rationals within the finite range; the sign of zero is dropped. -/

def Binary32.maxFinite : ℚ := (2 ^ 24 - 1) * 2 ^ 104

inductive Binary32 where
  | finite (value : ℚ) (bounded : |value| ≤ Binary32.maxFinite)
  | infinite (negative : Bool)
  | nan
  deriving DecidableEq

namespace Binary32

def lastPlace (exact : ℚ) : ℤ := max (Int.log 2 |exact| - 23) (-149)

def rounded (exact : ℚ) : ℚ :=
  Rounding.halfEven (exact / 2 ^ lastPlace exact) * 2 ^ lastPlace exact

def ofRat (exact : ℚ) : Binary32 :=
  if bounded : |rounded exact| ≤ maxFinite then finite (rounded exact) bounded
  else infinite (exact < 0)

theorem abs_rounded (exact : ℚ) :
    ∃ quotient : ℤ, Rounding.RoundsEven (|exact| / 2 ^ lastPlace exact) quotient ∧
      |rounded exact| = quotient * 2 ^ lastPlace exact := by
  have positive : (0 : ℚ) < 2 ^ lastPlace exact := zpow_pos two_pos _
  have rounds := (Rounding.roundsEven_halfEven (exact / 2 ^ lastPlace exact)).abs
  rw [abs_div, abs_of_pos positive] at rounds
  refine ⟨_, rounds, ?_⟩
  rw [rounded, abs_mul, abs_of_pos positive, Int.cast_abs]

theorem abs_rounded_le_of_small {exact : ℚ} (small : |exact| < 2 ^ 127) :
    |rounded exact| ≤ maxFinite := by
  obtain ⟨quotient, rounds, same⟩ := abs_rounded exact
  have positive : (0 : ℚ) < 2 ^ lastPlace exact := zpow_pos two_pos _
  have place : lastPlace exact ≤ 103 := by
    rcases (abs_nonneg exact).eq_or_lt with zero | above
    · rw [lastPlace, ← zero, Int.log_zero_right]
      decide
    · have below : Int.log 2 |exact| < 127 :=
        (Int.lt_zpow_iff_log_lt (b := 2) one_lt_two above).mp (by exact_mod_cast small)
      rw [lastPlace]
      omega
  obtain ⟨room, total⟩ := Int.le.dest (place.trans (by decide : (103 : ℤ) ≤ 127))
  have whole : (2 : ℚ) ^ 127 = ((2 ^ room : ℤ) : ℚ) * 2 ^ lastPlace exact := by
    calc (2 : ℚ) ^ 127 = 2 ^ (lastPlace exact + room) := by rw [total]; norm_num
      _ = 2 ^ lastPlace exact * 2 ^ (room : ℤ) := zpow_add₀ two_ne_zero _ _
      _ = ((2 ^ room : ℤ) : ℚ) * 2 ^ lastPlace exact := by push_cast; rw [zpow_natCast, mul_comm]
  have bounded : quotient ≤ 2 ^ room := by
    apply rounds.le_of_le
    rw [div_le_iff₀ positive, ← whole]
    exact small.le
  calc |rounded exact| = quotient * 2 ^ lastPlace exact := same
    _ ≤ ((2 ^ room : ℤ) : ℚ) * 2 ^ lastPlace exact :=
        mul_le_mul_of_nonneg_right (by exact_mod_cast bounded) positive.le
    _ = 2 ^ 127 := whole.symm
    _ ≤ maxFinite := by norm_num [maxFinite]

theorem lt_abs_rounded_of_large {exact : ℚ} (large : 2 ^ 128 ≤ |exact|) :
    maxFinite < |rounded exact| := by
  obtain ⟨quotient, rounds, same⟩ := abs_rounded exact
  have above : 0 < |exact| := lt_of_lt_of_le (by norm_num) large
  have magnitude : (128 : ℤ) ≤ Int.log 2 |exact| :=
    (Int.zpow_le_iff_le_log (b := 2) one_lt_two above).mp (by exact_mod_cast large)
  have place : lastPlace exact = Int.log 2 |exact| - 23 := by
    rw [lastPlace]
    omega
  have positive : (0 : ℚ) < 2 ^ lastPlace exact := zpow_pos two_pos _
  have whole : ((2 ^ 23 : ℤ) : ℚ) * 2 ^ lastPlace exact = 2 ^ Int.log 2 |exact| := by
    have split : Int.log 2 |exact| = 23 + lastPlace exact := by omega
    rw [split, zpow_add₀ two_ne_zero]
    norm_num
  have bounded : 2 ^ 23 ≤ quotient := by
    apply rounds.ge_of_ge
    rw [le_div_iff₀ positive, whole]
    exact_mod_cast Int.zpow_log_le_self (b := 2) one_lt_two above
  calc maxFinite < 2 ^ (128 : ℤ) := by norm_num [maxFinite]
    _ ≤ 2 ^ Int.log 2 |exact| := zpow_le_zpow_right₀ one_le_two magnitude
    _ = ((2 ^ 23 : ℤ) : ℚ) * 2 ^ lastPlace exact := whole.symm
    _ ≤ quotient * 2 ^ lastPlace exact :=
        mul_le_mul_of_nonneg_right (by exact_mod_cast bounded) positive.le
    _ = |rounded exact| := same.symm

/-- A half of the last place above the largest finite number rounds up. -/
theorem abs_rounded_le_iff (exact : ℚ) :
    |rounded exact| ≤ maxFinite ↔ |exact| < 2 ^ 128 - 2 ^ 103 := by
  rcases lt_or_ge |exact| (2 ^ 127) with small | middle
  · refine iff_of_true (abs_rounded_le_of_small small) (small.trans ?_)
    norm_num
  · rcases lt_or_ge |exact| (2 ^ 128) with below | large
    · have above : 0 < |exact| := lt_of_lt_of_le (by norm_num) middle
      have magnitude : Int.log 2 |exact| = 127 := by
        have least : (127 : ℤ) ≤ Int.log 2 |exact| :=
          (Int.zpow_le_iff_le_log (b := 2) one_lt_two above).mp (by exact_mod_cast middle)
        have most : Int.log 2 |exact| < 128 :=
          (Int.lt_zpow_iff_log_lt (b := 2) one_lt_two above).mp (by exact_mod_cast below)
        omega
      have place : lastPlace exact = 104 := by
        rw [lastPlace, magnitude]
        decide
      obtain ⟨quotient, rounds, same⟩ := abs_rounded exact
      have unit : (0 : ℚ) < 2 ^ (104 : ℤ) := by norm_num
      rw [place] at rounds same
      have fits := rounds.le_odd_iff (show Odd (2 ^ 24 - 1 : ℤ) by decide)
      rw [div_lt_iff₀ unit] at fits
      have limit : ((2 ^ 24 - 1 : ℤ) + 1 / 2 : ℚ) * 2 ^ (104 : ℤ) = 2 ^ 128 - 2 ^ 103 := by
        norm_num
      have most : maxFinite = ((2 ^ 24 - 1 : ℤ) : ℚ) * 2 ^ (104 : ℤ) := by norm_num [maxFinite]
      rw [limit] at fits
      rw [← fits, same, most, mul_le_mul_iff_left₀ unit]
      exact_mod_cast Iff.rfl
    · refine iff_of_false (not_le.mpr (lt_abs_rounded_of_large large)) (not_lt.mpr ?_)
      exact le_trans (by norm_num) large

instance : Zero Binary32 := ⟨finite 0 (by norm_num [maxFinite])⟩

instance : One Binary32 := ⟨finite 1 (by norm_num [maxFinite])⟩

def thousand : Binary32 := finite 1000 (by norm_num [maxFinite])

@[simp] theorem rounded_zero : rounded 0 = 0 := by
  simp [rounded, Rounding.halfEven]

@[simp] theorem ofRat_zero : ofRat 0 = 0 := by
  have bounded : |rounded 0| ≤ maxFinite := by norm_num [maxFinite]
  rw [ofRat, dif_pos bounded]
  simp only [rounded_zero]
  rfl

def isFinite : Binary32 → Bool
  | finite _ _ => true
  | infinite _ => false
  | nan => false

theorem eq_finite {value : Binary32} (isFinite : value.isFinite = true) :
    ∃ (exact : ℚ) (bounded : |exact| ≤ maxFinite), value = finite exact bounded := by
  cases value with
  | finite exact bounded => exact ⟨exact, bounded, rfl⟩
  | infinite negative => contradiction
  | nan => contradiction

theorem isFinite_ofRat (exact : ℚ) :
    (ofRat exact).isFinite = true ↔ |exact| < 2 ^ 128 - 2 ^ 103 := by
  rw [← abs_rounded_le_iff, ofRat]
  by_cases bounded : |rounded exact| ≤ maxFinite
  · simp [bounded, isFinite]
  · simp [bounded, isFinite]

def div : Binary32 → Binary32 → Binary32
  | finite first _, finite second _ =>
      if second ≠ 0 then ofRat (first / second)
      else if first = 0 then nan
      else infinite (first < 0)
  | finite _ _, infinite _ => 0
  | infinite negative, finite second _ => infinite (negative != (second < 0 : Bool))
  | infinite _, infinite _ => nan
  | nan, _ => nan
  | _, nan => nan

def unrounded (exact : ℚ) : Binary32 :=
  if bounded : |exact| ≤ maxFinite then finite exact bounded else infinite (exact < 0)

def divUnrounded : Binary32 → Binary32 → Binary32
  | finite first firstBounded, finite second secondBounded =>
      if second ≠ 0 then unrounded (first / second)
      else div (finite first firstBounded) (finite second secondBounded)
  | first, second => div first second

theorem isFinite_unrounded (exact : ℚ) :
    (unrounded exact).isFinite = true ↔ |exact| ≤ maxFinite := by
  rw [unrounded]
  by_cases bounded : |exact| ≤ maxFinite
  · simp [bounded, isFinite]
  · simp [bounded, isFinite]

def mul : Binary32 → Binary32 → Binary32
  | finite first _, finite second _ => ofRat (first * second)
  | finite first _, infinite negative =>
      if first = 0 then nan else infinite (negative != (first < 0 : Bool))
  | infinite negative, finite second _ =>
      if second = 0 then nan else infinite (negative != (second < 0 : Bool))
  | infinite first, infinite second => infinite (first != second)
  | nan, _ => nan
  | _, nan => nan

theorem zero_div_finite {value : ℚ} (bounded : |value| ≤ maxFinite) (nonzero : value ≠ 0) :
    div 0 (finite value bounded) = 0 := by
  change (if value ≠ 0 then ofRat (0 / value) else _) = 0
  rw [if_pos nonzero, zero_div, ofRat_zero]

theorem zero_divUnrounded_finite {value : ℚ} (bounded : |value| ≤ maxFinite)
    (nonzero : value ≠ 0) : divUnrounded 0 (finite value bounded) = 0 := by
  have zero : |(0 : ℚ)| ≤ maxFinite := by norm_num [maxFinite]
  change (if value ≠ 0 then unrounded (0 / value) else _) = 0
  rw [if_pos nonzero, zero_div, unrounded, dif_pos zero]
  rfl

/-- The order of the language's `<`, under which a NaN is below and above nothing. -/
def lt : Binary32 → Binary32 → Bool
  | finite first _, finite second _ => first < second
  | finite _ _, infinite negative => !negative
  | infinite negative, finite _ _ => negative
  | infinite first, infinite second => first && !second
  | nan, _ => false
  | _, nan => false

def le : Binary32 → Binary32 → Bool
  | finite first _, finite second _ => first ≤ second
  | finite _ _, infinite negative => !negative
  | infinite negative, finite _ _ => negative
  | infinite first, infinite second => first || !second
  | nan, _ => false
  | _, nan => false

theorem zero_div {value : Binary32} (positive : lt 0 value = true)
    (isFinite : value.isFinite = true) : div 0 value = 0 := by
  cases value with
  | finite value bounded =>
      have above : 0 < value := by simpa using of_decide_eq_true positive
      exact zero_div_finite bounded above.ne'
  | infinite negative => contradiction
  | nan => contradiction

theorem zero_divUnrounded {value : Binary32} (positive : lt 0 value = true)
    (isFinite : value.isFinite = true) : divUnrounded 0 value = 0 := by
  cases value with
  | finite value bounded =>
      have above : 0 < value := by simpa using of_decide_eq_true positive
      exact zero_divUnrounded_finite bounded above.ne'
  | infinite negative => contradiction
  | nan => contradiction

def clamp (value low high : Binary32) : Binary32 :=
  if value.lt low then low else if high.lt value then high else value

def max (first second : Binary32) : Binary32 := if first.lt second then second else first

end Binary32
