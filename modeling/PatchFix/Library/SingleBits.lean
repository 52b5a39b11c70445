import Mathlib.Order.Monotone.Basic
import PatchFix.Library.Binary32
import PatchFix.Library.X64Code

/-!
The single-precision number that 32 bits stand for; the order of the bits is the order of the
numbers.
-/

namespace SingleBits

open X64Code

/-- A number in units of the smallest one, by its bits without the sign. -/
def units (size : Nat) : Nat :=
  if size < 2 ^ 23 then size else (2 ^ 23 + size % 2 ^ 23) * 2 ^ (size / 2 ^ 23 - 1)

def infinity : Nat := 0x7F800000

def size (single : UInt32) : Nat := single.toNat % 2 ^ 31

def negative (single : UInt32) : Bool := 2 ^ 31 ≤ single.toNat

theorem units_lt_succ (size : Nat) : units size < units (size + 1) := by
  unfold units
  by_cases subnormal : size + 1 < 2 ^ 23
  · rw [if_pos (by omega), if_pos subnormal]
    omega
  · by_cases least : size < 2 ^ 23
    · have last : size = 2 ^ 23 - 1 := by omega
      subst last
      decide
    · rw [if_neg least, if_neg (by omega)]
      by_cases same : (size + 1) / 2 ^ 23 = size / 2 ^ 23
      · have next : (size + 1) % 2 ^ 23 = size % 2 ^ 23 + 1 := by omega
        rw [same, next]
        exact Nat.mul_lt_mul_of_pos_right (by omega) (Nat.two_pow_pos _)
      · have carried : (size + 1) / 2 ^ 23 = size / 2 ^ 23 + 1 := by omega
        have zero : (size + 1) % 2 ^ 23 = 0 := by omega
        have positive : 1 ≤ size / 2 ^ 23 := by omega
        obtain ⟨exponent, same⟩ := Nat.exists_eq_add_of_le positive
        rw [carried, zero, same, Nat.add_sub_cancel_left, Nat.add_sub_cancel, Nat.pow_add,
          Nat.add_zero, ← Nat.mul_assoc]
        exact Nat.mul_lt_mul_of_pos_right (by omega) (Nat.two_pow_pos _)

theorem units_strictMono : StrictMono units := strictMono_nat_of_lt_succ units_lt_succ

theorem units_le {size : Nat} (finite : size < infinity) : units size ≤ 0xFFFFFF * 2 ^ 253 :=
  calc units size
    _ ≤ units (infinity - 1) := units_strictMono.monotone (Nat.le_sub_one_of_lt finite)
    _ = 0xFFFFFF * 2 ^ 253 := by decide

def magnitude (size : Nat) : ℚ := units size / 2 ^ 149

theorem magnitude_nonneg (size : Nat) : 0 ≤ magnitude size := by
  unfold magnitude
  positivity

theorem magnitude_lt_iff {first second : Nat} :
    magnitude first < magnitude second ↔ first < second := by
  rw [magnitude, magnitude, div_lt_div_iff_of_pos_right (by positivity), Nat.cast_lt,
    units_strictMono.lt_iff_lt]

theorem magnitude_le {size : Nat} (finite : size < infinity) :
    magnitude size ≤ Binary32.maxFinite := by
  have bound : (units size : ℚ) ≤ 0xFFFFFF * 2 ^ 253 := by exact_mod_cast units_le finite
  have largest : (0xFFFFFF : ℚ) = 2 ^ 24 - 1 := by norm_num
  rw [magnitude, div_le_iff₀ (by positivity), Binary32.maxFinite, mul_assoc, ← pow_add, ← largest]
  exact bound

def signed (isNegative : Bool) (exact : ℚ) : ℚ := if isNegative then -exact else exact

theorem abs_signed (isNegative : Bool) (exact : ℚ) : |signed isNegative exact| = |exact| := by
  cases isNegative with
  | true => exact abs_neg exact
  | false => rfl

def ofBits (single : UInt32) : Binary32 :=
  if finite : size single < infinity then
    .finite (signed (negative single) (magnitude (size single))) (by
      rw [abs_signed, abs_of_nonneg (magnitude_nonneg _)]
      exact magnitude_le finite)
  else if size single = infinity then .infinite (negative single)
  else .nan

theorem isNan_eq (single : UInt32) : isNan single = decide (infinity < size single) := by
  have masked : (single &&& 0x7FFFFFFF).toNat = size single := by
    rw [UInt32.toNat_and]
    exact Nat.and_two_pow_sub_one_eq_mod single.toNat 31
  rw [isNan, ← masked]
  exact decide_eq_decide.mpr UInt32.lt_iff_toNat_lt

theorem key_eq (single : UInt32) :
    key single = if negative single then -(size single : Int) else size single := by
  have bound := single.toNat_lt
  have limit : (0x80000000 : UInt32).toNat = 2 ^ 31 := rfl
  unfold key negative size
  by_cases positive : single < 0x80000000
  · rw [UInt32.lt_iff_toNat_lt, limit] at positive
    simp only [UInt32.lt_iff_toNat_lt, limit]
    rw [if_pos positive, if_neg (by simpa using positive), Nat.mod_eq_of_lt positive]
  · have past := positive
    rw [UInt32.lt_iff_toNat_lt, limit] at past
    rw [if_neg positive, if_pos (by simpa using past)]
    omega

theorem signed_lt_iff (first second : Bool) (left right : Nat) :
    signed first (magnitude left) < signed second (magnitude right) ↔
      (if first then -(left : Int) else left) < if second then -(right : Int) else right := by
  have zero : magnitude 0 = 0 := by simp [magnitude, units]
  have leftZero : 0 < magnitude left ↔ 0 < left := by rw [← zero, magnitude_lt_iff]
  have rightZero : 0 < magnitude right ↔ 0 < right := by rw [← zero, magnitude_lt_iff]
  have leftNonneg := magnitude_nonneg left
  have rightNonneg := magnitude_nonneg right
  cases first with
  | true =>
      cases second with
      | true =>
          simp only [signed, if_true, neg_lt_neg_iff, magnitude_lt_iff, Nat.cast_lt]
      | false =>
          simp only [signed, if_true, Bool.false_eq_true, if_false]
          constructor
          · intro below
            by_contra none
            have leftNone : ¬0 < magnitude left := by rw [leftZero]; omega
            have rightNone : ¬0 < magnitude right := by rw [rightZero]; omega
            linarith
          · intro below
            by_cases some : 0 < left
            · linarith [leftZero.mpr some]
            · linarith [rightZero.mpr (by omega)]
  | false =>
      cases second with
      | true =>
          simp only [signed, if_true, Bool.false_eq_true, if_false]
          exact iff_of_false (by linarith) (by omega)
      | false =>
          simp only [signed, Bool.false_eq_true, if_false, magnitude_lt_iff, Nat.cast_lt]

theorem ofBits_finite {single : UInt32} (finite : size single < infinity) :
    ∃ bounded, ofBits single =
      .finite (signed (negative single) (magnitude (size single))) bounded :=
  ⟨_, dif_pos finite⟩

theorem ofBits_infinite {single : UInt32} (infinite : size single = infinity) :
    ofBits single = .infinite (negative single) := by
  rw [ofBits, dif_neg (by omega), if_pos infinite]

theorem ofBits_nan {single : UInt32} (past : infinity < size single) : ofBits single = .nan := by
  rw [ofBits, dif_neg (by omega), if_neg (by omega)]

theorem below_eq (first second : UInt32) :
    below first second = (ofBits first).lt (ofBits second) := by
  unfold below unordered
  rw [isNan_eq, isNan_eq, key_eq, key_eq]
  rcases Nat.lt_trichotomy (size first) infinity with left | left | left
  · obtain ⟨bounded, number⟩ := ofBits_finite left
    rw [number]
    rcases Nat.lt_trichotomy (size second) infinity with right | right | right
    · obtain ⟨otherBounded, other⟩ := ofBits_finite right
      rw [other, decide_eq_false left.not_gt, decide_eq_false right.not_gt]
      exact decide_eq_decide.mpr (signed_lt_iff _ _ _ _).symm
    · rw [ofBits_infinite right, right, decide_eq_false left.not_gt,
        decide_eq_false (Nat.lt_irrefl _)]
      show _ = !negative second
      cases negative first <;> cases negative second <;> simp <;> omega
    · rw [ofBits_nan right]
      simp [Binary32.lt, right]
  · rw [ofBits_infinite left, left, decide_eq_false (Nat.lt_irrefl _)]
    rcases Nat.lt_trichotomy (size second) infinity with right | right | right
    · obtain ⟨otherBounded, other⟩ := ofBits_finite right
      rw [other, decide_eq_false right.not_gt]
      show _ = negative first
      cases negative first <;> cases negative second <;> simp <;> omega
    · rw [ofBits_infinite right, right, decide_eq_false (Nat.lt_irrefl _)]
      cases negative first <;> cases negative second <;> simp [Binary32.lt, infinity]
    · rw [ofBits_nan right]
      simp [Binary32.lt, right]
  · rw [ofBits_nan left]
    simp [Binary32.lt, left]

end SingleBits
