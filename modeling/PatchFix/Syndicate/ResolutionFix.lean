import Mathlib.Data.Rat.Lemmas
import Mathlib.Tactic.FieldSimp

/-!
Syndicate's `ResolutionFix`: which aspect ratios `is_standard_aspect` lets into the mode list.
-/

namespace PatchFix.Syndicate

def standardAspects : List (UInt32 × UInt32) :=
  [(16, 9), (16, 10), (8, 5), (21, 9), (64, 27), (43, 18), (32, 9), (5, 4), (4, 3), (3, 2)]

def isStandardAspect (w h : UInt32) : Bool :=
  if w = 0 ∨ h = 0 then true
  else
    let g := UInt32.ofNat (w.toNat.gcd h.toNat)
    standardAspects.contains (w / g, h / g)

def ListedRatio (w h : UInt32) : Prop :=
  ∃ aspect ∈ standardAspects, (w.toNat : ℚ) / h.toNat = aspect.1.toNat / aspect.2.toNat

theorem reduced_iff {w h p q : Nat} (wPositive : 0 < w) :
    (w / w.gcd h = p ∧ h / w.gcd h = q) ↔ w * q = p * h ∧ p.Coprime q := by
  have divisor : 0 < w.gcd h := Nat.gcd_pos_of_pos_left h wPositive
  obtain ⟨a, b, coprime, wFactors, hFactors⟩ := Nat.exists_coprime w h
  generalize w.gcd h = g at divisor wFactors hFactors
  subst wFactors hFactors
  rw [Nat.mul_div_cancel a divisor, Nat.mul_div_cancel b divisor]
  constructor
  · rintro ⟨rfl, rfl⟩
    exact ⟨by rw [Nat.mul_assoc, Nat.mul_comm g], coprime⟩
  · rintro ⟨cross, lowest⟩
    have reduced : a * q = p * b := by
      apply Nat.eq_of_mul_eq_mul_right divisor
      rw [Nat.mul_right_comm, Nat.mul_assoc p]
      exact cross
    have aDivides : a ∣ p := coprime.dvd_of_dvd_mul_right ⟨q, reduced.symm⟩
    have pDivides : p ∣ a := lowest.dvd_of_dvd_mul_right ⟨b, reduced⟩
    obtain rfl := Nat.dvd_antisymm aDivides pDivides
    have aPositive : 0 < a := Nat.pos_of_mul_pos_right wPositive
    exact ⟨rfl, (Nat.eq_of_mul_eq_mul_left aPositive reduced).symm⟩

theorem isStandardAspect_iff {w h : UInt32} (wPositive : 0 < w) (hPositive : 0 < h) :
    isStandardAspect w h = true ↔ ∃ aspect ∈ standardAspects,
      w.toNat * aspect.2.toNat = aspect.1.toNat * h.toNat ∧
        aspect.1.toNat.Coprime aspect.2.toNat := by
  have nonzero : ¬(w = 0 ∨ h = 0) := by
    rintro (rfl | rfl)
    · exact absurd wPositive (by decide)
    · exact absurd hPositive (by decide)
  have wAbove : 0 < w.toNat := UInt32.lt_iff_toNat_lt.mp wPositive
  have fits : w.toNat.gcd h.toNat < 2 ^ 32 :=
    Nat.lt_of_le_of_lt (Nat.gcd_le_left _ wAbove) w.toNat_lt
  have reduced : ∀ side : UInt32, (side / UInt32.ofNat (w.toNat.gcd h.toNat)).toNat =
      side.toNat / w.toNat.gcd h.toNat := by
    intro side
    rw [UInt32.toNat_div, UInt32.toNat_ofNat', Nat.mod_eq_of_lt fits]
  rw [isStandardAspect, if_neg nonzero, List.contains_iff_mem]
  constructor
  · intro member
    exact ⟨_, member, (reduced_iff wAbove).mp ⟨(reduced w).symm, (reduced h).symm⟩⟩
  · rintro ⟨aspect, member, cross⟩
    obtain ⟨width, height⟩ := (reduced_iff wAbove).mpr cross
    have same : (w / UInt32.ofNat (w.toNat.gcd h.toNat), h / UInt32.ofNat (w.toNat.gcd h.toNat)) =
        aspect :=
      Prod.ext (UInt32.toNat_inj.mp ((reduced w).trans width))
        (UInt32.toNat_inj.mp ((reduced h).trans height))
    rwa [← same] at member

theorem listedRatio_iff {w h : UInt32} (hPositive : 0 < h) :
    ListedRatio w h ↔ ∃ aspect ∈ standardAspects,
      w.toNat * aspect.2.toNat = aspect.1.toNat * h.toNat := by
  have hAbove : (h.toNat : ℚ) ≠ 0 := by
    exact_mod_cast (UInt32.lt_iff_toNat_lt.mp hPositive).ne'
  have denominators : ∀ aspect ∈ standardAspects, aspect.2.toNat ≠ 0 := by
    simp [standardAspects]
  refine exists_congr fun aspect => and_congr_right fun member => ?_
  rw [div_eq_div_iff hAbove (by exact_mod_cast denominators aspect member)]
  exact_mod_cast Iff.rfl

/-- 16:10 is 8:5 again, but 7:3 is not in the list beside 21:9. -/
theorem lowest_or_reducible : ∀ aspect ∈ standardAspects,
    aspect.1.toNat.Coprime aspect.2.toNat ∨ aspect = (16, 10) ∨ aspect = (21, 9) := by
  simp [standardAspects, Nat.Coprime]

theorem listedRatio_iff_standard {w h : UInt32} (wPositive : 0 < w) (hPositive : 0 < h) :
    ListedRatio w h ↔ isStandardAspect w h = true ∨ 3 * w.toNat = 7 * h.toNat := by
  rw [listedRatio_iff hPositive, isStandardAspect_iff wPositive hPositive]
  constructor
  · rintro ⟨aspect, member, cross⟩
    rcases lowest_or_reducible aspect member with lowest | rfl | rfl
    · exact Or.inl ⟨aspect, member, cross, lowest⟩
    · have cross : w.toNat * 10 = 16 * h.toNat := cross
      exact Or.inl ⟨(8, 5), by simp [standardAspects], show w.toNat * 5 = 8 * h.toNat by omega,
        by decide⟩
    · have cross : w.toNat * 9 = 21 * h.toNat := cross
      exact Or.inr (by omega)
  · rintro (⟨aspect, member, cross, _⟩ | sevenThirds)
    · exact ⟨aspect, member, cross⟩
    · exact ⟨(21, 9), by simp [standardAspects], show w.toNat * 9 = 21 * h.toNat by omega⟩

theorem not_standard_of_sevenThirds {w h : UInt32} (wPositive : 0 < w) (hPositive : 0 < h)
    (sevenThirds : 3 * w.toNat = 7 * h.toNat) : isStandardAspect w h ≠ true := by
  have wAbove : 0 < w.toNat := UInt32.lt_iff_toNat_lt.mp wPositive
  rw [Ne, isStandardAspect_iff wPositive hPositive]
  rintro ⟨aspect, member, cross⟩
  obtain ⟨width, _⟩ := (reduced_iff wAbove).mpr cross
  have sevenCross : w.toNat * 3 = 7 * h.toNat := by omega
  obtain ⟨seven, _⟩ := (reduced_iff wAbove).mpr ⟨sevenCross, by decide⟩
  have other : ∀ listed ∈ standardAspects, listed.1.toNat ≠ 7 := by simp [standardAspects]
  exact other aspect member (width.symm.trans seven)

theorem isStandardAspect_correct_iff (w h : UInt32) (wPositive : 0 < w) (hPositive : 0 < h) :
    (isStandardAspect w h = true ↔ ListedRatio w h) ↔ 3 * w.toNat ≠ 7 * h.toNat := by
  rw [listedRatio_iff_standard wPositive hPositive]
  constructor
  · intro same sevenThirds
    exact not_standard_of_sevenThirds wPositive hPositive sevenThirds
      (same.mpr (Or.inr sevenThirds))
  · intro different
    exact (or_iff_left different).symm

theorem isStandardAspect_correct_iff_fullHd :
    (isStandardAspect 1920 1080 = true ↔ ListedRatio 1920 1080) ↔
      3 * (1920 : UInt32).toNat ≠ 7 * (1080 : UInt32).toNat :=
  isStandardAspect_correct_iff 1920 1080 (by decide) (by decide)

theorem ultrawide_filtered :
    ¬∀ w h : UInt32, 0 < w → 0 < h → (isStandardAspect w h = true ↔ ListedRatio w h) := by
  intro claimed
  have listed : ListedRatio 2520 1080 :=
    (listedRatio_iff (by decide)).mpr ⟨(21, 9), by decide, by decide⟩
  exact absurd ((claimed 2520 1080 (by decide) (by decide)).mpr listed) (by decide)

end PatchFix.Syndicate
