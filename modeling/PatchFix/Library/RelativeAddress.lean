import Mathlib.Algebra.Group.Nat.Defs
import Mathlib.Algebra.Order.Ring.Int
import Mathlib.Tactic.NormNum
import Mathlib.Tactic.Positivity

/-!
Addresses given by a signed operand: the two's complement of a few bytes, added to a 64-bit origin
that wraps around.
-/

namespace RelativeAddress

def signed (width value : Nat) : Int := Int.bmod value (256 ^ width)

def displace (origin : UInt64) (offset : Int) : UInt64 := origin + UInt64.ofInt offset

/-- The signed distance of two addresses, the short way around. -/
def distance (origin target : UInt64) : Int := Int.bmod (target - origin).toNat (2 ^ 64)

def Reaches (width : Nat) (origin target : UInt64) : Prop :=
  -(256 ^ width / 2 : Int) ≤ distance origin target ∧ distance origin target < 256 ^ width / 2

instance (width : Nat) (origin target : UInt64) : Decidable (Reaches width origin target) :=
  inferInstanceAs (Decidable (_ ∧ _))

def operand (width : Nat) (origin target : UInt64) : Nat :=
  (distance origin target % (256 ^ width : Int)).toNat

theorem toNat_ofInt (offset : Int) :
    ((UInt64.ofInt offset).toNat : Int) = offset % ((2 ^ 64 : Nat) : Int) := by
  have modulus : 0 < ((2 ^ 64 : Nat) : Int) := by decide
  have lower := Int.emod_nonneg offset modulus.ne'
  have upper := Int.emod_lt_of_pos offset modulus
  have same : (UInt64.ofInt offset).toNat = (offset % ((2 ^ 64 : Nat) : Int)).toNat % 2 ^ 64 := by
    rw [← UInt64.toNat_ofNat']
    rfl
  rw [same, Nat.mod_eq_of_lt, Int.toNat_of_nonneg lower]
  rwa [Int.toNat_lt lower]

theorem ofInt_natCast (value : Nat) : UInt64.ofInt value = UInt64.ofNat value := by
  have reduced : ((UInt64.ofInt value).toNat : Int) = (value % 2 ^ 64 : Nat) := toNat_ofInt value
  apply UInt64.toNat_inj.mp
  rw [UInt64.toNat_ofNat']
  exact Int.ofNat.inj reduced

theorem bmod_of_bounds {offset : Int} (lower : -2 ^ 63 ≤ offset) (upper : offset < 2 ^ 63) :
    Int.bmod offset (2 ^ 64) = offset := by
  apply Int.bmod_eq_of_le
  · norm_num at lower ⊢
    exact lower
  · norm_num at upper ⊢
    exact upper

theorem displace_sub (origin : UInt64) (offset : Int) :
    displace origin offset - origin = UInt64.ofInt offset := by
  rw [displace, UInt64.add_comm, UInt64.add_sub_cancel]

theorem distance_displace {origin : UInt64} {offset : Int} (lower : -2 ^ 63 ≤ offset)
    (upper : offset < 2 ^ 63) : distance origin (displace origin offset) = offset := by
  have wrapped : distance origin (displace origin offset) = Int.bmod offset (2 ^ 64) := by
    unfold distance
    rw [displace_sub, toNat_ofInt]
    exact Int.emod_bmod offset (2 ^ 64)
  exact wrapped.trans (bmod_of_bounds lower upper)

theorem distance_emod (origin target : UInt64) :
    distance origin target % ((2 ^ 64 : Nat) : Int) = (target - origin).toNat := by
  unfold distance
  refine Int.bmod_emod.trans ?_
  exact Int.emod_eq_of_lt (Int.natCast_nonneg _) (Int.ofNat_lt.mpr (target - origin).toNat_lt)

theorem displace_distance (origin target : UInt64) :
    displace origin (distance origin target) = target := by
  have same : UInt64.ofInt (distance origin target) = target - origin :=
    UInt64.toNat_inj.mp
      (Int.ofNat.inj ((toNat_ofInt _).trans (distance_emod origin target)))
  rw [displace, same, UInt64.add_comm, UInt64.sub_add_cancel]

theorem half_le {width : Nat} (small : width ≤ 8) : (256 ^ width / 2 : Int) ≤ 2 ^ 63 := by
  have power : (256 : Int) ^ width ≤ 256 ^ 8 := pow_le_pow_right₀ (by decide) small
  omega

theorem even_power {width : Nat} (positive : 0 < width) : (256 ^ width : Int) % 2 = 0 := by
  obtain ⟨before, rfl⟩ : ∃ before, width = before + 1 := ⟨width - 1, by omega⟩
  rw [pow_succ]
  omega

theorem signed_bounds {width : Nat} (positive : 0 < width) (value : Nat) :
    -(256 ^ width / 2 : Int) ≤ signed width value ∧ signed width value < 256 ^ width / 2 := by
  have modulus : 0 < 256 ^ width := Nat.pow_pos (by decide)
  have even := even_power positive
  have lower := Int.le_bmod (x := value) modulus
  have upper := Int.bmod_lt (x := value) modulus
  push_cast at lower upper
  rw [signed]
  omega

theorem signed_emod {width value : Nat} (bound : value < 256 ^ width) :
    signed width value % (256 ^ width : Int) = value := by
  have reduced : signed width value % ((256 ^ width : Nat) : Int) = value % (256 ^ width : Nat) :=
    Int.bmod_emod
  have whole : (value : Int) % (256 ^ width : Nat) = value :=
    Int.emod_eq_of_lt (by omega) (by exact_mod_cast bound)
  rw [whole] at reduced
  exact_mod_cast reduced

theorem operand_lt (width : Nat) (origin target : UInt64) :
    operand width origin target < 256 ^ width := by
  have modulus : (0 : Int) < 256 ^ width := by positivity
  have nonneg := Int.emod_nonneg (distance origin target) modulus.ne'
  have below := Int.emod_lt_of_pos (distance origin target) modulus
  rw [operand, Int.toNat_lt nonneg]
  exact_mod_cast below

theorem signed_operand {width : Nat} {origin target : UInt64} (positive : 0 < width)
    (reaches : Reaches width origin target) :
    signed width (operand width origin target) = distance origin target := by
  obtain ⟨lower, upper⟩ := reaches
  have even := even_power positive
  have modulus : (0 : Int) < 256 ^ width := by positivity
  have nonneg := Int.emod_nonneg (distance origin target) modulus.ne'
  have reduced := Int.emod_bmod (distance origin target) (256 ^ width)
  push_cast at reduced
  rw [signed, operand, Int.toNat_of_nonneg nonneg, reduced]
  apply Int.bmod_eq_of_le
  · push_cast
    omega
  · push_cast
    omega

theorem distance_displace_signed {width : Nat} (positive : 0 < width) (small : width ≤ 8)
    (origin : UInt64) (value : Nat) :
    distance origin (displace origin (signed width value)) = signed width value := by
  have half := half_le small
  obtain ⟨lower, upper⟩ := signed_bounds positive value
  exact distance_displace (le_trans (neg_le_neg half) lower) (lt_of_lt_of_le upper half)

/-- The origin and the target determine the operand. -/
theorem displace_signed_iff {width value : Nat} {origin target : UInt64} (positive : 0 < width)
    (small : width ≤ 8) (bound : value < 256 ^ width) :
    displace origin (signed width value) = target ↔
      Reaches width origin target ∧ value = operand width origin target := by
  constructor
  · rintro rfl
    have same := distance_displace_signed positive small origin value
    refine ⟨?_, ?_⟩
    · rw [Reaches, same]
      exact signed_bounds positive value
    · rw [operand, same, signed_emod bound, Int.toNat_natCast]
  · rintro ⟨reaches, same⟩
    rw [same, signed_operand positive reaches, displace_distance]

end RelativeAddress
