import Mathlib.Data.List.Sort
import Mathlib.Data.Prod.Lex
import PatchFix.Library.Binary32

/-!
`rebuild` of the display mode list: the modes an output reports, filtered, sorted and copied into
the engine's vector. The enumeration and the engine's allocator are inputs.
-/

namespace PatchFix.Rogue

structure ModeDesc where
  width : UInt32
  height : UInt32
  refreshNumerator : UInt32
  refreshDenominator : UInt32
  format : UInt32
  scanlineOrdering : UInt32
  scaling : UInt32
  deriving DecidableEq, Repr

/-- `std::lround` into a 32-bit `long`; a value outside it becomes the smallest one. -/
def lround : Binary32 → Int
  | .finite value _ =>
      let nearest := Rounding.halfAway value
      if -2147483648 ≤ nearest ∧ nearest ≤ 2147483647 then nearest else -2147483648
  | .infinite _ => -2147483648
  | .nan => -2147483648

def refreshHz (mode : ModeDesc) : UInt32 :=
  if mode.refreshDenominator = 0 then 0
  else
    let num := Binary32.ofRat mode.refreshNumerator.toNat
    let den := Binary32.ofRat mode.refreshDenominator.toNat
    UInt32.ofInt (lround (num.div den))

def modeLess (first second : ModeDesc) : Bool :=
  if first.width ≠ second.width then first.width < second.width
  else if first.height ≠ second.height then first.height < second.height
  else refreshHz first < refreshHz second

/-- What `std::ranges::sort` guarantees, which leaves the order of equivalent modes open. -/
structure ModeSort where
  sort : List ModeDesc → List ModeDesc
  perm : ∀ modes, (sort modes).Perm modes
  sorted : ∀ modes, (sort modes).Pairwise fun first second => modeLess second first = false

def modeKey (mode : ModeDesc) : ℕ ×ₗ ℕ ×ₗ ℕ :=
  toLex (mode.width.toNat, toLex (mode.height.toNat, (refreshHz mode).toNat))

theorem modeLess_iff (first second : ModeDesc) :
    modeLess first second = true ↔ modeKey first < modeKey second := by
  unfold modeLess modeKey
  rw [Prod.Lex.toLex_lt_toLex, Prod.Lex.toLex_lt_toLex]
  simp only [UInt32.toNat_inj]
  split
  · next differs => simp [differs, UInt32.lt_iff_toNat_lt]
  · next sameWidth =>
      split
      · next differs => simp_all [UInt32.lt_iff_toNat_lt]
      · next sameHeight => simp_all [UInt32.lt_iff_toNat_lt]

theorem modeLess_eq_false (first second : ModeDesc) :
    modeLess second first = false ↔ modeKey first ≤ modeKey second := by
  rw [Bool.eq_false_iff, Ne, modeLess_iff, not_lt]

def modeLe (first second : ModeDesc) : Bool := !modeLess second first

theorem modeLe_iff (first second : ModeDesc) :
    modeLe first second = true ↔ modeKey first ≤ modeKey second := by
  rw [modeLe, Bool.not_eq_true', modeLess_eq_false]

def ModeSort.merge : ModeSort where
  sort := fun modes => modes.mergeSort modeLe
  perm := fun modes => List.mergeSort_perm modes modeLe
  sorted := by
    intro modes
    have ordered : (modes.mergeSort modeLe).Pairwise fun first second => modeLe first second := by
      apply List.pairwise_mergeSort
      · intro first second third below above
        rw [modeLe_iff] at below above ⊢
        exact below.trans above
      · intro first second
        rw [Bool.or_eq_true, modeLe_iff, modeLe_iff]
        exact le_total _ _
    exact ordered.imp fun below => (modeLess_eq_false _ _).mpr ((modeLe_iff _ _).mp below)

def kMinWidth : UInt32 := 800
def kMinHeight : UInt32 := 600
def kCapacityMask : UInt16 := 0x3FFF

def capacityOf (cap : UInt16) : Nat := (cap &&& kCapacityMask).toNat

/-- The vector in the renderer. `written` is what the latest rebuild copied into the buffer. -/
structure ModeList where
  cap : UInt16
  count : UInt16
  buffer : Bool
  written : List ModeDesc

namespace ModeList

def initial (cap : UInt16) (buffer : Bool) : ModeList where
  cap := cap
  count := 0
  buffer := buffer
  written := []

def capacity (list : ModeList) : Nat := capacityOf list.cap

def clear (list : ModeList) : ModeList := { list with count := 0, written := [] }

/-- The engine's reserve, which has room for the new capacity field `grown` or fails. -/
def reserve (grown : Option UInt16) (requested : UInt32) (list : ModeList) : ModeList :=
  match grown with
  | some cap => if requested.toNat ≤ capacityOf cap then { list with cap, buffer := true } else list
  | none => list

end ModeList

structure Enumeration where
  modes : List ModeDesc
  fits : modes.length < 2 ^ 32

/-- `available` is the first call of `GetDisplayModeList` and `enumeration` the second; `none` is
a failure. -/
structure RebuildInputs where
  output : Bool
  available : Option UInt32
  enumeration : Option Enumeration
  grown : Option UInt16

def largeEnough (mode : ModeDesc) : Bool :=
  !(mode.width < kMinWidth || mode.height < kMinHeight)

def RebuildInputs.kept (inputs : RebuildInputs) : List ModeDesc :=
  if !inputs.output then []
  else
    match inputs.available with
    | none => []
    | some available =>
        if available = 0 then []
        else
          match inputs.enumeration with
          | none => []
          | some enumeration => enumeration.modes.filter largeEnough

structure Rebuilt where
  list : ModeList
  copied : Nat

def rebuild (sorter : ModeSort) (inputs : RebuildInputs) (list : ModeList) : Rebuilt :=
  let list := list.clear
  let kept := inputs.kept
  if kept = [] then ⟨list, 0⟩
  else
    let modes := sorter.sort kept
    let list :=
      if modes.length > list.capacity then list.reserve inputs.grown modes.length.toUInt32
      else list
    if !list.buffer then ⟨list, 0⟩
    else ⟨{ list with count := modes.length.toUInt16, written := modes }, modes.length⟩

theorem capacityOf_le (cap : UInt16) : capacityOf cap ≤ 0x3FFF := by
  unfold capacityOf
  rw [UInt16.toNat_and]
  exact Nat.and_le_right

theorem kept_length_lt (inputs : RebuildInputs) : inputs.kept.length < 2 ^ 32 := by
  unfold RebuildInputs.kept
  split
  · decide
  · split
    · decide
    · split
      · decide
      · split
        · decide
        · next enumeration found =>
            exact (List.length_filter_le _ _).trans_lt enumeration.fits

end PatchFix.Rogue
