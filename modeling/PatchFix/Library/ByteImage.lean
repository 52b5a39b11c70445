import Mathlib.Algebra.Group.Nat.Defs
import Mathlib.Data.List.Basic

/-!
Byte images of a 64-bit address space: reading and overwriting a range of addresses, which may run
over the top, and what a list of overwrites leaves at an address.
-/

namespace ByteImage

abbrev Image := UInt64 → UInt8

def offset (start address : UInt64) : Nat := (address - start).toNat

def read (image : Image) (start : UInt64) (count : Nat) : List UInt8 :=
  (List.range count).map fun index => image (start + UInt64.ofNat index)

def overlay (image : Image) (start : UInt64) (bytes : List UInt8) : Image := fun address =>
  bytes[offset start address]?.getD (image address)

@[simp] theorem read_length (image : Image) (start : UInt64) (count : Nat) :
    (read image start count).length = count := by
  simp [read]

theorem read_take (image : Image) (start : UInt64) (count limit : Nat) :
    (read image start count).take limit = read image start (min limit count) := by
  rw [read, ← List.map_take, List.take_range, read]

theorem read_succ (image : Image) (start : UInt64) (count : Nat) :
    read image start (count + 1) = image start :: read image (start + 1) count := by
  have shift (index : Nat) : start + UInt64.ofNat (index + 1) = start + 1 + UInt64.ofNat index := by
    rw [UInt64.ofNat_add, UInt64.add_comm (UInt64.ofNat index), UInt64.add_assoc]
    rfl
  simp only [read, List.range_succ_eq_map, List.map_cons, List.map_map, Function.comp_def,
    Nat.succ_eq_add_one, shift]
  simp

theorem read_drop (image : Image) (start : UInt64) (count skipped : Nat) :
    (read image start count).drop skipped =
      read image (start + UInt64.ofNat skipped) (count - skipped) := by
  induction skipped generalizing start count with
  | zero => simp
  | succ skipped ih =>
      cases count with
      | zero =>
          rw [Nat.zero_sub]
          rfl
      | succ count =>
          have next : start + 1 + UInt64.ofNat skipped = start + UInt64.ofNat (skipped + 1) := by
            rw [UInt64.ofNat_add, UInt64.add_assoc, UInt64.add_comm (UInt64.ofNat skipped)]
            rfl
          rw [read_succ, List.drop_succ_cons, ih, next, Nat.add_sub_add_right]

theorem read_eq_iff {left right : Image} {start : UInt64} {count : Nat} :
    read left start count = read right start count ↔
      ∀ index < count, left (start + UInt64.ofNat index) = right (start + UInt64.ofNat index) := by
  simp [read]

theorem offset_add {start : UInt64} {index : Nat} (fits : index < 2 ^ 64) :
    offset start (start + UInt64.ofNat index) = index := by
  have cancelled : start + UInt64.ofNat index - start = UInt64.ofNat index := by grind
  rw [offset, cancelled, UInt64.toNat_ofNat', Nat.mod_eq_of_lt fits]

theorem start_add_offset (start address : UInt64) :
    start + UInt64.ofNat (offset start address) = address := by
  rw [offset, UInt64.ofNat_toNat]
  grind

theorem overlay_outside {image : Image} {start address : UInt64} {bytes : List UInt8}
    (outside : bytes.length ≤ offset start address) :
    overlay image start bytes address = image address := by
  rw [overlay, List.getElem?_eq_none outside, Option.getD_none]

theorem read_overlay (image : Image) (start : UInt64) {bytes : List UInt8}
    (fits : bytes.length ≤ 2 ^ 64) :
    read (overlay image start bytes) start bytes.length = bytes := by
  apply List.ext_getElem
  · simp
  · intro index _ bound
    simp [read, overlay, offset_add (Nat.lt_of_lt_of_le bound fits), bound]

def Apart (first : UInt64) (firstCount : Nat) (second : UInt64) (secondCount : Nat) : Prop :=
  ∀ left < firstCount, ∀ right < secondCount,
    first + UInt64.ofNat left ≠ second + UInt64.ofNat right

theorem Apart.symm {first second : UInt64} {firstCount secondCount : Nat}
    (apart : Apart first firstCount second secondCount) :
    Apart second secondCount first firstCount :=
  fun left leftBound right rightBound => (apart right rightBound left leftBound).symm

theorem read_overlay_apart {image : Image} {start other : UInt64} {bytes : List UInt8}
    {count : Nat} (apart : Apart start bytes.length other count) :
    read (overlay image start bytes) other count = read image other count := by
  rw [read_eq_iff]
  intro index bound
  apply overlay_outside
  by_contra inside
  exact apart _ (Nat.lt_of_not_le inside) index bound (start_add_offset start _)

theorem overlay_read (image : Image) (start : UInt64) (count : Nat) :
    overlay image start (read image start count) = image := by
  funext address
  by_cases inside : offset start address < count
  · simp [overlay, read, inside, start_add_offset]
  · exact overlay_outside (by simpa using inside)

theorem overlay_eq_self_iff {image : Image} {start : UInt64} {bytes : List UInt8}
    (fits : bytes.length ≤ 2 ^ 64) :
    overlay image start bytes = image ↔ read image start bytes.length = bytes := by
  constructor
  · intro same
    rw [← congrArg (fun current => read current start bytes.length) same, read_overlay _ _ fits]
  · intro same
    calc overlay image start bytes
        _ = overlay image start (read image start bytes.length) := by rw [same]
        _ = image := overlay_read image start bytes.length

theorem overlay_append (image : Image) (start : UInt64) {first second : List UInt8}
    (fits : first.length + second.length ≤ 2 ^ 64) (nonempty : second ≠ []) :
    overlay (overlay image start first) (start + UInt64.ofNat first.length) second =
      overlay image start (first ++ second) := by
  have positive : 0 < second.length := List.length_pos_of_ne_nil nonempty
  have width : (UInt64.ofNat first.length).toNat = first.length := by
    rw [UInt64.toNat_ofNat', Nat.mod_eq_of_lt (by omega)]
  funext address
  have shift : (offset (start + UInt64.ofNat first.length) address + first.length) % 2 ^ 64 =
      offset start address := by
    have split : address - start = address - (start + UInt64.ofNat first.length) +
        UInt64.ofNat first.length := by grind
    rw [offset, offset, split, UInt64.toNat_add, width]
  have bound : offset (start + UInt64.ofNat first.length) address < 2 ^ 64 :=
    UInt64.toNat_lt _
  unfold overlay
  by_cases inside : offset start address < first.length
  · have past : second.length ≤ offset (start + UInt64.ofNat first.length) address := by omega
    simp [List.getElem?_append_left inside, List.getElem?_eq_none past]
  · by_cases wraps : offset (start + UInt64.ofNat first.length) address + first.length < 2 ^ 64
    · have same : offset start address - first.length =
          offset (start + UInt64.ofNat first.length) address := by omega
      simp [List.getElem?_append_right (Nat.le_of_not_lt inside), same,
        List.getElem?_eq_none (Nat.le_of_not_lt inside)]
    · omega

def lastByte : List (UInt64 × List UInt8) → UInt64 → Option UInt8
  | [], _ => none
  | (start, bytes) :: rest, address => (lastByte rest address).or bytes[offset start address]?

theorem overlays_apply (image : Image) (writes : List (UInt64 × List UInt8)) (address : UInt64) :
    writes.foldl (fun current write => overlay current write.1 write.2) image address =
      (lastByte writes address).getD (image address) := by
  induction writes generalizing image with
  | nil => rfl
  | cons write writes ih =>
      obtain ⟨start, bytes⟩ := write
      rw [List.foldl_cons, ih, lastByte]
      cases lastByte writes address with
      | none => simp [overlay]
      | some byte => rfl

end ByteImage
