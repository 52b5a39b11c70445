import Mathlib.Algebra.Group.Nat.Defs
import Mathlib.Data.List.Basic

/-! Little-endian integers of a given width at a position of a byte sequence. -/

namespace LittleEndian

def encode : Nat → Nat → List UInt8
  | 0, _ => []
  | width + 1, value => UInt8.ofNat value :: encode width (value / 256)

def decode : List UInt8 → Nat
  | [] => 0
  | byte :: bytes => byte.toNat + 256 * decode bytes

def readAt (bytes : List UInt8) (position width : Nat) : Nat :=
  decode ((bytes.drop position).take width)

@[simp] theorem encode_length (width value : Nat) : (encode width value).length = width := by
  induction width generalizing value with
  | zero => rfl
  | succ width ih => simp [encode, ih]

theorem decode_encode {width value : Nat} (bound : value < 256 ^ width) :
    decode (encode width value) = value := by
  induction width generalizing value with
  | zero =>
      simp only [Nat.pow_zero] at bound
      simp only [encode, decode]
      omega
  | succ width ih =>
      have quotient : value / 256 < 256 ^ width := by
        rw [Nat.pow_succ] at bound
        omega
      have low : (UInt8.ofNat value).toNat = value % 256 := UInt8.toNat_ofNat'
      rw [encode, decode, ih quotient, low]
      omega

theorem encode_decode (bytes : List UInt8) : encode bytes.length (decode bytes) = bytes := by
  induction bytes with
  | nil => rfl
  | cons byte bytes ih =>
      have low : byte.toNat < 256 := byte.toNat_lt
      have rest : (byte.toNat + 256 * decode bytes) / 256 = decode bytes := by omega
      have first : UInt8.ofNat (byte.toNat + 256 * decode bytes) = byte := by
        apply UInt8.toNat_inj.mp
        rw [UInt8.toNat_ofNat']
        omega
      rw [List.length_cons, decode, encode, rest, ih, first]

theorem decode_eq_iff {bytes : List UInt8} {width value : Nat} (length : bytes.length = width)
    (bound : value < 256 ^ width) : decode bytes = value ↔ bytes = encode width value := by
  constructor
  · rintro rfl
    rw [← length, encode_decode]
  · rintro rfl
    exact decode_encode bound

theorem readAt_append (before after : List UInt8) {position width value : Nat}
    (placed : position = before.length) (bound : value < 256 ^ width) :
    readAt (before ++ encode width value ++ after) position width = value := by
  have field : ((before ++ encode width value ++ after).drop position).take width =
      encode width value := by
    rw [placed, List.append_assoc, List.drop_left, List.take_left' (encode_length width value)]
  rw [readAt, field, decode_encode bound]

theorem decode_lt (bytes : List UInt8) : decode bytes < 256 ^ bytes.length := by
  induction bytes with
  | nil => decide
  | cons byte bytes ih =>
      have low : byte.toNat < 256 := byte.toNat_lt
      rw [decode, List.length_cons, Nat.pow_succ]
      omega

theorem readAt_lt (bytes : List UInt8) (position width : Nat) :
    readAt bytes position width < 256 ^ width :=
  Nat.lt_of_lt_of_le (decode_lt _)
    (Nat.pow_le_pow_right (by decide) (List.length_take_le width _))

/-- The 16-bit units that a sequence of bytes holds; an odd byte at the end is dropped. -/
def units : List UInt8 → List UInt16
  | low :: high :: rest => UInt16.ofNat (decode [low, high]) :: units rest
  | _ => []

def encodeUnits (text : List UInt16) : List UInt8 := text.flatMap fun unit => encode 2 unit.toNat

@[simp] theorem encodeUnits_length (text : List UInt16) :
    (encodeUnits text).length = 2 * text.length := by
  induction text with
  | nil => rfl
  | cons unit text ih =>
      simp only [encodeUnits, List.flatMap_cons, List.length_append, encode_length,
        List.length_cons] at ih ⊢
      omega

theorem units_encodeUnits (text : List UInt16) : units (encodeUnits text) = text := by
  induction text with
  | nil => rfl
  | cons unit text ih =>
      have whole : decode (encode 2 unit.toNat) = unit.toNat := decode_encode unit.toNat_lt
      have first : units (encode 2 unit.toNat ++ encodeUnits text) =
          UInt16.ofNat (decode (encode 2 unit.toNat)) :: units (encodeUnits text) := rfl
      rw [encodeUnits, List.flatMap_cons]
      refine first.trans ?_
      rw [whole, ih, UInt16.ofNat_toNat]

end LittleEndian
