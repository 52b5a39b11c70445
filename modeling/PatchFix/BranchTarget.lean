import PatchFix.Library.ByteImage
import PatchFix.Library.LittleEndian
import PatchFix.Library.RelativeAddress

/-!
`mem::x64`: the target of a relative operand, and the target of the branch at an address. The four
branch forms are also assembled here, for the decoder to be compared with.
-/

namespace PatchFix.X64

open ByteImage LittleEndian RelativeAddress

def opCallRel32 : UInt8 := 0xE8
def opJmpRel32 : UInt8 := 0xE9
def opIndirect : UInt8 := 0xFF
def modrmCallRip : UInt8 := 0x15
def modrmJmpRip : UInt8 := 0x25

/-- The values of `sizeof_operand`; any other is `std::unreachable`. -/
inductive OperandSize where
  | byte | word | dword
  deriving DecidableEq, Repr

def OperandSize.bytes : OperandSize → Nat
  | .byte => 1
  | .word => 2
  | .dword => 4

def readRel (image : Image) (addr : UInt64) (size : OperandSize) : UInt64 :=
  displace (addr + UInt64.ofNat size.bytes)
    (signed size.bytes (decode (read image addr size.bytes)))

def branchTarget (image : Image) (addr : UInt64) : Option UInt64 :=
  let opcode := image addr
  if opcode = opCallRel32 ∨ opcode = opJmpRel32 then some (readRel image (addr + 1) .dword)
  else if opcode = opIndirect then
    let modrm := image (addr + 1)
    if modrm = modrmCallRip ∨ modrm = modrmJmpRip then
      let ptrAddr := readRel image (addr + 2) .dword
      some (UInt64.ofNat (decode (read image ptrAddr 8)))
    else none
  else none

/-! The branches as an assembler writes them. -/

def assembleRelative (opcode : UInt8) (addr target : UInt64) : List UInt8 :=
  opcode :: encode 4 (operand 4 (addr + 5) target)

def assembleIndirect (modrm : UInt8) (addr slot : UInt64) : List UInt8 :=
  opIndirect :: modrm :: encode 4 (operand 4 (addr + 6) slot)

def RelativeBranch (image : Image) (addr target : UInt64) : Prop :=
  ∃ opcode, (opcode = opCallRel32 ∨ opcode = opJmpRel32) ∧ Reaches 4 (addr + 5) target ∧
    read image addr 5 = assembleRelative opcode addr target

def IndirectBranch (image : Image) (addr target : UInt64) : Prop :=
  ∃ modrm slot, (modrm = modrmCallRip ∨ modrm = modrmJmpRip) ∧ Reaches 4 (addr + 6) slot ∧
    read image addr 6 = assembleIndirect modrm addr slot ∧
    read image slot 8 = encode 8 target.toNat

variable {image : Image} {addr target : UInt64}

theorem OperandSize.bytes_pos (size : OperandSize) : 0 < size.bytes := by
  cases size <;> decide

theorem OperandSize.bytes_le (size : OperandSize) : size.bytes ≤ 8 := by
  cases size <;> decide

theorem readRel_eq_iff (size : OperandSize) :
    readRel image addr size = target ↔
      Reaches size.bytes (addr + UInt64.ofNat size.bytes) target ∧
        read image addr size.bytes =
          encode size.bytes (operand size.bytes (addr + UInt64.ofNat size.bytes) target) := by
  have bound : decode (read image addr size.bytes) < 256 ^ size.bytes := by
    simpa using decode_lt (read image addr size.bytes)
  rw [readRel, displace_signed_iff size.bytes_pos size.bytes_le bound,
    decode_eq_iff (read_length image addr size.bytes) (operand_lt _ _ target)]

theorem relativeBranch_iff :
    RelativeBranch image addr target ↔
      (image addr = opCallRel32 ∨ image addr = opJmpRel32) ∧
        readRel image (addr + 1) .dword = target := by
  have next : addr + 1 + UInt64.ofNat OperandSize.dword.bytes = addr + 5 := UInt64.add_assoc ..
  rw [readRel_eq_iff, next]
  unfold RelativeBranch assembleRelative
  simp only [read_succ image addr 4, List.cons.injEq]
  constructor
  · rintro ⟨opcode, named, reaches, rfl, bytes⟩
    exact ⟨named, reaches, bytes⟩
  · rintro ⟨named, reaches, bytes⟩
    exact ⟨image addr, named, reaches, rfl, bytes⟩

theorem slot_eq_iff {slot : UInt64} :
    UInt64.ofNat (decode (read image slot 8)) = target ↔
      read image slot 8 = encode 8 target.toNat := by
  have bound : decode (read image slot 8) < 2 ^ 64 := by
    simpa using decode_lt (read image slot 8)
  rw [← decode_eq_iff (read_length image slot 8) (by simpa using target.toNat_lt),
    ← UInt64.toNat_inj, UInt64.toNat_ofNat', Nat.mod_eq_of_lt bound]

theorem indirectBranch_iff :
    IndirectBranch image addr target ↔
      image addr = opIndirect ∧
        (image (addr + 1) = modrmCallRip ∨ image (addr + 1) = modrmJmpRip) ∧
        UInt64.ofNat (decode (read image (readRel image (addr + 2) .dword) 8)) = target := by
  have second : addr + 1 + 1 = addr + 2 := UInt64.add_assoc ..
  have next : addr + 2 + UInt64.ofNat OperandSize.dword.bytes = addr + 6 := UInt64.add_assoc ..
  have placed (slot : UInt64) : readRel image (addr + 2) .dword = slot ↔
      Reaches 4 (addr + 6) slot ∧
        read image (addr + 2) 4 = encode 4 (operand 4 (addr + 6) slot) := by
    rw [readRel_eq_iff, next]
    rfl
  unfold IndirectBranch assembleIndirect
  simp only [read_succ image addr 5, read_succ image (addr + 1) 4, second, List.cons.injEq]
  constructor
  · rintro ⟨modrm, slot, named, reaches, ⟨opcode, rfl, bytes⟩, held⟩
    obtain rfl := (placed slot).mpr ⟨reaches, bytes⟩
    exact ⟨opcode, named, slot_eq_iff.mpr held⟩
  · rintro ⟨opcode, named, held⟩
    obtain ⟨reaches, bytes⟩ := (placed _).mp rfl
    exact ⟨image (addr + 1), _, named, reaches, ⟨opcode, rfl, bytes⟩, slot_eq_iff.mp held⟩

theorem branchTarget_eq_some :
    branchTarget image addr = some target ↔
      RelativeBranch image addr target ∨ IndirectBranch image addr target := by
  rw [relativeBranch_iff, indirectBranch_iff, branchTarget]
  by_cases relative : image addr = opCallRel32 ∨ image addr = opJmpRel32
  · have direct : image addr ≠ opIndirect := by
      rcases relative with opcode | opcode
      · rw [opcode]
        decide
      · rw [opcode]
        decide
    simp [relative, direct]
  · simp only [relative, if_false, false_and, false_or]
    by_cases indirect : image addr = opIndirect
    · by_cases through : image (addr + 1) = modrmCallRip ∨ image (addr + 1) = modrmJmpRip
      · simp [indirect, through]
      · simp [indirect, through]
    · simp [indirect]

end PatchFix.X64
