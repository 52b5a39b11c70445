import PatchFix.Library.ByteImage
import PatchFix.Library.LittleEndian
import PatchFix.Library.RelativeAddress

/-!
A few x86-64 instructions: decoding them from the bytes of a code image, and what they do to the
registers, the vector registers, the memory and the status flags.
-/

namespace X64Code

open ByteImage LittleEndian RelativeAddress

/-! Single-precision numbers as their bits, in the order of the numbers. -/

def isNan (single : UInt32) : Bool := 0x7F800000 < single &&& 0x7FFFFFFF

def key (single : UInt32) : Int :=
  if single < 0x80000000 then single.toNat else 0x80000000 - single.toNat

def unordered (first second : UInt32) : Bool := isNan first || isNan second

def below (first second : UInt32) : Bool := !unordered first second && key first < key second

def level (first second : UInt32) : Bool := !unordered first second && key first = key second

inductive Gpr where
  | rax | rcx | rdx | rbx | rsp | rbp | rsi | rdi | r8 | r9 | r10 | r11 | r12 | r13 | r14 | r15
  deriving DecidableEq, Repr

def Gpr.all : List Gpr :=
  [rax, rcx, rdx, rbx, rsp, rbp, rsi, rdi, r8, r9, r10, r11, r12, r13, r14, r15]

def Gpr.ofNumber (number : Nat) : Gpr := Gpr.all.getD number rax

/-- Vector registers are given by their numbers. -/
inductive Instruction where
  | movImm (dst : Gpr) (value : UInt32)
  | mov (dst src : Gpr)
  | cmpWord (first second : Gpr)
  | comiss (first second : Nat)
  | jnz (rel : UInt8)
  | jae (rel : UInt8)
  | storeByte (base : Gpr) (disp : List UInt8) (value : UInt8)
  | storeDword (disp : List UInt8) (src : Gpr)
  | storeSingle (base : Gpr) (disp : UInt8) (src : Nat)
  | loadSingle (dst : Nat) (disp : List UInt8)
  deriving DecidableEq, Repr

/-! The fields of a ModRM byte. -/

def modField (modrm : UInt8) : Nat := modrm.toNat / 64
def regField (modrm : UInt8) : Nat := modrm.toNat / 8 % 8
def rmField (modrm : UInt8) : Nat := modrm.toNat % 8

def onRegisters (modrm : UInt8) (length : Nat) (instruction : Nat → Nat → Instruction) :
    Option (Instruction × Nat) :=
  if modField modrm = 3 then some (instruction (regField modrm) (rmField modrm), length) else none

def onRipRelative (modrm : UInt8) (rest : List UInt8) (length : Nat)
    (instruction : Nat → List UInt8 → Instruction) : Option (Instruction × Nat) :=
  if modField modrm = 0 ∧ rmField modrm = 5 then
    some (instruction (regField modrm) (rest.take 4), length)
  else none

/-- `mov byte ptr [base + disp32], imm8`; `extended` is the base's bit of a REX prefix. -/
def moveByte (extended : Nat) (modrm : UInt8) (rest : List UInt8) (length : Nat) :
    Option (Instruction × Nat) :=
  if modField modrm = 2 ∧ regField modrm = 0 ∧ rmField modrm ≠ 4 then
    some (.storeByte (.ofNumber (extended + rmField modrm)) (rest.take 4) ((rest.drop 4).headD 0),
      length)
  else none

def decodeBytes : List UInt8 → Option (Instruction × Nat)
  | 0x0F :: 0x2F :: modrm :: _ => onRegisters modrm 3 .comiss
  | 0x41 :: 0xC6 :: modrm :: rest => moveByte 8 modrm rest 8
  | 0x66 :: 0x3B :: modrm :: _ =>
      onRegisters modrm 3 fun first second => .cmpWord (.ofNumber first) (.ofNumber second)
  | 0x73 :: rel :: _ => some (.jae rel, 2)
  | 0x75 :: rel :: _ => some (.jnz rel, 2)
  | 0x89 :: modrm :: rest =>
      onRipRelative modrm rest 6 fun src disp => .storeDword disp (.ofNumber src)
  | 0x8B :: modrm :: _ => onRegisters modrm 2 fun dst src => .mov (.ofNumber dst) (.ofNumber src)
  | 0xC6 :: modrm :: rest => moveByte 0 modrm rest 7
  | 0xF3 :: 0x0F :: 0x10 :: modrm :: rest => onRipRelative modrm rest 8 .loadSingle
  | 0xF3 :: 0x0F :: 0x11 :: modrm :: disp :: _ =>
      if modField modrm = 1 ∧ rmField modrm ≠ 4 then
        some (.storeSingle (.ofNumber (rmField modrm)) disp (regField modrm), 5)
      else none
  | opcode :: rest =>
      if opcode.toNat / 8 = 0x17 then
        some (.movImm (.ofNumber (rmField opcode)) (UInt32.ofNat (decode (rest.take 4))), 5)
      else none
  | [] => none

/-- A vector register: its single in bits 31:0, and bits 127:32. -/
@[ext] structure Vector128 where
  low : UInt32
  upper : BitVec 96
  deriving DecidableEq, Repr

@[ext] structure Flags where
  carry : Bool
  parity : Bool
  adjust : Bool
  zero : Bool
  sign : Bool
  overflow : Bool
  deriving DecidableEq, Repr

def evenParity (byte : UInt8) : Bool :=
  (List.range 8).countP (fun place => byte.toNat.testBit place) % 2 = 0

/-- The flags after `cmp`, those of the difference. -/
def Flags.ofWords (first second : UInt16) : Flags where
  carry := first < second
  parity := evenParity (first - second).toUInt8
  adjust := first.toNat % 16 < second.toNat % 16
  zero := first = second
  sign := 0x8000 ≤ first - second
  overflow := (first - second).toInt16.toInt ≠ first.toInt16.toInt - second.toInt16.toInt

def Flags.ofSingles (first second : UInt32) : Flags where
  carry := unordered first second || below first second
  parity := unordered first second
  adjust := false
  zero := unordered first second || level first second
  sign := false
  overflow := false

structure Machine where
  gpr : Gpr → UInt64
  xmm : Nat → Vector128
  memory : Image
  rip : UInt64
  flags : Flags

namespace Machine

/-- A program comes to an address; what the instructions there do not read is cleared. -/
def arriving (gpr : Gpr → UInt64) (memory : Image) (rip : UInt64) : Machine where
  gpr := gpr
  xmm := fun _ => ⟨0, 0⟩
  memory := memory
  rip := rip
  flags := ⟨false, false, false, false, false, false⟩

def ripRelative (next : UInt64) (disp : List UInt8) : UInt64 :=
  displace next (signed 4 (decode disp))

def jump (machine : Machine) (next : UInt64) (rel : UInt8) (taken : Bool) : Machine :=
  { machine with rip := if taken then displace next (signed 1 rel.toNat) else next }

def execute (machine : Machine) (next : UInt64) : Instruction → Machine
  | .movImm dst value =>
      { machine with gpr := Function.update machine.gpr dst value.toUInt64, rip := next }
  | .mov dst src =>
      { machine with
        gpr := Function.update machine.gpr dst (machine.gpr src).toUInt32.toUInt64
        rip := next }
  | .cmpWord first second =>
      { machine with
        flags := .ofWords (machine.gpr first).toUInt16 (machine.gpr second).toUInt16
        rip := next }
  | .comiss first second =>
      { machine with
        flags := .ofSingles (machine.xmm first).low (machine.xmm second).low
        rip := next }
  | .jnz rel => machine.jump next rel !machine.flags.zero
  | .jae rel => machine.jump next rel !machine.flags.carry
  | .storeByte base disp value =>
      { machine with
        memory := overlay machine.memory
          (displace (machine.gpr base) (signed 4 (decode disp))) [value]
        rip := next }
  | .storeDword disp src =>
      { machine with
        memory := overlay machine.memory (ripRelative next disp)
          (encode 4 (machine.gpr src).toUInt32.toNat)
        rip := next }
  | .storeSingle base disp src =>
      { machine with
        memory := overlay machine.memory
          (displace (machine.gpr base) (signed 1 disp.toNat)) (encode 4 (machine.xmm src).low.toNat)
        rip := next }
  | .loadSingle dst disp =>
      { machine with
        xmm := Function.update machine.xmm dst
          ⟨UInt32.ofNat (decode (read machine.memory (ripRelative next disp) 4)), 0⟩
        rip := next }

def longest : Nat := 15

def step (code : Image) (machine : Machine) : Option Machine :=
  (decodeBytes (read code machine.rip longest)).map fun decoded =>
    machine.execute (machine.rip + UInt64.ofNat decoded.2) decoded.1

def steps (code : Image) : Nat → Machine → Option Machine
  | 0, machine => some machine
  | count + 1, machine => (machine.step code).bind (steps code count)

def runTo (code : Image) (stop : UInt64) : Nat → Machine → Option Machine
  | 0, _ => none
  | fuel + 1, machine =>
      if machine.rip = stop then some machine else (machine.step code).bind (runTo code stop fuel)

end Machine

def At (code : Image) (address : UInt64) (bytes : List UInt8) : Prop :=
  read code address bytes.length = bytes

variable {code : Image} {address : UInt64}

theorem At.split (first second : List UInt8) (placed : At code address (first ++ second)) :
    At code address first ∧ At code (address + UInt64.ofNat first.length) second := by
  unfold At at placed ⊢
  rw [List.length_append] at placed
  constructor
  · have taken := congrArg (List.take first.length) placed
    rw [read_take, List.take_left' rfl, Nat.min_eq_left (Nat.le_add_right _ _)] at taken
    exact taken
  · have dropped := congrArg (List.drop first.length) placed
    rwa [read_drop, List.drop_left' rfl, Nat.add_sub_cancel_left] at dropped

theorem At.next {bytes : List UInt8} (placed : At code address bytes) :
    At code address (bytes ++ [code (address + UInt64.ofNat bytes.length)]) := by
  unfold At ByteImage.read at placed ⊢
  rw [List.length_append, List.length_singleton, List.range_succ, List.map_append, placed,
    List.map_singleton]

theorem At.extend {bytes : List UInt8} (placed : At code address bytes) (count : Nat) :
    read code address (bytes.length + count) =
      bytes ++ read code (address + UInt64.ofNat bytes.length) count := by
  calc read code address (bytes.length + count)
      _ = (read code address (bytes.length + count)).take bytes.length ++
            (read code address (bytes.length + count)).drop bytes.length :=
          (List.take_append_drop _ _).symm
      _ = _ := by
          rw [read_take, Nat.min_eq_left (Nat.le_add_right _ _), placed, read_drop,
            Nat.add_sub_cancel_left]

theorem At.step {machine : Machine} {bytes : List UInt8} {instruction : Instruction} {length : Nat}
    (placed : At code machine.rip bytes) (fits : bytes.length ≤ Machine.longest)
    (decodes : ∀ rest, decodeBytes (bytes ++ rest) = some (instruction, length)) :
    machine.step code =
      some (machine.execute (machine.rip + UInt64.ofNat length) instruction) := by
  have whole := placed.extend (Machine.longest - bytes.length)
  rw [Nat.add_sub_cancel' fits] at whole
  rw [Machine.step, whole, decodes, Option.map_some]

/-- An instruction that ends with a 32-bit distance, which is read from the code. -/
theorem At.stepRip {machine : Machine} {bytes : List UInt8} {length : Nat}
    (instruction : List UInt8 → Instruction) (placed : At code machine.rip bytes)
    (fits : bytes.length + 4 ≤ Machine.longest)
    (decodes : ∀ disp rest, disp.length = 4 →
      decodeBytes (bytes ++ disp ++ rest) = some (instruction disp, length)) :
    machine.step code = some (machine.execute (machine.rip + UInt64.ofNat length)
      (instruction (read code (machine.rip + UInt64.ofNat bytes.length) 4))) := by
  have whole : At code machine.rip
      (bytes ++ read code (machine.rip + UInt64.ofNat bytes.length) 4) := by
    rw [At, List.length_append, read_length]
    exact placed.extend 4
  apply whole.step
  · rwa [List.length_append, read_length]
  · exact fun rest => decodes _ rest (read_length _ _ _)

variable {machine next : Machine} {stop : UInt64} {fuel : Nat}

theorem Machine.runTo_stop (arrived : machine.rip = stop) :
    machine.runTo code stop (fuel + 1) = some machine := if_pos arrived

theorem Machine.runTo_step (before : machine.rip ≠ stop) (stepped : machine.step code = some next) :
    machine.runTo code stop (fuel + 1) = next.runTo code stop fuel := by
  rw [runTo, if_neg before, stepped, Option.bind_some]

end X64Code
