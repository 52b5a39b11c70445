import PatchFix.Library.X64Code

/-!
Syndicate's `DS4v2Fix`: the three instructions that the hook erases, as the processor runs them, and
the callback that stands for them.
-/

namespace PatchFix.Syndicate

open ByteImage RelativeAddress X64Code

def kDs4V1Pid : UInt16 := 0x05C4
def kDs4V2Pid : UInt16 := 0x09CC

def Ds4TypeClassify (code : Image) (addr : UInt64) : Prop :=
  At code addr [0xB9, 0xC4, 0x05, 0x00, 0x00, 0x66, 0x3B, 0xC1, 0x75]

/-- `g_skip_target`, which `install` computes before it erases the code. -/
def ds4SkipTarget (code : Image) (matchAddr : UInt64) : UInt64 :=
  displace (matchAddr + 10) (signed 1 (code (matchAddr + 9)).toNat)

/-- `CheckDS4PID`: the address it sets `rip` to, when it sets it. -/
def checkDs4Pid (skipTarget rax : UInt64) : Option UInt64 :=
  let pid := (rax &&& 0xFFFF).toUInt16
  if pid = kDs4V1Pid ∨ pid = kDs4V2Pid then none else some skipTarget

/-- Where the game goes on after the callback; the erased code does nothing. -/
def ds4Continues (code : Image) (matchAddr rax : UInt64) : UInt64 :=
  (checkDs4Pid (ds4SkipTarget code matchAddr) rax).getD (matchAddr + 10)

def asFirst (machine : Machine) : Machine :=
  if (machine.gpr .rax).toUInt16 = kDs4V2Pid then
    { machine with gpr := Function.update machine.gpr .rax kDs4V1Pid.toUInt64 }
  else machine

variable {code : Image} {addr : UInt64}

/-- The three instructions compare the PID with the first controller's, and skip on any other. -/
theorem steps_matched (matched : Ds4TypeClassify code addr) {machine : Machine}
    (here : machine.rip = addr) :
    machine.steps code 3 = some
      { machine with
        gpr := Function.update machine.gpr .rcx 0x5C4
        flags := .ofWords (machine.gpr .rax).toUInt16 kDs4V1Pid
        rip := if (machine.gpr .rax).toUInt16 = kDs4V1Pid then addr + 10
          else ds4SkipTarget code addr } := by
  subst here
  obtain ⟨mov, rest⟩ := At.split [0xB9, 0xC4, 0x05, 0x00, 0x00]
    [0x66, 0x3B, 0xC1, 0x75, code (machine.rip + 9)] matched.next
  obtain ⟨cmp, jnz⟩ := At.split [0x66, 0x3B, 0xC1]
    [0x75, code (machine.rip + 9)] rest
  let loaded := machine.execute (machine.rip + 5) (.movImm .rcx 0x5C4)
  let compared := loaded.execute (machine.rip + 5 + 3) (.cmpWord .rax .rcx)
  have first : machine.step code = some loaded := mov.step (by decide) fun _ => rfl
  have second : loaded.step code = some compared := At.step cmp (by decide) fun _ => rfl
  have third : compared.step code =
      some (compared.execute (machine.rip + 5 + 3 + 2) (.jnz (code (machine.rip + 9)))) :=
    At.step jnz (Nat.le_of_ble_eq_true rfl) fun _ => rfl
  have last : machine.rip + 5 + 3 + 2 = machine.rip + 10 := by
    rw [UInt64.add_assoc, UInt64.add_assoc]
    rfl
  rw [last] at third
  simp only [Machine.steps, first, second, third, Option.bind_some]
  have kept : loaded.gpr .rax = machine.gpr .rax := by simp [loaded, Machine.execute]
  have read : loaded.gpr .rcx = 0x5C4 := by
    simp only [loaded, Machine.execute, Function.update_self]
    rfl
  have flags : compared.flags = .ofWords (machine.gpr .rax).toUInt16 kDs4V1Pid := by
    change Flags.ofWords (loaded.gpr .rax).toUInt16 (loaded.gpr .rcx).toUInt16 = _
    rw [kept, read]
    rfl
  have zero : (!compared.flags.zero) = !decide ((machine.gpr .rax).toUInt16 = kDs4V1Pid) := by
    rw [flags]
    rfl
  rw [Machine.execute, Machine.jump, zero, flags]
  simp only [Bool.not_eq_true', decide_eq_false_iff_not, ite_not, ds4SkipTarget]
  rfl

/-- Past the callback the game goes on where the erased code went, the second controller being
taken for the first; the erased code changed no memory, and of the registers only `rcx`. -/
theorem ds4Continues_eq (matched : Ds4TypeClassify code addr) {machine : Machine}
    (here : machine.rip = addr) :
    ∃ after, (asFirst machine).steps code 3 = some after ∧
      after.rip = ds4Continues code addr (machine.gpr .rax) ∧ after.memory = machine.memory ∧
      after.xmm = machine.xmm ∧
      ∀ register, register ≠ .rax → register ≠ .rcx →
        after.gpr register = machine.gpr register := by
  have moved : (asFirst machine).rip = addr := by
    unfold asFirst
    split
    · exact here
    · exact here
  refine ⟨_, steps_matched matched moved, ?_⟩
  have low : (machine.gpr .rax &&& 0xFFFF).toUInt16 = (machine.gpr .rax).toUInt16 := by
    rw [UInt64.toUInt16_and]
    exact UInt16.and_neg_one
  have distinct : kDs4V1Pid ≠ kDs4V2Pid := by decide
  have renamed : kDs4V1Pid.toUInt64.toUInt16 = kDs4V1Pid := rfl
  rw [ds4Continues, checkDs4Pid, low, asFirst]
  by_cases second : (machine.gpr .rax).toUInt16 = kDs4V2Pid
  · simp +contextual [second, renamed, Function.update_of_ne]
  · by_cases first : (machine.gpr .rax).toUInt16 = kDs4V1Pid
    · simp +contextual [first, distinct, Function.update_of_ne]
    · simp +contextual [second, first, Function.update_of_ne]

def ds4Code : Image :=
  overlay (fun _ => 0x90) 0x140001000 [0xB9, 0xC4, 0x05, 0x00, 0x00, 0x66, 0x3B, 0xC1, 0x75, 0x14]

def secondController : Machine where
  gpr := fun register => if register = .rax then 0x09CC else 0
  xmm := fun _ => ⟨0, 0⟩
  memory := fun _ => 0
  rip := 0x140001000
  flags := ⟨false, false, false, false, false, false⟩

theorem ds4Continues_eq_second :
    ∃ after, (asFirst secondController).steps ds4Code 3 = some after ∧
      after.rip = ds4Continues ds4Code 0x140001000 (secondController.gpr .rax) ∧
      after.memory = secondController.memory ∧ after.xmm = secondController.xmm ∧
      ∀ register, register ≠ .rax → register ≠ .rcx →
        after.gpr register = secondController.gpr register :=
  ds4Continues_eq (by unfold Ds4TypeClassify At; decide) rfl

end PatchFix.Syndicate
