import PatchFix.MemWrite
import PatchFix.PeTranslation

/-!
`vmp::restore_debug_breakin`: the first bytes of `DbgUiRemoteBreakin` in memory are compared with
those in the file of its module and written back where they differ.
-/

namespace PatchFix

open SpanAccess PeFile

inductive BreakinState where
  | clean | restored | patched | unavailable
  deriving DecidableEq, Repr

def kPrologueBytes : UInt64 := 5

/-- What the system answers: `GetModuleHandleW`, `GetProcAddress`, and the content of the module's
file, empty where it cannot be opened. -/
structure BreakinInputs where
  ntdll : Option UInt64
  live : Option UInt64
  file : Span

namespace BreakinInputs

def copyPrologue (file : Span) (offset : Nat) : Vector UInt8 kPrologueBytes.toNat :=
  Vector.ofFn fun index => file.bytes.getD (offset + index) 0

def originalAt (inputs : BreakinInputs) (ntdll addr : UInt64) :
    Option (Vector UInt8 kPrologueBytes.toNat) :=
  if inputs.file.bytes.isEmpty then none
  else
    match (rvaToFileOffset inputs.file (addr - ntdll).toUInt32).value with
    | none => none
    | some offset =>
        if inputs.file.size < offset + kPrologueBytes then none
        else some (copyPrologue inputs.file offset.toNat)

def original (inputs : BreakinInputs) : Option (UInt64 × Vector UInt8 kPrologueBytes.toNat) :=
  match inputs.ntdll with
  | none => none
  | some ntdll =>
      match inputs.live with
      | none => none
      | some addr => (inputs.originalAt ntdll addr).map fun bytes => (addr, bytes)

end BreakinInputs

def restoreDebugBreakin (inputs : BreakinInputs) (system : System) (process : Process) :
    BreakinState × Process :=
  match inputs.original with
  | none => (.unavailable, process)
  | some (addr, original) =>
      if ByteImage.read process.image addr kPrologueBytes.toNat = original.toList then
        (.clean, process)
      else
        match Mem.write system addr kPrologueBytes original process with
        | (true, written) => (.restored, written)
        | (false, refused) => (.patched, refused)

def restoreCalls (inputs : BreakinInputs) : List System → Process → List BreakinState × Process
  | [], process => ([], process)
  | system :: systems, process =>
      let answer := restoreDebugBreakin inputs system process
      let later := restoreCalls inputs systems answer.2
      (answer.1 :: later.1, later.2)

def Pristine (addr : UInt64) (original : List UInt8) (process : Process) : Prop :=
  ByteImage.read process.image addr kPrologueBytes.toNat = original

def Refuses (addr : UInt64) (process : Process) (system : System) : Prop :=
  Mem.protect system addr kPrologueBytes Mem.pageExecuteReadwrite process = none

/-- What calls one after the other answer and leave, once the original bytes have been found. -/
inductive BreakinHistory (addr : UInt64) (original : List UInt8) (process : Process) :
    List System → List BreakinState × Process → Prop
  | clean (systems : List System) :
      Pristine addr original process →
      BreakinHistory addr original process systems
        (List.replicate systems.length .clean, process)
  | patched (systems : List System) :
      ¬Pristine addr original process → (∀ system ∈ systems, Refuses addr process system) →
      BreakinHistory addr original process systems
        (List.replicate systems.length .patched, process)
  | restored (denied later : List System) (system : System) (after : Process) :
      ¬Pristine addr original process → (∀ system ∈ denied, Refuses addr process system) →
      ¬Refuses addr process system →
      after.image = ByteImage.overlay process.image addr original →
      (process.currentHookName = [] → after.patches = process.patches) →
      BreakinHistory addr original process (denied ++ system :: later)
        (List.replicate denied.length .patched ++
          .restored :: List.replicate later.length .clean, after)

theorem Mem.patch_unnamed {system : System} {address size : UInt64}
    {stores : ByteImage.Image → ByteImage.Image} {process after : Process}
    (unnamed : process.currentHookName = [])
    (run : Mem.patch system address size stores process = (true, after)) :
    after.patches = process.patches := by
  obtain ⟨old, writable, granted, rfl⟩ := Mem.patch_granted system run
  obtain ⟨protections, rfl⟩ := Mem.protect_changes system granted
  obtain ⟨_, restored⟩ := Mem.unprotect_changes system address size old
    { Mem.recordOriginal address size { process with protections := protections } with
      image := stores process.image }
  rw [restored, Mem.recordOriginal, if_pos unnamed]

section Calls

variable {inputs : BreakinInputs} {system : System} {process : Process}
variable {addr : UInt64} {original : Vector UInt8 kPrologueBytes.toNat}

theorem restoreCalls_unavailable (missing : inputs.original = none) (systems : List System) :
    restoreCalls inputs systems process =
      (List.replicate systems.length .unavailable, process) := by
  induction systems with
  | nil => rfl
  | cons system systems ih =>
      have first : restoreDebugBreakin inputs system process = (.unavailable, process) := by
        rw [restoreDebugBreakin, missing]
      rw [restoreCalls, first]
      dsimp only
      rw [ih]
      rfl

theorem restoreCalls_clean (found : inputs.original = some (addr, original))
    (pristine : Pristine addr original.toList process) (systems : List System) :
    restoreCalls inputs systems process = (List.replicate systems.length .clean, process) := by
  induction systems with
  | nil => rfl
  | cons system systems ih =>
      have first : restoreDebugBreakin inputs system process = (.clean, process) := by
        rw [restoreDebugBreakin, found]
        exact if_pos pristine
      rw [restoreCalls, first]
      dsimp only
      rw [ih]
      rfl

theorem restoreDebugBreakin_refused (found : inputs.original = some (addr, original))
    (changed : ¬Pristine addr original.toList process) (refused : Refuses addr process system) :
    restoreDebugBreakin inputs system process = (.patched, process) := by
  have write : Mem.write system addr kPrologueBytes original process = (false, process) := by
    rw [Mem.write, Mem.patch, refused]
  have differs : ByteImage.read process.image addr kPrologueBytes.toNat ≠ original.toList := changed
  rw [restoreDebugBreakin, found]
  dsimp only
  rw [if_neg differs, write]

theorem restoreDebugBreakin_granted (found : inputs.original = some (addr, original))
    (changed : ¬Pristine addr original.toList process) (granted : ¬Refuses addr process system) :
    ∃ after, restoreDebugBreakin inputs system process = (.restored, after) ∧
      after.image = ByteImage.overlay process.image addr original.toList ∧
      (process.currentHookName = [] → after.patches = process.patches) := by
  have differs : ByteImage.read process.image addr kPrologueBytes.toNat ≠ original.toList := changed
  cases write : Mem.write system addr kPrologueBytes original process with
  | mk done after =>
      cases done with
      | false => exact absurd (Mem.patch_refused system write).1 granted
      | true =>
          refine ⟨after, ?_, Mem.patch_image system write, fun unnamed =>
            Mem.patch_unnamed unnamed write⟩
          rw [restoreDebugBreakin, found]
          dsimp only
          rw [if_neg differs, write]

theorem pristine_written {after : Process}
    (image : after.image = ByteImage.overlay process.image addr original.toList) :
    Pristine addr original.toList after := by
  have length : original.toList.length = kPrologueBytes.toNat := original.length_toList
  have fits : original.toList.length ≤ 2 ^ 64 := by
    rw [length]
    decide
  have written := ByteImage.read_overlay process.image addr fits
  rw [Pristine, image]
  simpa only [length] using written

theorem restoreCalls_found (found : inputs.original = some (addr, original))
    (systems : List System) :
    BreakinHistory addr original.toList process systems (restoreCalls inputs systems process) := by
  by_cases pristine : Pristine addr original.toList process
  · rw [restoreCalls_clean found pristine]
    exact .clean systems pristine
  · induction systems with
    | nil => exact .patched [] pristine (by simp)
    | cons system systems ih =>
        by_cases refused : Refuses addr process system
        · rw [restoreCalls, restoreDebugBreakin_refused found pristine refused]
          dsimp only
          generalize restoreCalls inputs systems process = later at ih
          cases ih with
          | clean _ clean => exact absurd clean pristine
          | patched _ _ all =>
              exact .patched (system :: systems) pristine
                (List.forall_mem_cons.mpr ⟨refused, all⟩)
          | restored denied later other after _ all granted image patches =>
              exact .restored (system :: denied) later other after pristine
                (List.forall_mem_cons.mpr ⟨refused, all⟩) granted image patches
        · obtain ⟨after, first, image, patches⟩ :=
            restoreDebugBreakin_granted found pristine refused
          rw [restoreCalls, first]
          dsimp only
          rw [restoreCalls_clean found (pristine_written image)]
          exact .restored [] systems system after pristine (by simp) refused image patches

end Calls

/-- An ntdll: its file, where it is mapped, and the section that holds the function. -/
structure Ntdll where
  file : PeImage
  base : UInt64
  rva : UInt32
  owner : SectionHeader
  sums : file.peOffset + 20 < 2 ^ 32
  owned : owner ∈ file.sections
  holds : owner.Holds rva.toNat
  visible : file.OwnerVisible rva.toNat

namespace Ntdll

def address (ntdll : Ntdll) : UInt64 := ntdll.base + ntdll.rva.toUInt64

def fileOffset (ntdll : Ntdll) : Nat := ntdll.owner.offsetOf ntdll.rva.toNat

def prologue (ntdll : Ntdll) : List UInt8 :=
  (ntdll.file.span.bytes.drop ntdll.fileOffset).take kPrologueBytes.toNat

def Complete (ntdll : Ntdll) : Prop :=
  ntdll.fileOffset + kPrologueBytes.toNat ≤ ntdll.file.span.bytes.length

instance (ntdll : Ntdll) : Decidable ntdll.Complete := inferInstanceAs (Decidable (_ ≤ _))

def inputs (ntdll : Ntdll) (loaded exported readable : Bool) : BreakinInputs where
  ntdll := if loaded then some ntdll.base else none
  live := if exported then some ntdll.address else none
  file := if readable then ntdll.file.span else { bytes := [], bounded := by decide }

theorem offset_value (ntdll : Ntdll) : ∃ offset : UInt64, offset.toNat = ntdll.fileOffset ∧
    ntdll.fileOffset < 2 ^ 32 ∧
      (rvaToFileOffset ntdll.file.span ntdll.rva).value = some offset := by
  obtain ⟨before, after, table⟩ := List.append_of_mem ntdll.owned
  have seen := ntdll.visible before ntdll.owner after table ntdll.holds
  have leads := (ntdll.file.value_eq_owner_iff ntdll.sums table ntdll.holds).mpr seen
  obtain ⟨offset, value, same⟩ := Option.map_eq_some_iff.mp leads
  exact ⟨offset, same, seen.1, value⟩

theorem nonempty (ntdll : Ntdll) : ntdll.file.span.bytes.isEmpty = false := by
  cases bytes : ntdll.file.span.bytes with
  | nil =>
      have field := ntdll.file.peField
      rw [bytes] at field
      exact absurd field (by simp [fieldAt])
  | cons first rest => rfl

theorem copyPrologue_toList {file : Span} {offset : Nat}
    (inside : offset + kPrologueBytes.toNat ≤ file.bytes.length) :
    (BreakinInputs.copyPrologue file offset).toList =
      (file.bytes.drop offset).take kPrologueBytes.toNat := by
  refine List.ext_getElem ?_ ?_
  · rw [Vector.length_toList, List.length_take, List.length_drop]
    omega
  · intro index below bound
    have small : offset + index < file.bytes.length := by
      rw [Vector.length_toList] at below
      omega
    simp [BreakinInputs.copyPrologue, small]

theorem originalAt_eq (ntdll : Ntdll) :
    (ntdll.inputs true true true).originalAt ntdll.base ntdll.address =
      if ntdll.Complete then
        some (BreakinInputs.copyPrologue ntdll.file.span ntdll.fileOffset)
      else none := by
  obtain ⟨offset, same, small, value⟩ := ntdll.offset_value
  have distance : (ntdll.address - ntdll.base).toUInt32 = ntdll.rva := by
    rw [address, UInt64.add_comm, UInt64.add_sub_cancel, UInt32.toUInt32_toUInt64]
  have width : kPrologueBytes.toNat = 5 := by decide
  have last : ntdll.file.span.size < offset + kPrologueBytes ↔
      ¬ntdll.Complete := by
    rw [UInt64.lt_iff_toNat_lt, add_toNat (by omega), Span.size_toNat, same, Complete, Nat.not_le]
  simp only [BreakinInputs.originalAt, inputs, if_true, nonempty, distance, value, last, same,
    Bool.false_eq_true, if_false, ite_not]

theorem original_missing (ntdll : Ntdll) {loaded exported readable : Bool}
    (missing : ¬(loaded ∧ exported ∧ readable ∧ ntdll.Complete)) :
    (ntdll.inputs loaded exported readable).original = none := by
  cases loaded with
  | false => rfl
  | true =>
      cases exported with
      | false => rfl
      | true =>
          cases readable with
          | false => rfl
          | true =>
              have cut : ¬ntdll.Complete := by simpa using missing
              change ((ntdll.inputs true true true).originalAt ntdll.base ntdll.address).map _ =
                none
              rw [originalAt_eq, if_neg cut]
              rfl

theorem original_found (ntdll : Ntdll) (complete : ntdll.Complete) :
    (ntdll.inputs true true true).original =
      some (ntdll.address, BreakinInputs.copyPrologue ntdll.file.span ntdll.fileOffset) := by
  change ((ntdll.inputs true true true).originalAt ntdll.base ntdll.address).map _ = _
  rw [originalAt_eq, if_pos complete]
  rfl

end Ntdll

/-- Calls answer `patched` until one of them is let through, which restores the file's bytes and
changes no others, and `clean` from then on; they answer `unavailable` where the system gives no
module, no function or no file, or the file ends before the five bytes. -/
theorem restoreCalls_history (ntdll : Ntdll) (loaded exported readable : Bool)
    (systems : List System) (process : Process) :
    (loaded ∧ exported ∧ readable ∧ ntdll.Complete →
      BreakinHistory ntdll.address ntdll.prologue process systems
        (restoreCalls (ntdll.inputs loaded exported readable) systems process)) ∧
    (¬(loaded ∧ exported ∧ readable ∧ ntdll.Complete) →
      restoreCalls (ntdll.inputs loaded exported readable) systems process =
        (List.replicate systems.length .unavailable, process)) := by
  constructor
  · rintro ⟨rfl, rfl, rfl, complete⟩
    rw [Ntdll.prologue, ← Ntdll.copyPrologue_toList complete]
    exact restoreCalls_found (ntdll.original_found complete) systems
  · intro missing
    exact restoreCalls_unavailable (ntdll.original_missing missing) systems

def smallSections : List SectionHeader := [⟨0x1000, 0x1000, 8, 0x80⟩]

def smallBytes : List UInt8 := fileOf smallSections ++ [0x48, 0x83, 0xEC, 0x28, 0xB9, 0, 0, 0]

theorem small_sections : listedSections smallBytes sectionSize = smallSections := by
  decide +kernel

def smallNtdll : Ntdll where
  file :=
    { span := { bytes := smallBytes, bounded := by decide +kernel }
      peOffset := 0x40
      count := 1
      optLen := 0
      peField := by decide +kernel
      countField := by decide +kernel
      optField := by decide +kernel
      tableInside := by decide +kernel
      apart := by
        rw [small_sections]
        exact List.pairwise_singleton _ _
      unwrapped := by
        rw [small_sections]
        decide }
  base := 0x7FF800000000
  rva := 0x1000
  owner := ⟨0x1000, 0x1000, 8, 0x80⟩
  sums := by decide
  owned := by
    rw [PeImage.sections, small_sections]
    exact List.mem_singleton_self _
  holds := by decide
  visible := by
    intro before owner after table holds
    rw [PeImage.sections, small_sections, smallSections] at table
    obtain ⟨rfl, rfl, rfl⟩ : before = [] ∧ owner = ⟨0x1000, 0x1000, 8, 0x80⟩ ∧ after = [] := by
      cases before with
      | nil => simpa [eq_comm] using table
      | cons first rest => simp at table
    exact ⟨by decide, .inr ⟨by simp, .inl (by decide)⟩⟩

def grantingSystem : System where
  virtualProtect protections _ _ _ := some (0x20, protections)
  ntProtect protections _ _ _ := some (0x20, protections)

def hookedProcess : Process where
  image := ByteImage.overlay (fun _ => 0) smallNtdll.address [0xE9, 0x11, 0x22, 0x33, 0x44]
  protections _ := 0x20
  method := .virtualProtect
  patches := .empty
  currentHookName := []

theorem small_complete : smallNtdll.Complete := by decide +kernel

theorem small_prologue : smallNtdll.prologue = [0x48, 0x83, 0xEC, 0x28, 0xB9] := by
  decide +kernel

theorem restoreCalls_history_small :
    BreakinHistory smallNtdll.address [0x48, 0x83, 0xEC, 0x28, 0xB9] hookedProcess
      [grantingSystem, grantingSystem]
      (restoreCalls (smallNtdll.inputs true true true) [grantingSystem, grantingSystem]
        hookedProcess) := by
  rw [← small_prologue]
  exact (restoreCalls_history smallNtdll true true true [grantingSystem, grantingSystem]
    hookedProcess).1 ⟨rfl, rfl, rfl, small_complete⟩

end PatchFix
