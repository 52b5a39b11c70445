import PatchFix.PatchOriginals

/-!
What a write leaves alone, over a protection service that works on whole pages and reports the
protection of the first one.
-/

namespace PatchFix

def pageOf (address : UInt64) : UInt64 := address >>> 12

def Touches (address size page : UInt64) : Prop :=
  ∃ index < size.toNat, pageOf (address + UInt64.ofNat index) = page

instance (address size page : UInt64) : Decidable (Touches address size page) :=
  inferInstanceAs (Decidable (∃ index < size.toNat, _))

/-- Protections of pages, as one number for each. -/
def SetsPages (call : ProtectCall) : Prop :=
  ∀ protections address size newProtect old after,
    call protections address size newProtect = some (old, after) →
      old = protections (pageOf address) ∧ ∀ page, after page =
        if Touches address size page then newProtect else protections page

structure System.SetsPages (system : System) : Prop where
  virtualProtect : PatchFix.SetsPages system.virtualProtect
  ntProtect : PatchFix.SetsPages system.ntProtect

namespace Mem

variable {system : System} {address size : UInt64} {newProtect old : UInt32}
variable {process changed : Process}

theorem protect_setsPages (paged : system.SetsPages)
    (granted : protect system address size newProtect process = some (old, changed)) :
    old = process.protections (pageOf address) ∧ ∀ page, changed.protections page =
      if Touches address size page then newProtect else process.protections page := by
  simp only [protect, Option.map_eq_some_iff, Prod.mk.injEq] at granted
  obtain ⟨⟨_, after⟩, called, rfl, rfl⟩ := granted
  cases chosen : process.method with
  | virtualProtect =>
      rw [chosen] at called
      exact paged.virtualProtect _ _ _ _ _ _ called
  | ntProtect =>
      rw [chosen] at called
      exact paged.ntProtect _ _ _ _ _ _ called

theorem unprotect_protections {writable : Process}
    (sameProtections : process.protections = writable.protections)
    (sameMethod : process.method = writable.method) :
    (unprotect system address size old process).protections =
      match protect system address size old writable with
      | none => writable.protections
      | some (_, changed) => changed.protections := by
  unfold unprotect protect
  rw [sameProtections, sameMethod]
  cases writable.method with
  | virtualProtect =>
      cases called : system.virtualProtect writable.protections address size old with
      | none => simp [called, sameProtections]
      | some result => simp [called]
  | ntProtect =>
      cases called : system.ntProtect writable.protections address size old with
      | none => simp [called, sameProtections]
      | some result => simp [called]

theorem patch_of_granted {stores : ByteImage.Image → ByteImage.Image} {writable : Process}
    (granted : protect system address size pageExecuteReadwrite process = some (old, writable)) :
    patch system address size stores process = (true, unprotect system address size old
      { recordOriginal address size writable with image := stores writable.image }) := by
  simp [patch, granted]

theorem recordOriginal_protections (address size : UInt64) (writable : Process) :
    (recordOriginal address size writable).protections = writable.protections ∧
      (recordOriginal address size writable).method = writable.method := by
  unfold recordOriginal
  split
  · exact ⟨rfl, rfl⟩
  · exact ⟨rfl, rfl⟩

end Mem

namespace WriteCall

variable (system : System) (call : WriteCall) (process : Process)

def Covers (address : UInt64) : Prop :=
  ByteImage.offset call.address address < call.bytes.length

structure Framed : Prop where
  refused : ∀ after, call.perform system process = (false, after) →
    after.image = process.image ∧ after.protections = process.protections ∧
      after.patches = process.patches
  outside : ∀ after, call.perform system process = (true, after) →
    ∀ address, ¬call.Covers address → after.image address = process.image address
  written : ∀ after, call.perform system process = (true, after) →
    ByteImage.read after.image call.address call.bytes.length = call.bytes
  restored : ∀ after, call.perform system process = (true, after) →
    after.protections = process.protections

/-- The second call puts back the one protection that the pages had, or it fails and they had the
one that stays. -/
def RestoredBy (old : UInt32) (writable : Process) : Prop :=
  match Mem.protect system call.address call.size old writable with
  | none => ∀ page, Touches call.address call.size page →
      process.protections page = Mem.pageExecuteReadwrite
  | some _ => ∀ page, Touches call.address call.size page →
      process.protections page = process.protections (pageOf call.address)

def Restorable : Prop :=
  ∀ old writable, Mem.protect system call.address call.size Mem.pageExecuteReadwrite process =
    some (old, writable) → call.RestoredBy system process old writable

variable {system call process}

theorem restored_iff (paged : system.SetsPages) {old : UInt32} {writable after : Process}
    (granted : Mem.protect system call.address call.size Mem.pageExecuteReadwrite process =
      some (old, writable))
    (sameProtections : after.protections = writable.protections)
    (sameMethod : after.method = writable.method) :
    (Mem.unprotect system call.address call.size old after).protections = process.protections ↔
      call.RestoredBy system process old writable := by
  obtain ⟨first, opened⟩ := Mem.protect_setsPages paged granted
  rw [Mem.unprotect_protections sameProtections sameMethod, RestoredBy]
  cases closing : Mem.protect system call.address call.size old writable with
  | none =>
      simp only [funext_iff, opened]
      refine forall_congr' fun page => ?_
      by_cases touched : Touches call.address call.size page
      · simp [touched, eq_comm]
      · simp [touched]
  | some closed =>
      obtain ⟨_, changed⟩ := closed
      obtain ⟨_, reset⟩ := Mem.protect_setsPages paged closing
      simp only [funext_iff, reset, opened, first]
      refine forall_congr' fun page => ?_
      by_cases touched : Touches call.address call.size page
      · simp [touched, eq_comm]
      · simp [touched]

theorem framed_iff (paged : system.SetsPages) :
    call.Framed system process ↔ call.Restorable system process := by
  have performed := call.perform_eq_patch system process
  constructor
  · intro framed old writable granted
    obtain ⟨sameProtections, sameMethod⟩ :=
      Mem.recordOriginal_protections call.address call.size writable
    have closed := framed.restored _ (performed.trans (Mem.patch_of_granted granted))
    exact (restored_iff paged granted (by exact sameProtections) (by exact sameMethod)).mp closed
  · intro restorable
    have stored : ∀ after, call.perform system process = (true, after) →
        after.image = ByteImage.overlay process.image call.address call.bytes :=
      fun after run => Mem.patch_image system (performed.symm.trans run)
    constructor
    · intro after run
      obtain ⟨_, rfl⟩ := Mem.patch_refused system (performed.symm.trans run)
      exact ⟨rfl, rfl, rfl⟩
    · intro after run address outside
      rw [stored after run, ByteImage.overlay_outside (Nat.le_of_not_lt outside)]
    · intro after run
      rw [stored after run, ByteImage.read_overlay _ _ (Nat.le_of_lt call.bytes_length_lt)]
    · intro after run
      obtain ⟨old, writable, granted, rfl⟩ :=
        Mem.patch_granted system (performed.symm.trans run)
      obtain ⟨sameProtections, sameMethod⟩ :=
        Mem.recordOriginal_protections call.address call.size writable
      exact (restored_iff paged granted (by exact sameProtections) (by exact sameMethod)).mpr
        (restorable old writable granted)

end WriteCall

def setPages : ProtectCall := fun protections address size newProtect =>
  some (protections (pageOf address),
    fun page => if Touches address size page then newProtect else protections page)

def pagedSystem : System := ⟨setPages, setPages⟩

theorem pagedSystem_setsPages : pagedSystem.SetsPages := by
  have sets : SetsPages setPages := by
    intro protections address size newProtect old after called
    obtain ⟨rfl, rfl⟩ := Prod.mk.inj (Option.some.inj called)
    exact ⟨rfl, fun _ => rfl⟩
  exact ⟨sets, sets⟩

def codeBeforeData : Process :=
  { untouched with protections := fun page => if page = 0x140001 then 0x20 else 0x04 }

theorem framed_iff_oneByte :
    (WriteCall.ret 0x140001000 0).Framed pagedSystem codeBeforeData ↔
      (WriteCall.ret 0x140001000 0).Restorable pagedSystem codeBeforeData :=
  WriteCall.framed_iff pagedSystem_setsPages

theorem straddling_notFramed :
    ¬∀ (system : System) (call : WriteCall) (process : Process), system.SetsPages →
      call.Framed system process := by
  intro claimed
  have framed := claimed pagedSystem (.nop 0x140001FFF 2) codeBeforeData pagedSystem_setsPages
  have restored := congrFun (framed.restored _ rfl) 0x140002
  exact absurd restored (by decide)

end PatchFix
