import PatchFix.Library.ByteImage
import PatchFix.PatchRegistry

/-!
`mem::write`, `mem::nop` and `mem::ret`: unprotect, record the bytes about to be replaced, store,
protect again. The system's protection services are parameters.
-/

namespace PatchFix

abbrev Protections := UInt64 → UInt32

inductive ProtectMethod where
  | virtualProtect | ntProtect
  deriving DecidableEq, Repr

abbrev ProtectCall := Protections → UInt64 → UInt64 → UInt32 → Option (UInt32 × Protections)

structure System where
  virtualProtect : ProtectCall
  ntProtect : ProtectCall

structure Process where
  image : ByteImage.Image
  protections : Protections
  method : ProtectMethod
  patches : PatchTable
  currentHookName : Text

namespace Mem

def opNop : UInt8 := 0x90
def opRet : UInt8 := 0xC3
def opRetn : UInt8 := 0xC2
def pageExecuteReadwrite : UInt32 := 0x40

variable (system : System)

def protect (address size : UInt64) (newProtect : UInt32) (process : Process) :
    Option (UInt32 × Process) :=
  let call := match process.method with
    | .virtualProtect => system.virtualProtect
    | .ntProtect => system.ntProtect
  (call process.protections address size newProtect).map fun result =>
    (result.1, { process with protections := result.2 })

def unprotect (address size : UInt64) (oldProtect : UInt32) (process : Process) : Process :=
  match protect system address size oldProtect process with
  | none => process
  | some (_, changed) => changed

def recordOriginal (address size : UInt64) (process : Process) : Process :=
  if process.currentHookName = [] then process
  else
    let original := ByteImage.read process.image address size.toNat
    { process with
      patches :=
        process.patches.registerPatch address size original process.currentHookName .byteWrite }

/-- What the four functions share: they differ in the stores they make. -/
def patch (address size : UInt64) (stores : ByteImage.Image → ByteImage.Image)
    (process : Process) : Bool × Process :=
  match protect system address size pageExecuteReadwrite process with
  | none => (false, process)
  | some (old, writable) =>
      let recorded := recordOriginal address size writable
      (true, unprotect system address size old { recorded with image := stores recorded.image })

def write (address size : UInt64) (data : Vector UInt8 size.toNat) (process : Process) :
    Bool × Process :=
  patch system address size (fun image => ByteImage.overlay image address data.toList) process

def writeValue {width : Nat} (address : UInt64) (value : Vector UInt8 width)
    (process : Process) : Bool × Process :=
  patch system address (UInt64.ofNat width)
    (fun image => ByteImage.overlay image address value.toList) process

def nop (address count : UInt64) (process : Process) : Bool × Process :=
  patch system address count
    (fun image => ByteImage.overlay image address (List.replicate count.toNat opNop)) process

def ret (address : UInt64) (pop : UInt16) (process : Process) : Bool × Process :=
  if pop = 0 then writeValue system address #v[opRet] process
  else
    patch system address 3 (fun image =>
      ByteImage.overlay (ByteImage.overlay image address [opRetn]) (address + 1)
        [pop.toUInt8, (pop >>> 8).toUInt8]) process

theorem protect_changes {address size : UInt64} {newProtect old : UInt32}
    {process changed : Process}
    (granted : protect system address size newProtect process = some (old, changed)) :
    ∃ protections, changed = { process with protections := protections } := by
  simp only [protect, Option.map_eq_some_iff, Prod.mk.injEq] at granted
  obtain ⟨result, _, _, same⟩ := granted
  exact ⟨result.2, same.symm⟩

theorem unprotect_changes (address size : UInt64) (oldProtect : UInt32) (process : Process) :
    ∃ protections, unprotect system address size oldProtect process =
      { process with protections := protections } := by
  unfold unprotect
  split
  · exact ⟨process.protections, rfl⟩
  · next granted => exact protect_changes system granted

@[simp] theorem recordOriginal_image (address size : UInt64) (process : Process) :
    (recordOriginal address size process).image = process.image := by
  unfold recordOriginal
  split
  · rfl
  · rfl

theorem patch_refused {address size : UInt64} {stores : ByteImage.Image → ByteImage.Image}
    {process after : Process} (run : patch system address size stores process = (false, after)) :
    protect system address size pageExecuteReadwrite process = none ∧ after = process := by
  unfold patch at run
  split at run
  · next refused => exact ⟨refused, (Prod.mk.inj run).2.symm⟩
  · simp at run

theorem patch_granted {address size : UInt64} {stores : ByteImage.Image → ByteImage.Image}
    {process after : Process} (run : patch system address size stores process = (true, after)) :
    ∃ old writable, protect system address size pageExecuteReadwrite process =
        some (old, writable) ∧
      after = unprotect system address size old
        { recordOriginal address size writable with image := stores writable.image } := by
  unfold patch at run
  split at run
  · simp at run
  · next old writable granted =>
      simp only [recordOriginal_image] at run
      exact ⟨old, writable, granted, (Prod.mk.inj run).2.symm⟩

theorem patch_image {address size : UInt64} {stores : ByteImage.Image → ByteImage.Image}
    {process after : Process} (run : patch system address size stores process = (true, after)) :
    after.image = stores process.image := by
  obtain ⟨old, writable, granted, rfl⟩ := patch_granted system run
  obtain ⟨protections, rfl⟩ := protect_changes system granted
  obtain ⟨_, restored⟩ := unprotect_changes system address size old
    { recordOriginal address size { process with protections := protections } with
      image := stores process.image }
  rw [restored]

theorem patch_success {address size : UInt64} {stores : ByteImage.Image → ByteImage.Image}
    {process after : Process} (named : process.currentHookName ≠ [])
    (run : patch system address size stores process = (true, after)) :
    after.image = stores process.image ∧
      after.patches = process.patches.registerPatch address size
        (ByteImage.read process.image address size.toNat) process.currentHookName .byteWrite := by
  refine ⟨patch_image system run, ?_⟩
  obtain ⟨old, writable, granted, rfl⟩ := patch_granted system run
  obtain ⟨protections, rfl⟩ := protect_changes system granted
  obtain ⟨_, restored⟩ := unprotect_changes system address size old
    { recordOriginal address size { process with protections := protections } with
      image := stores process.image }
  rw [restored, recordOriginal, if_neg named]

end Mem

end PatchFix
