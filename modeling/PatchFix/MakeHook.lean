import PatchFix.PatchOriginals

/-!
`mem::make_hook`: create a mid-function hook, after erasing the instructions it emulates when the
caller names their end. The hooking library is a parameter. First what the hooks see of it: a
creation ends in one of three ways, and a callback that raised a fault never runs again.
-/

namespace PatchFix

/-- How a `make_hook` call ended: with a hook, with an error, or in a hardware fault. -/
inductive HookCreation where
  | created
  | refused
  | raised
  deriving DecidableEq, Repr

structure Registers where
  rax : UInt64
  rcx : UInt64
  rdi : UInt64
  r8 : UInt64
  deriving DecidableEq, Repr

/-- A functor body returns the state it left and whether it raised a fault; `faulted` is the
functor's own `s_faulted`. -/
def guardedCallback {State : Type} (functor : State → State × Bool) (faulted : Bool)
    (state : State) : State × Bool :=
  if faulted then (state, true) else functor state

inductive MidHookError where
  | badAllocation | badInlineHook | other
  deriving DecidableEq, Repr

def MidHookError.message : MidHookError → Text
  | badAllocation => "MidHook: allocation failed".toList
  | badInlineHook => "MidHook: inline hook failed".toList
  | other => "MidHook: unknown error".toList

/-- `safetyhook::MidHook::create`; one that fails leaves the process as it was. -/
abbrev HookService := UInt64 → Process → Except MidHookError (List UInt8 × Process)

namespace Mem

variable (system : System) (service : HookService)

def createMidHook (address : UInt64) (process : Process) : Except Text (List UInt8 × Process) :=
  (service address process).mapError MidHookError.message

def makeHook (address : UInt64) (process : Process) : Except Text (List UInt8) × Process :=
  match createMidHook service address process with
  | .error message => (.error message, process)
  | .ok (original, hooked) =>
      (.ok original, { hooked with
        patches := hooked.patches.registerPatch address (UInt64.ofNat original.length) original
          process.currentHookName .midHook })

def eraseFailed : Text := "MidHook: failed to erase the replaced instructions".toList

def makeHookErasing (address endAddress : UInt64) (process : Process) :
    Except Text (List UInt8) × Process :=
  if address < endAddress then
    match nop system address (endAddress - address) process with
    | (false, refused) => (.error eraseFailed, refused)
    | (true, erased) => makeHook service address erased
  else makeHook service address process

variable {system service} {address endAddress : UInt64} {process : Process}

theorem makeHook_refused {error : MidHookError} (failed : service address process = .error error) :
    makeHook service address process = (.error error.message, process) := by
  simp [makeHook, createMidHook, failed, Except.mapError]

theorem makeHook_created {hook : List UInt8 × Process}
    (created : service address process = .ok hook) (message : Text) :
    (makeHook service address process).1 ≠ .error message := by
  simp [makeHook, createMidHook, created, Except.mapError]

theorem makeHook_unchanged {message : Text}
    (failed : (makeHook service address process).1 = .error message) :
    (makeHook service address process).2 = process := by
  cases answer : service address process with
  | error error => rw [makeHook_refused answer]
  | ok hook => exact absurd failed (makeHook_created answer message)

theorem nop_image_eq_iff {count : UInt64} {erased : Process}
    (run : nop system address count process = (true, erased)) :
    erased.image = process.image ↔
      ∀ index < count.toNat, process.image (address + UInt64.ofNat index) = opNop := by
  have fits : (List.replicate count.toNat opNop).length ≤ 2 ^ 64 := by
    simpa using Nat.le_of_lt count.toNat_lt
  rw [patch_image system run, ByteImage.overlay_eq_self_iff fits, List.length_replicate,
    List.eq_replicate_iff]
  simp [ByteImage.read]

def AllOrNothing (system : System) (service : HookService) (address endAddress : UInt64)
    (process : Process) : Prop :=
  ∀ message, (makeHookErasing system service address endAddress process).1 = .error message →
    (makeHookErasing system service address endAddress process).2.image = process.image

/-- Once something is erased the hook is created, unless there was nothing but `nop` to erase. -/
def ErasesSafely (system : System) (service : HookService) (address endAddress : UInt64)
    (process : Process) : Prop :=
  address < endAddress → ∀ erased,
    nop system address (endAddress - address) process = (true, erased) →
      (∃ hook, service address erased = .ok hook) ∨
        ∀ index < (endAddress - address).toNat,
          process.image (address + UInt64.ofNat index) = opNop

theorem allOrNothing_iff (system : System) (service : HookService) (address endAddress : UInt64)
    (process : Process) :
    AllOrNothing system service address endAddress process ↔
      ErasesSafely system service address endAddress process := by
  constructor
  · intro restores named erased run
    cases answer : service address erased with
    | ok hook => exact Or.inl ⟨hook, rfl⟩
    | error error =>
        refine Or.inr ((nop_image_eq_iff run).mp ?_)
        have ended : makeHookErasing system service address endAddress process =
            (.error error.message, erased) := by
          simp [makeHookErasing, named, run, makeHook_refused answer]
        simpa [ended] using restores error.message (by rw [ended])
  · intro safe message failed
    unfold makeHookErasing at failed ⊢
    by_cases named : address < endAddress
    · simp only [named, if_true] at failed ⊢
      cases run : nop system address (endAddress - address) process with
      | mk written erased =>
          cases written with
          | false => rw [(patch_refused system run).2]
          | true =>
              simp only [run] at failed
              rcases safe named erased run with ⟨hook, created⟩ | nops
              · exact absurd failed (makeHook_created created message)
              · simp only [makeHook_unchanged failed]
                exact (nop_image_eq_iff run).mpr nops
    · simp only [named, if_false] at failed ⊢
      rw [makeHook_unchanged failed]

end Mem

def outOfMemory : HookService := fun _ _ => .error .badAllocation

theorem failedHook_erases :
    ¬∀ (system : System) (service : HookService) (address endAddress : UInt64) (process : Process),
      Mem.AllOrNothing system service address endAddress process := by
  intro claimed
  have restored := claimed granting outOfMemory 0x140001000 0x140001007 untouched
    MidHookError.badAllocation.message rfl
  exact absurd (congrFun restored 0x140001000) (by decide)

end PatchFix
