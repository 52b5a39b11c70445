import PatchFix.Library.TransitionRun
import PatchFix.SitePatches

/-!
Syndicate's `CameraSmoothing`: one opcode of the game, rewritten by `install` and at every reload,
with the hook's name set around each of the calls.
-/

namespace PatchFix.Syndicate

def opJnz : UInt8 := 0x75
def opJmp : UInt8 := 0xEB

inductive SmoothingLog where
  | unexpectedOpcode (opcode : UInt8)
  | writeFailed
  | smoothing (disabled : Bool)
  | installed
  deriving DecidableEq, Repr

structure SmoothingState where
  process : Process
  gBranch : UInt64
  log : List SmoothingLog

structure SmoothingRequest where
  disable : Bool
  system : System

def smoothingOpcode (disable : Bool) : UInt8 := if disable then opJmp else opJnz

namespace SmoothingState

def logs (line : SmoothingLog) (state : SmoothingState) : SmoothingState :=
  { state with log := state.log ++ [line] }

def applySmoothingPatch (request : SmoothingRequest) (state : SmoothingState) : SmoothingState :=
  if state.gBranch = 0 then state
  else
    let written := Mem.writeValue request.system state.gBranch #v[smoothingOpcode request.disable]
      state.process
    if written.1 then { state with process := written.2 }.logs (.smoothing request.disable)
    else { state with process := written.2 }.logs .writeFailed

def onReload (request : SmoothingRequest) (state : SmoothingState) : SmoothingState :=
  state.applySmoothingPatch request

def install (branchAddr : UInt64) (request : SmoothingRequest) (state : SmoothingState) :
    Bool × SmoothingState :=
  let opcode := state.process.image branchAddr
  if opcode ≠ opJnz then (false, state.logs (.unexpectedOpcode opcode))
  else
    (true, (({ state with gBranch := branchAddr }).applySmoothingPatch request).logs .installed)

def setName (name : Text) (state : SmoothingState) : SmoothingState :=
  { state with process := { state.process with currentHookName := name } }

def reload (name : Text) (state : SmoothingState) (request : SmoothingRequest) : SmoothingState :=
  ((state.setName name).onReload request).setName []

/-- `install` with the first of the requests and `on_reload` with the others; a hook that did not
install is not reloaded. -/
def run (name : Text) (branchAddr : UInt64) (process : Process) :
    List SmoothingRequest → SmoothingState
  | [] => { process, gBranch := 0, log := [] }
  | first :: reloads =>
      let (success, installed) :=
        (setName name { process, gBranch := 0, log := [] }).install branchAddr first
      if success then reloads.foldl (reload name) (installed.setName []) else installed.setName []

def met (name : Text) (branchAddr : UInt64) (start : Process) (requests : List SmoothingRequest) :
    Process :=
  { (run name branchAddr start requests).process with currentHookName := name }

def Grants (branchAddr : UInt64) (process : Process) (request : SmoothingRequest) : Prop :=
  Mem.protect request.system branchAddr 1 Mem.pageExecuteReadwrite process ≠ none

variable {name : Text} {branchAddr : UInt64} {start : Process} {state : SmoothingState}
  {latest : Option SmoothingRequest}

def Followed (name : Text) (branchAddr : UInt64) (start : Process)
    (latest : Option SmoothingRequest) (process : Process) : Prop :=
  WriteCall.WrittenAt branchAddr 1 { start with currentHookName := name }
    (latest.map fun request => [smoothingOpcode request.disable])
    { process with currentHookName := name }

theorem writeValue_granted (branchAddr : UInt64) (system : System) (process : Process)
    (opcode : UInt8) :
    (Mem.writeValue system branchAddr #v[opcode] process).1 = true ↔
      Mem.protect system branchAddr 1 Mem.pageExecuteReadwrite process ≠ none := by
  have width : UInt64.ofNat 1 = 1 := rfl
  unfold Mem.writeValue Mem.patch
  rw [width]
  cases Mem.protect system branchAddr 1 Mem.pageExecuteReadwrite process with
  | none => simp
  | some granted => simp

theorem apply_process (state : SmoothingState) (branch : state.gBranch = branchAddr)
    (present : branchAddr ≠ 0) (request : SmoothingRequest) :
    (state.applySmoothingPatch request).gBranch = branchAddr ∧
      (state.applySmoothingPatch request).process =
        (Mem.writeValue request.system branchAddr #v[smoothingOpcode request.disable]
          state.process).2 := by
  subst branch
  rw [applySmoothingPatch, if_neg present]
  dsimp only
  split
  · exact ⟨rfl, rfl⟩
  · exact ⟨rfl, rfl⟩

/-- One call under the hook's name follows its request where the system lets it write. -/
theorem Followed.apply (held : Followed name branchAddr start latest state.process)
    (branch : state.gBranch = branchAddr) (present : branchAddr ≠ 0) (named : name ≠ [])
    (current : state.process.currentHookName = name) (request : SmoothingRequest) :
    (Grants branchAddr state.process request →
      Followed name branchAddr start (some request)
        (state.applySmoothingPatch request).process) ∧
    (¬Grants branchAddr state.process request →
      Followed name branchAddr start latest (state.applySmoothingPatch request).process) := by
  have process : { state.process with currentHookName := name } = state.process := by rw [← current]
  unfold Followed at held
  rw [process] at held
  let call : WriteCall := .writeValue 1 (by decide) branchAddr #v[smoothingOpcode request.disable]
  have performed : WriteCall.WrittenAt branchAddr 1 { start with currentHookName := name } _
      (call.perform request.system state.process).2 := held.perform named rfl rfl
  have kept : { (call.perform request.system state.process).2 with currentHookName := name } =
      (call.perform request.system state.process).2 := by
    have same := performed.name
    simp only at same
    rw [← same]
  have granted := writeValue_granted branchAddr request.system state.process
    (smoothingOpcode request.disable)
  change (call.perform request.system state.process).1 = true ↔ _ at granted
  have applied : (state.applySmoothingPatch request).process =
      (call.perform request.system state.process).2 :=
    (apply_process state branch present request).2
  unfold Followed
  rw [applied, kept]
  constructor
  · intro grants
    rw [if_pos (granted.mpr grants)] at performed
    exact performed
  · intro refuses
    rw [if_neg (mt granted.mp refuses)] at performed
    exact performed

theorem Followed.concat {requests : List SmoothingRequest} (state : SmoothingState)
    (request : SmoothingRequest) (branch : state.gBranch = branchAddr)
    (present : branchAddr ≠ 0) (named : name ≠ [])
    (before : state.process = met name branchAddr start requests)
    (written : TransitionRun.Latest (met name branchAddr start) (Grants branchAddr) requests latest)
    (held : Followed name branchAddr start latest state.process) :
    ∃ later, TransitionRun.Latest (met name branchAddr start) (Grants branchAddr)
        (requests ++ [request]) later ∧
      Followed name branchAddr start later (state.applySmoothingPatch request).process := by
  have current : state.process.currentHookName = name := by
    rw [before]
    rfl
  obtain ⟨follows, keeps⟩ := held.apply branch present named current request
  by_cases grants : Grants branchAddr state.process request
  · exact ⟨some request, TransitionRun.latest_concat_of_pos (before ▸ grants), follows grants⟩
  · exact ⟨latest, written.concat_of_neg (before ▸ grants), keeps grants⟩

theorem run_first (jump : start.image branchAddr = opJnz) (first : SmoothingRequest) :
    run name branchAddr start [first] =
      ((applySmoothingPatch first ⟨{ start with currentHookName := name }, branchAddr, []⟩).logs
        .installed).setName [] := by
  simp [run, install, setName, jump]

theorem run_concat (jump : start.image branchAddr = opJnz) (first : SmoothingRequest)
    (reloads : List SmoothingRequest) (request : SmoothingRequest) :
    run name branchAddr start (first :: (reloads ++ [request])) =
      (run name branchAddr start (first :: reloads)).reload name request := by
  simp [run, install, setName, jump]

theorem run_followed (present : branchAddr ≠ 0) (named : name ≠ [])
    (jump : start.image branchAddr = opJnz) (requests : List SmoothingRequest) :
    (requests ≠ [] → (run name branchAddr start requests).gBranch = branchAddr) ∧
      ∃ latest, TransitionRun.Latest (met name branchAddr start) (Grants branchAddr) requests
          latest ∧
        Followed name branchAddr start latest (run name branchAddr start requests).process := by
  induction requests using List.reverseRecOn with
  | nil =>
      refine ⟨fun nonempty => absurd rfl nonempty, none, TransitionRun.latest_nil, ?_⟩
      exact WriteCall.writtenAt_start branchAddr 1 { start with currentHookName := name }
  | append_singleton before request ih =>
      obtain ⟨branch, latest, written, held⟩ := ih
      cases before with
      | nil =>
          let blank : SmoothingState :=
            { process := { start with currentHookName := name }, gBranch := branchAddr, log := [] }
          obtain ⟨later, next, follows⟩ :=
            Followed.concat blank request rfl present named rfl written held
          rw [List.nil_append, run_first jump]
          exact ⟨fun _ => (apply_process blank rfl present request).1, later, next, follows⟩
      | cons first reloads =>
          have old := branch (List.cons_ne_nil _ _)
          let entered := (run name branchAddr start (first :: reloads)).setName name
          obtain ⟨later, next, follows⟩ :=
            Followed.concat entered request old present named rfl written held
          rw [List.cons_append, run_concat jump]
          exact ⟨fun _ => (apply_process entered old present request).1, later, next, follows⟩

theorem run_refused (other : start.image branchAddr ≠ opJnz)
    (requests : List SmoothingRequest) :
    (run name branchAddr start requests).process.image = start.image ∧
      (run name branchAddr start requests).process.patches = start.patches := by
  cases requests with
  | nil => exact ⟨rfl, rfl⟩
  | cons first reloads => simp [run, install, setName, logs, other]

/-- Over `install` and every reload, whichever writes the system refuses, the game's code is as it
was but for the opcode that the latest request let through asks for, and the registry holds the jump
that was there before. Where another opcode was there nothing is changed. -/
theorem run_follows_latest (present : branchAddr ≠ 0) (named : name ≠ []) (start : Process)
    (requests : List SmoothingRequest) :
    let final := (run name branchAddr start requests).process
    if start.image branchAddr = 0x75 then
      ∃ latest, TransitionRun.Latest (met name branchAddr start) (Grants branchAddr) requests
          latest ∧
        final.image = latest.elim start.image (fun request =>
          ByteImage.overlay start.image branchAddr [if request.disable then 0xEB else 0x75]) ∧
        final.patches = if latest.isSome then
          start.patches.registerPatch branchAddr 1 [0x75] name .byteWrite else start.patches
    else final.image = start.image ∧ final.patches = start.patches := by
  simp only
  split
  · next jump =>
      obtain ⟨-, latest, written, held⟩ := run_followed present named jump requests
      refine ⟨latest, written, ?_, ?_⟩
      · have image := held.image
        cases latest with
        | none => exact image
        | some request => exact image
      · have original : ByteImage.read start.image branchAddr 1 = [0x75] := by
          rw [ByteImage.read_succ, jump]
          rfl
        have patches := held.patches
        simp only [original, Option.isSome_map] at patches
        exact patches
  · next other => exact run_refused other requests

end SmoothingState

def refusing : System where
  virtualProtect := fun _ _ _ _ => none
  ntProtect := fun _ _ _ _ => none

def unsmoothed : Process :=
  { untouched with image := ByteImage.overlay untouched.image 0x140002000 [opJnz] }

def smoothingRequests : List SmoothingRequest :=
  [⟨true, granting⟩, ⟨false, refusing⟩, ⟨true, granting⟩]

theorem run_follows_latest_refused :
    let final := (SmoothingState.run "CameraSmoothing".toList 0x140002000 unsmoothed
      smoothingRequests).process
    ∃ latest, TransitionRun.Latest
        (SmoothingState.met "CameraSmoothing".toList 0x140002000 unsmoothed)
        (SmoothingState.Grants 0x140002000) smoothingRequests latest ∧
      final.image = latest.elim unsmoothed.image (fun request =>
        ByteImage.overlay unsmoothed.image 0x140002000 [if request.disable then 0xEB else 0x75]) ∧
      final.patches = if latest.isSome then
        unsmoothed.patches.registerPatch 0x140002000 1 [0x75] "CameraSmoothing".toList .byteWrite
      else unsmoothed.patches := by
  have jump : unsmoothed.image 0x140002000 = 0x75 := by decide +kernel
  have followed := @SmoothingState.run_follows_latest "CameraSmoothing".toList 0x140002000
    (by decide) (by decide) unsmoothed smoothingRequests
  simp only [if_pos jump] at followed
  exact followed

end PatchFix.Syndicate
