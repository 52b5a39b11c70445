import PatchFix.Library.Binary32Order
import PatchFix.Library.TransitionRun
import PatchFix.PatchOriginals

/-!
Syndicate's `FPSUnlock`: one call patches three sites by writes that may each fail. Floats are
written as the bytes that represent them.
-/

namespace PatchFix.Syndicate

def jnbOpcode : UInt8 := 0x73
def jmpOpcode : UInt8 := 0xEB
def flagGateLen : UInt64 := 6
def minFps : Binary32 := 1

structure FpsAddrs where
  flagGate : UInt64
  sleepBranch : UInt64
  frameTime : UInt64

structure FpsCaptured where
  flagGate : Vector UInt8 flagGateLen.toNat
  frameTime : Vector UInt8 4

section Writes

variable (floatBytes : Binary32 → Vector UInt8 4) (addrs : FpsAddrs) (captured : FpsCaptured)

def uncaps (target : Binary32) : Bool := (target.max 0).lt minFps

def gateWrite (target : Binary32) : WriteCall :=
  if uncaps target then .write addrs.flagGate flagGateLen captured.flagGate
  else .nop addrs.flagGate flagGateLen

def branchWrite (target : Binary32) : WriteCall :=
  .writeValue 1 (by decide) addrs.sleepBranch
    #v[if uncaps target then jmpOpcode else jnbOpcode]

def timeWrite (target : Binary32) : WriteCall :=
  .writeValue 4 (by decide) addrs.frameTime
    (if uncaps target then captured.frameTime
      else floatBytes (Binary32.thousand.div (target.max 0)))

structure FpsOutcome where
  gateOk : Bool
  branchOk : Bool
  timeOk : Bool
  deriving DecidableEq, Repr

def applyFpsPatch (system : System) (target : Binary32) (process : Process) :
    FpsOutcome × Process :=
  let (gateOk, process) := (gateWrite addrs captured target).perform system process
  let (branchOk, process) := (branchWrite addrs target).perform system process
  let (timeOk, process) := (timeWrite floatBytes addrs captured target).perform system process
  (⟨gateOk, branchOk, timeOk⟩, process)

end Writes

/-! The three sites on their own. -/

@[ext] structure FpsSites where
  flagGate : List UInt8
  sleepBranch : List UInt8
  frameTime : List UInt8

structure FpsCall where
  target : Binary32
  single : target.IsSingle
  outcome : FpsOutcome

section Sites

variable (floatBytes : Binary32 → Vector UInt8 4) (captured : FpsCaptured)

def FpsCaptured.uncapped : FpsSites where
  flagGate := captured.flagGate.toList
  sleepBranch := [jmpOpcode]
  frameTime := captured.frameTime.toList

def cappedFor (target : Binary32) : FpsSites where
  flagGate := List.replicate flagGateLen.toNat Mem.opNop
  sleepBranch := [jnbOpcode]
  frameTime := (floatBytes (Binary32.thousand.div target)).toList

def wanted (target : Binary32) : FpsSites :=
  if uncaps target then captured.uncapped else cappedFor floatBytes (target.max 0)

def FpsSites.patched (sites : FpsSites) (call : FpsCall) : FpsSites :=
  let wanted := wanted floatBytes captured call.target
  { flagGate := if call.outcome.gateOk then wanted.flagGate else sites.flagGate
    sleepBranch := if call.outcome.branchOk then wanted.sleepBranch else sites.sleepBranch
    frameTime := if call.outcome.timeOk then wanted.frameTime else sites.frameTime }

end Sites

/-! The sites in memory. -/

def FpsAddrs.sites (addrs : FpsAddrs) (image : ByteImage.Image) : FpsSites where
  flagGate := ByteImage.read image addrs.flagGate flagGateLen.toNat
  sleepBranch := ByteImage.read image addrs.sleepBranch 1
  frameTime := ByteImage.read image addrs.frameTime 4

structure FpsAddrs.Apart (addrs : FpsAddrs) : Prop where
  gateBranch : ByteImage.Apart addrs.flagGate flagGateLen.toNat addrs.sleepBranch 1
  gateTime : ByteImage.Apart addrs.flagGate flagGateLen.toNat addrs.frameTime 4
  branchTime : ByteImage.Apart addrs.sleepBranch 1 addrs.frameTime 4

section Writes

variable (floatBytes : Binary32 → Vector UInt8 4) (addrs : FpsAddrs) (captured : FpsCaptured)

theorem gateWrite_spec (target : Binary32) :
    (gateWrite addrs captured target).address = addrs.flagGate ∧
      (gateWrite addrs captured target).bytes = (wanted floatBytes captured target).flagGate ∧
        (gateWrite addrs captured target).bytes.length = flagGateLen.toNat := by
  unfold gateWrite wanted
  split
  · exact ⟨rfl, rfl, captured.flagGate.length_toList⟩
  · exact ⟨rfl, rfl, List.length_replicate⟩

theorem branchWrite_bytes (target : Binary32) :
    (branchWrite addrs target).bytes = (wanted floatBytes captured target).sleepBranch := by
  unfold branchWrite wanted
  split
  · rfl
  · rfl

theorem timeWrite_bytes (target : Binary32) :
    (timeWrite floatBytes addrs captured target).bytes =
      (wanted floatBytes captured target).frameTime := by
  unfold timeWrite wanted
  split
  · rfl
  · rfl

theorem applyFpsPatch_sites (apart : addrs.Apart) (system : System) {target : Binary32}
    (single : target.IsSingle) (process : Process) :
    addrs.sites (applyFpsPatch floatBytes addrs captured system target process).2.image =
      (addrs.sites process.image).patched floatBytes captured
        ⟨target, single, (applyFpsPatch floatBytes addrs captured system target process).1⟩ := by
  obtain ⟨gateAt, gateBytes, gateLength⟩ := gateWrite_spec floatBytes addrs captured target
  have branchBytes := branchWrite_bytes floatBytes addrs captured target
  have timeBytes := timeWrite_bytes floatBytes addrs captured target
  have branchLength : (branchWrite addrs target).bytes.length = 1 := rfl
  have timeLength : (timeWrite floatBytes addrs captured target).bytes.length = 4 :=
    Vector.length_toList
  have branchAt : (branchWrite addrs target).address = addrs.sleepBranch := rfl
  have timeAt : (timeWrite floatBytes addrs captured target).address = addrs.frameTime := rfl
  obtain ⟨gateBranch, gateTime, branchTime⟩ := apart
  rw [← gateAt, ← branchAt] at gateBranch
  rw [← gateAt, ← timeAt] at gateTime
  rw [← branchAt, ← timeAt] at branchTime
  simp only [applyFpsPatch, FpsAddrs.sites, FpsSites.patched, FpsSites.mk.injEq, ← gateBytes,
    ← branchBytes, ← timeBytes, ← gateAt, ← branchAt, ← timeAt]
  refine ⟨?_, ?_, ?_⟩
  · rw [WriteCall.read_perform_apart system _ timeLength gateTime.symm,
      WriteCall.read_perform_apart system _ branchLength gateBranch.symm,
      WriteCall.read_perform system _ gateLength]
  · rw [WriteCall.read_perform_apart system _ timeLength branchTime.symm,
      WriteCall.read_perform system _ branchLength,
      WriteCall.read_perform_apart system _ gateLength gateBranch]
  · rw [WriteCall.read_perform system _ timeLength,
      WriteCall.read_perform_apart system _ branchLength branchTime,
      WriteCall.read_perform_apart system _ gateLength gateTime]

end Writes

section Runs

variable (floatBytes : Binary32 → Vector UInt8 4) (captured : FpsCaptured)

def FpsCaptured.original (branch : UInt8) : FpsSites where
  flagGate := captured.flagGate.toList
  sleepBranch := [branch]
  frameTime := captured.frameTime.toList

def FpsAddrs.capture (addrs : FpsAddrs) (image : ByteImage.Image) : FpsCaptured where
  flagGate := ⟨(ByteImage.read image addrs.flagGate flagGateLen.toNat).toArray, by simp⟩
  frameTime := ⟨(ByteImage.read image addrs.frameTime 4).toArray, by simp⟩

theorem sites_capture (addrs : FpsAddrs) (image : ByteImage.Image) :
    addrs.sites image = (addrs.capture image).original (image addrs.sleepBranch) := by
  simp [FpsAddrs.sites, FpsAddrs.capture, FpsCaptured.original, ByteImage.read]

def IsCapped (sites : FpsSites) : Prop :=
  ∃ target : Binary32, target.IsSingle ∧ uncaps target = false ∧
    sites = cappedFor floatBytes (target.max 0)

/-- After a call the sites are as before it, all uncapped or all capped for one target. -/
def Unmixed (sites : FpsSites) (call : FpsCall) : Prop :=
  sites.patched floatBytes captured call = sites ∨
    sites.patched floatBytes captured call = captured.uncapped ∨
      IsCapped floatBytes (sites.patched floatBytes captured call)

def FailuresHarmless (sites : FpsSites) (call : FpsCall) : Prop :=
  (call.outcome.gateOk = false →
    sites.flagGate = (wanted floatBytes captured call.target).flagGate) ∧
  (call.outcome.branchOk = false →
    sites.sleepBranch = (wanted floatBytes captured call.target).sleepBranch) ∧
  (call.outcome.timeOk = false →
    sites.frameTime = (wanted floatBytes captured call.target).frameTime)

def SuccessesIdle (sites : FpsSites) (call : FpsCall) : Prop :=
  (call.outcome.gateOk = true →
    (wanted floatBytes captured call.target).flagGate = sites.flagGate) ∧
  (call.outcome.branchOk = true →
    (wanted floatBytes captured call.target).sleepBranch = sites.sleepBranch) ∧
  (call.outcome.timeOk = true →
    (wanted floatBytes captured call.target).frameTime = sites.frameTime)

/-- The frame time that `install` found is that of a cap, and the call leaves it under the other
two bytes of one. -/
def OwnTimeCaps (sites : FpsSites) (call : FpsCall) : Prop :=
  ∃ target : Binary32, target.IsSingle ∧ uncaps target = false ∧
    captured.frameTime.toList = (cappedFor floatBytes (target.max 0)).frameTime ∧
    (if call.outcome.gateOk then (wanted floatBytes captured call.target).flagGate
      else sites.flagGate) = List.replicate flagGateLen.toNat Mem.opNop ∧
    (if call.outcome.branchOk then (wanted floatBytes captured call.target).sleepBranch
      else sites.sleepBranch) = [jnbOpcode] ∧
    (if call.outcome.timeOk then (wanted floatBytes captured call.target).frameTime
      else sites.frameTime) = captured.frameTime.toList

def Consistent (sites : FpsSites) (call : FpsCall) : Prop :=
  FailuresHarmless floatBytes captured sites call ∨ SuccessesIdle floatBytes captured sites call ∨
    OwnTimeCaps floatBytes captured sites call

def Reached (sites : FpsSites) : Prop :=
  (sites.flagGate = captured.flagGate.toList ∧ sites.frameTime = captured.frameTime.toList) ∨
    IsCapped floatBytes sites

variable {floatBytes captured} {sites : FpsSites} {call : FpsCall}

theorem patched_eq_wanted_iff :
    sites.patched floatBytes captured call = wanted floatBytes captured call.target ↔
      FailuresHarmless floatBytes captured sites call := by
  obtain ⟨target, single, gateOk, branchOk, timeOk⟩ := call
  rw [FpsSites.patched, FpsSites.ext_iff, FailuresHarmless]
  cases gateOk <;> cases branchOk <;> cases timeOk <;> simp

theorem patched_eq_self_iff :
    sites.patched floatBytes captured call = sites ↔
      SuccessesIdle floatBytes captured sites call := by
  obtain ⟨target, single, gateOk, branchOk, timeOk⟩ := call
  rw [FpsSites.patched, FpsSites.ext_iff, SuccessesIdle]
  cases gateOk <;> cases branchOk <;> cases timeOk <;> simp

theorem ownTimeCaps_iff :
    OwnTimeCaps floatBytes captured sites call ↔
      ∃ target : Binary32, target.IsSingle ∧ uncaps target = false ∧
        captured.frameTime.toList = (cappedFor floatBytes (target.max 0)).frameTime ∧
          sites.patched floatBytes captured call = cappedFor floatBytes (target.max 0) := by
  refine exists_congr fun target => and_congr_right fun _ => and_congr_right fun _ =>
    and_congr_right fun same => ?_
  rw [FpsSites.ext_iff, same]
  exact Iff.rfl

theorem IsCapped.fields (isCapped : IsCapped floatBytes sites) :
    sites.flagGate = List.replicate flagGateLen.toNat Mem.opNop ∧
      sites.sleepBranch = [jnbOpcode] := by
  obtain ⟨target, _, _, rfl⟩ := isCapped
  exact ⟨rfl, rfl⟩

theorem wanted_intended {target : Binary32} (single : target.IsSingle) :
    wanted floatBytes captured target = captured.uncapped ∨
      IsCapped floatBytes (wanted floatBytes captured target) := by
  unfold wanted
  by_cases uncap : uncaps target = true
  · exact Or.inl (if_pos uncap)
  · rw [if_neg uncap]
    exact Or.inr ⟨target, single, Bool.not_eq_true _ ▸ uncap, rfl⟩

theorem Consistent.unmixed (consistent : Consistent floatBytes captured sites call) :
    Unmixed floatBytes captured sites call := by
  rcases consistent with failures | successes | own
  · rw [Unmixed, patched_eq_wanted_iff.mpr failures]
    exact Or.inr (wanted_intended call.single)
  · exact Or.inl (patched_eq_self_iff.mpr successes)
  · obtain ⟨target, single, caps, _, result⟩ := ownTimeCaps_iff.mp own
    exact Or.inr (Or.inr ⟨target, single, caps, result⟩)

theorem Reached.next (reached : Reached floatBytes captured sites)
    (consistent : Consistent floatBytes captured sites call) :
    Reached floatBytes captured (sites.patched floatBytes captured call) := by
  rcases consistent.unmixed with same | isUncapped | isCapped
  · rwa [same]
  · rw [isUncapped]
    exact Or.inl ⟨rfl, rfl⟩
  · exact Or.inr isCapped

theorem branch_differs : [jnbOpcode] ≠ [jmpOpcode] := by decide

theorem consistent_of_uncapped (reached : Reached floatBytes captured sites)
    (result : sites.patched floatBytes captured call = captured.uncapped) :
    Consistent floatBytes captured sites call := by
  by_cases uncap : uncaps call.target = true
  · refine Or.inl (patched_eq_wanted_iff.mp ?_)
    rw [result, wanted, if_pos uncap]
  · -- A cap never writes `jmp`: the branch was not written, and was uncapped before.
    have branch := congrArg FpsSites.sleepBranch result
    simp only [FpsSites.patched, wanted, uncap] at branch
    split at branch
    · exact absurd branch branch_differs
    · rcases reached with ⟨gate, time⟩ | isCapped
      · refine Or.inr (Or.inl (patched_eq_self_iff.mp ?_))
        rw [result]
        exact FpsSites.ext gate.symm branch.symm time.symm
      · exact absurd (isCapped.fields.2.symm.trans branch) branch_differs

theorem consistent_of_capped (reached : Reached floatBytes captured sites)
    (result : IsCapped floatBytes (sites.patched floatBytes captured call)) :
    Consistent floatBytes captured sites call := by
  obtain ⟨target, single, caps, result⟩ := result
  have gate := congrArg FpsSites.flagGate result
  have branch := congrArg FpsSites.sleepBranch result
  have time := congrArg FpsSites.frameTime result
  have ownTime : captured.frameTime.toList = (cappedFor floatBytes (target.max 0)).frameTime →
      Consistent floatBytes captured sites call :=
    fun own => Or.inr (Or.inr (ownTimeCaps_iff.mpr ⟨target, single, caps, own, result⟩))
  by_cases timeOk : call.outcome.timeOk = true
  · simp only [FpsSites.patched, timeOk, if_true] at time
    by_cases uncap : uncaps call.target = true
    · rw [wanted, if_pos uncap] at time
      exact ownTime time
    · refine Or.inl (patched_eq_wanted_iff.mp ?_)
      have capped : wanted floatBytes captured call.target =
          cappedFor floatBytes (call.target.max 0) := if_neg uncap
      rw [result, FpsSites.ext_iff, ← time, capped]
      exact ⟨rfl, rfl, rfl⟩
  · simp only [FpsSites.patched, timeOk] at time
    rcases reached with ⟨_, held⟩ | isCapped
    · exact ownTime (held.symm.trans time)
    · refine Or.inr (Or.inl (patched_eq_self_iff.mp ?_))
      obtain ⟨sameGate, sameBranch⟩ := isCapped.fields
      rw [result]
      exact FpsSites.ext sameGate.symm sameBranch.symm time.symm

theorem unmixed_iff (reached : Reached floatBytes captured sites) :
    Unmixed floatBytes captured sites call ↔ Consistent floatBytes captured sites call := by
  refine ⟨?_, Consistent.unmixed⟩
  rintro (same | isUncapped | isCapped)
  · exact Or.inr (Or.inl (patched_eq_self_iff.mp same))
  · exact consistent_of_uncapped reached isUncapped
  · exact consistent_of_capped reached isCapped

variable (floatBytes captured) in
theorem run_unmixed_iff (branch : UInt8) (calls : List FpsCall) :
    TransitionRun.Along (FpsSites.patched floatBytes captured) (Unmixed floatBytes captured)
        (captured.original branch) calls ↔
      TransitionRun.Along (FpsSites.patched floatBytes captured) (Consistent floatBytes captured)
        (captured.original branch) calls :=
  TransitionRun.along_iff (Reached floatBytes captured) (fun _ _ reached => unmixed_iff reached)
    (fun _ _ reached consistent => reached.next consistent) (Or.inl ⟨rfl, rfl⟩) calls

end Runs

def gameBytes : FpsCaptured where
  flagGate := #v[0xF6, 0x41, 0x08, 0x01, 0x74, 0x10]
  frameTime := #v[0x4D, 0x55, 0x01, 0x42]

def sixtyFps (_ : Binary32) : Vector UInt8 4 := #v[0x55, 0x55, 0x85, 0x41]

def halfCapped : FpsCall where
  target := .finite 60 (by norm_num [Binary32.maxFinite])
  single := ⟨60, 0, by norm_num, by decide, by norm_num⟩
  outcome := ⟨false, true, true⟩

theorem halfCapped_mixed :
    ¬∀ (floatBytes : Binary32 → Vector UInt8 4) (captured : FpsCaptured) (branch : UInt8)
      (calls : List FpsCall), TransitionRun.Along (FpsSites.patched floatBytes captured)
        (Unmixed floatBytes captured) (captured.original branch) calls := by
  intro claimed
  obtain ⟨unmixed, _⟩ := claimed sixtyFps gameBytes jnbOpcode [halfCapped]
  rcases unmixed with same | isUncapped | isCapped
  · exact absurd (congrArg FpsSites.frameTime same) (by decide)
  · exact absurd (congrArg FpsSites.sleepBranch isUncapped) (by decide)
  · exact absurd isCapped.fields.1 (by decide)

end PatchFix.Syndicate
