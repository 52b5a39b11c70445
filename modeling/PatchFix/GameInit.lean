import PatchFix.IntegrityBypass
import PatchFix.RegistryInstall
import PatchFix.Syndicate.AllHooks

/-! `init_game` and what is left of it when the plugin is detached during the packer's waits. -/

namespace PatchFix

variable {Pattern Value : Type} {hooks : HookList Pattern Value}

/-- What `init_game` reads and what the calls it makes return. `thrownAfter` is the number of
hooks that had their turn before an exception left `install_all`. -/
structure InitInputs (hooks : HookList Pattern Value) where
  stop : StopToken
  packer : PackerRun
  journalCreated : Bool
  startedAt : Text
  iniFile : Option INIStructure
  scanned : Pattern → Option UInt64
  installOrder : List (Fin hooks.count)
  outcome : Fin hooks.count → InstallOutcome
  thrownAfter : Option Nat
  completedAt : Text

structure InitRun (hooks : HookList Pattern Value) where
  waits : List WaitEnd
  registry : Registry hooks
  journal : Journal
  records : List Text
  installAllRan : Bool
  watcher : Bool

namespace InitRun

def writeRecord (line : Text) (run : InitRun hooks) : InitRun hooks :=
  { run with journal := run.journal.writeLine line, records := run.records ++ [line] }

def writeSessionStart (now : Text) (run : InitRun hooks) : InitRun hooks :=
  writeRecord (Journal.sessionStartLine now) { run with journal := run.journal.rewind }

def installAll (inputs : InitInputs hooks) (run : InitRun hooks) : InitRun hooks :=
  let turns := match inputs.thrownAfter with
    | none => inputs.installOrder
    | some count => inputs.installOrder.take count
  let installs := run.registry.installAll turns inputs.scanned inputs.outcome
    (inputs.iniFile.getD INIStructure.empty) run.journal
  { run with
    registry := installs.registry
    journal := installs.journal
    records := run.records ++ (installsOf installs.trace).map fun index =>
      Journal.hookInstalledLine (hooks.traits index).name
    installAllRan := true }

end InitRun

def initGame (vmprotect : Bool) (inputs : InitInputs hooks) (registry : Registry hooks)
    (journal : Journal) : InitRun hooks :=
  let waits := if vmprotect then
    [waitForUnpack inputs.stop inputs.packer, waitForIntegrityBlocked inputs.stop inputs.packer]
  else []
  let journal := journal.openFile inputs.journalCreated
  let run : InitRun hooks :=
    { waits, registry, journal, records := [], installAllRan := false, watcher := false }
  let run := (run.writeSessionStart inputs.startedAt).installAll inputs
  if inputs.thrownAfter.isSome then run
  else { run.writeRecord (Journal.initCompleteLine inputs.completedAt) with watcher := true }

theorem initGame_waits (inputs : InitInputs hooks) (registry : Registry hooks)
    (journal : Journal) :
    (initGame true inputs registry journal).waits =
      [waitForUnpack inputs.stop inputs.packer,
        waitForIntegrityBlocked inputs.stop inputs.packer] := by
  simp only [initGame, if_true]
  split
  · rfl
  · rfl

theorem initGame_installAllRan (vmprotect : Bool) (inputs : InitInputs hooks)
    (registry : Registry hooks) (journal : Journal) :
    (initGame vmprotect inputs registry journal).installAllRan = true := by
  simp only [initGame]
  split
  · rfl
  · rfl

/-! The records are what the journal holds after them. -/

theorem InstallRun.turn_journal (addrs : Pattern → Option UInt64)
    (outcome : Fin hooks.count → InstallOutcome) {start : Journal} {run : InstallRun hooks}
    (index : Fin hooks.count)
    (held : run.journal = InstallRun.journalWith start (installsOf run.trace)) :
    (run.turn addrs outcome index).journal =
      InstallRun.journalWith start (installsOf (run.turn addrs outcome index).trace) := by
  have turned : InstallRun.Turned addrs outcome run index (run.turn addrs outcome index) :=
    InstallRun.turn_cases run index
  generalize run.turn addrs outcome index = run' at turned
  cases turned with
  | skipped notReady => simpa [installsOf] using held
  | failed ready fails => simpa [installsOf] using held
  | installed ready succeeds =>
      simp only [installsOf_append, InstallRun.journalWith_append, ← held]
      rfl

theorem installAll_journal (addrs : Pattern → Option UInt64)
    (outcome : Fin hooks.count → InstallOutcome) (ini : INIStructure) (journal : Journal)
    (registry : Registry hooks) (order : List (Fin hooks.count)) :
    let installs := registry.installAll order addrs outcome ini journal
    installs.journal = InstallRun.journalWith journal (installsOf installs.trace) := by
  apply PartialFold.foldl_invariant fun _ (run : InstallRun hooks) =>
    run.journal = InstallRun.journalWith journal (installsOf run.trace)
  · rfl
  · intro done index rest run split held
    exact InstallRun.turn_journal addrs outcome index held

def InitRun.Recorded (start : Journal) (run : InitRun hooks) : Prop :=
  run.journal = run.records.foldl (fun journal line => journal.writeLine line) start

theorem InitRun.Recorded.writeRecord {start : Journal} {run : InitRun hooks}
    (recorded : run.Recorded start) (line : Text) : (run.writeRecord line).Recorded start := by
  unfold InitRun.Recorded InitRun.writeRecord
  rw [List.foldl_append, ← recorded]
  rfl

theorem InitRun.writeSessionStart_recorded {run : InitRun hooks} (unwritten : run.records = [])
    (now : Text) : (run.writeSessionStart now).Recorded run.journal.rewind := by
  have opened : InitRun.Recorded run.journal.rewind
      { run with journal := run.journal.rewind } := by
    unfold InitRun.Recorded
    simp only [unwritten, List.foldl_nil]
  exact opened.writeRecord (Journal.sessionStartLine now)

theorem InitRun.Recorded.installAll {start : Journal} {run : InitRun hooks}
    (recorded : run.Recorded start) (inputs : InitInputs hooks) :
    (run.installAll inputs).Recorded start := by
  unfold InitRun.Recorded InitRun.installAll
  dsimp only
  rw [installAll_journal, List.foldl_append, ← recorded, List.foldl_map]
  rfl

theorem initGame_recorded (vmprotect : Bool) (inputs : InitInputs hooks)
    (registry : Registry hooks) (journal : Journal) :
    (initGame vmprotect inputs registry journal).Recorded
      (journal.openFile inputs.journalCreated).rewind := by
  unfold initGame
  generalize (if vmprotect then _ else _ : List WaitEnd) = waits
  let opened : InitRun hooks :=
    ⟨waits, registry, journal.openFile inputs.journalCreated, [], false, false⟩
  have started := opened.writeSessionStart_recorded rfl inputs.startedAt
  have installed := started.installAll inputs
  dsimp only
  split
  · exact installed
  · exact installed.writeRecord (Journal.initCompleteLine inputs.completedAt)

/-- After a wait returned because it saw the stop request, nothing is installed or started. -/
def InitRun.StopHonoured (run : InitRun hooks) : Prop :=
  .cancelled ∈ run.waits →
    run.installAllRan = false ∧ run.records = [] ∧ run.watcher = false

theorem initGame_stopHonoured (inputs : InitInputs hooks) (registry : Registry hooks)
    (journal : Journal) :
    (initGame true inputs registry journal).StopHonoured ↔
      waitForUnpack inputs.stop inputs.packer ≠ .cancelled ∧
        waitForIntegrityBlocked inputs.stop inputs.packer ≠ .cancelled := by
  unfold InitRun.StopHonoured
  simp only [initGame_waits, initGame_installAllRan, List.mem_cons, List.not_mem_nil, or_false,
    Bool.true_eq_false, false_and, imp_false, not_or, ne_comm, ne_eq]

theorem initGame_stopHonoured_iff (inputs : InitInputs hooks) (registry : Registry hooks)
    (journal : Journal) :
    (initGame true inputs registry journal).StopHonoured ↔
      ¬UnpackObserves inputs.stop inputs.packer ∧
        ¬IntegrityObserves inputs.stop inputs.packer := by
  rw [initGame_stopHonoured, ne_eq, waitForUnpack_cancelled, ne_eq,
    waitForIntegrityBlocked_cancelled]

def Syndicate.detachedInputs : InitInputs Syndicate.bareHooks where
  stop := ⟨some 0⟩
  packer := {
    activeAtUnpack := true
    activeAtIntegrity := true
    hasText := true
    textByte := fun _ => 0
    blockedCount := fun _ => 0
  }
  journalCreated := true
  startedAt := []
  iniFile := none
  scanned := fun _ => some 0
  installOrder := List.finRange 8
  outcome := fun _ => .succeeded
  thrownAfter := none
  completedAt := []

theorem initGame_ignores_stop :
    ¬ (initGame true Syndicate.detachedInputs (Registry.initial Syndicate.bareHooks)
        (Journal.atLoad none)).StopHonoured := by
  rw [initGame_stopHonoured]
  rintro ⟨uncancelled, _⟩
  exact uncancelled (waitForUnpack_cancelled.mpr
    ⟨rfl, rfl, rfl, 0, by decide, rfl, fun _ _ => rfl⟩)

end PatchFix
