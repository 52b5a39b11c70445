import Mathlib.Algebra.Group.Nat.Defs
import Mathlib.Logic.Function.Basic
import PatchFix.CrashHandler
import PatchFix.Library.TransitionRun

/-!
Hardware faults on all threads and what `veh_handler` reports of them over a run. The counter of the
faults elsewhere in the process is one for all threads, and it wraps.
-/

namespace PatchFix

structure HardwareFault where
  code : UInt32
  rip : UInt64
  hardware : isHardwareException code = true

def SharedDiagnostics.atLoad (moduleBase moduleEnd : UInt64) (patches : PatchTable) :
    SharedDiagnostics where
  moduleBase := moduleBase
  moduleEnd := moduleEnd
  foreignFaults := 0
  patches := patches

namespace HardwareFault

def isOverflow (fault : HardwareFault) : Bool := fault.code == exceptionStackOverflow

def isOurs (shared : SharedDiagnostics) (fault : HardwareFault) : Bool :=
  shared.isPluginAddress fault.rip || shared.isPatchedAddress fault.rip

def isForeign (shared : SharedDiagnostics) (fault : HardwareFault) : Bool :=
  !fault.isOverflow && !fault.isOurs shared

end HardwareFault

abbrev FaultAnswer := HardwareFault × List ReportStep

def FaultAnswer.isReported (answer : FaultAnswer) : Bool :=
  decide (ReportStep.logCrashReportLightweight ∈ answer.2)

/-- `returned` is the end of a `veh_handler` that constructed its `VehReentryGuard`. -/
inductive HandlerEvent (Thread : Type*) where
  | raised (thread : Thread) (fault : HardwareFault)
  | returned (thread : Thread)

def HandlerEvent.raisedFault {Thread : Type*} : HandlerEvent Thread → Option HardwareFault
  | raised _ fault => some fault
  | returned _ => none

structure HandlerState (Thread : Type*) where
  shared : SharedDiagnostics
  tlInVeh : Thread → Bool
  answers : List FaultAnswer

namespace HandlerState

variable {Thread : Type*}

def start (memory : SharedDiagnostics) : HandlerState Thread where
  shared := memory
  tlInVeh := fun _ => false
  answers := []

variable [DecidableEq Thread]

def step (state : HandlerState Thread) : HandlerEvent Thread → HandlerState Thread
  | .raised thread fault =>
      let answer := vehHandler fault.code fault.rip (state.tlInVeh thread) state.shared
      { shared := answer.2
        tlInVeh :=
          Function.update state.tlInVeh thread (state.tlInVeh thread || !fault.isOverflow)
        answers := state.answers ++ [(fault, answer.1)] }
  | .returned thread => { state with tlInVeh := Function.update state.tlInVeh thread false }

def NotNested (state : HandlerState Thread) : HandlerEvent Thread → Prop
  | .raised thread _ => state.tlInVeh thread = false
  | .returned _ => True

def foreignFaults (shared : SharedDiagnostics) (state : HandlerState Thread) : Nat :=
  state.answers.countP fun answer => answer.1.isForeign shared

def foreignReports (shared : SharedDiagnostics) (state : HandlerState Thread) : Nat :=
  state.answers.countP fun answer => !answer.1.isOurs shared && answer.isReported

/-- How many of the first counted faults find the wrapped counter below the maximum. -/
def admitted (counted : Nat) : Nat :=
  kMaxForeignFaults.toNat * (counted / 2 ^ 32) + min kMaxForeignFaults.toNat (counted % 2 ^ 32)

theorem admitted_succ (counted : Nat) :
    admitted (counted + 1) =
      admitted counted + if UInt32.ofNat counted < kMaxForeignFaults then 1 else 0 := by
  have below : UInt32.ofNat counted < kMaxForeignFaults ↔ counted % 2 ^ 32 < 8 := by
    rw [UInt32.lt_iff_toNat_lt, UInt32.toNat_ofNat']
    exact Iff.rfl
  have maximum : kMaxForeignFaults.toNat = 8 := rfl
  simp only [admitted, below, maximum]
  split <;> omega

theorem admitted_le {counted : Nat} : admitted counted ≤ kMaxForeignFaults.toNat ↔
    counted ≤ 2 ^ 32 := by
  have maximum : kMaxForeignFaults.toNat = 8 := rfl
  rw [admitted, maximum]
  omega

theorem vehHandler_cases (fault : HardwareFault) (shared : SharedDiagnostics) :
    (fault.isOverflow = true ∧ vehHandler fault.code fault.rip false shared = ([], shared)) ∨
      (fault.isOverflow = false ∧ fault.isOurs shared = true ∧
        ∃ steps, ReportStep.logCrashReportLightweight ∈ steps ∧
          vehHandler fault.code fault.rip false shared = (steps, shared)) ∨
      (fault.isOverflow = false ∧ fault.isOurs shared = false ∧
        vehHandler fault.code fault.rip false shared =
          (if shared.foreignFaults < kMaxForeignFaults then [.logCrashReportLightweight] else [],
            { shared with foreignFaults := shared.foreignFaults + 1 })) := by
  unfold vehHandler HardwareFault.isOverflow HardwareFault.isOurs
  by_cases overflow : fault.code = exceptionStackOverflow
  · exact Or.inl ⟨by simpa using overflow, by simp [overflow]⟩
  · cases plugin : shared.isPluginAddress fault.rip with
    | true =>
        exact Or.inr (Or.inl ⟨by simpa using overflow, rfl, [.logCrashReportLightweight], by simp,
          by simp [fault.hardware, overflow]⟩)
    | false =>
        cases patched : shared.isPatchedAddress fault.rip with
        | true =>
            exact Or.inr (Or.inl ⟨by simpa using overflow, rfl,
              [.logCrashReportLightweight, .logPatchAttribution], by simp,
              by simp [fault.hardware, overflow]⟩)
        | false =>
            exact Or.inr (Or.inr ⟨by simpa using overflow, rfl,
              by simp [fault.hardware, overflow]⟩)

/-- What the counter and the reports say about each other. `memory` is what the run starts with: its
plugin range and its patch table stay. -/
structure Accounts (memory : SharedDiagnostics) (state : HandlerState Thread) : Prop where
  shared : state.shared =
    { memory with foreignFaults := UInt32.ofNat (state.foreignFaults memory) }
  foreign : state.foreignReports memory = admitted (state.foreignFaults memory)
  ours : ∀ answer ∈ state.answers, answer.1.isOurs memory = true →
    FaultAnswer.isReported answer = !answer.1.isOverflow

theorem foreignFaults_raised (memory : SharedDiagnostics) (state : HandlerState Thread)
    (thread : Thread) (fault : HardwareFault) :
    (state.step (.raised thread fault)).foreignFaults memory =
      state.foreignFaults memory + if fault.isForeign memory then 1 else 0 := by
  simp [step, foreignFaults, List.countP_append, List.countP_cons]

section

variable {memory : SharedDiagnostics} {state : HandlerState Thread} {thread : Thread}
  {fault : HardwareFault} {steps : List ReportStep} {after : SharedDiagnostics}

theorem foreignReports_raised (unset : state.tlInVeh thread = false)
    (answer : vehHandler fault.code fault.rip false state.shared = (steps, after)) :
    (state.step (.raised thread fault)).foreignReports memory =
      state.foreignReports memory +
        if !fault.isOurs memory && FaultAnswer.isReported (fault, steps) then 1 else 0 := by
  simp [step, foreignReports, List.countP_append, List.countP_cons, unset, answer]

theorem mem_answers_raised (unset : state.tlInVeh thread = false)
    (answer : vehHandler fault.code fault.rip false state.shared = (steps, after))
    {member : FaultAnswer} :
    member ∈ (state.step (.raised thread fault)).answers ↔
      member ∈ state.answers ∨ member = (fault, steps) := by
  simp [step, unset, answer]

/-- What the answer to one fault must be like for the accounts to stay right. -/
theorem Accounts.answered (accounts : state.Accounts memory)
    (unset : state.tlInVeh thread = false)
    (answer : vehHandler fault.code fault.rip false state.shared = (steps, after))
    (counter : after = { state.shared with
      foreignFaults := state.shared.foreignFaults + if fault.isForeign memory then 1 else 0 })
    (foreign : fault.isOurs memory = false →
      FaultAnswer.isReported (fault, steps) =
        (fault.isForeign memory && decide (state.shared.foreignFaults < kMaxForeignFaults)))
    (ours : fault.isOurs memory = true →
      FaultAnswer.isReported (fault, steps) = !fault.isOverflow) :
    (state.step (.raised thread fault)).Accounts memory := by
  have stepShared : (state.step (.raised thread fault)).shared =
      (vehHandler fault.code fault.rip false state.shared).2 := by rw [← unset]; rfl
  have current : state.shared.foreignFaults = UInt32.ofNat (state.foreignFaults memory) := by
    rw [accounts.shared]
  have counted := foreignFaults_raised memory state thread fault
  refine ⟨?_, ?_, ?_⟩
  · rw [stepShared, answer, counter, counted, UInt32.ofNat_add, ← current, accounts.shared]
    cases fault.isForeign memory <;> rfl
  · rw [foreignReports_raised unset answer, accounts.foreign, counted]
    cases own : fault.isOurs memory with
    | true => simp [HardwareFault.isForeign, own]
    | false =>
        rw [foreign own, Bool.not_false, Bool.true_and]
        cases fault.isForeign memory with
        | false => rfl
        | true => simp [admitted_succ, current]
  · intro member inside owned
    rcases (mem_answers_raised unset answer).mp inside with old | rfl
    · exact accounts.ours member old owned
    · exact ours owned

end

theorem Accounts.raised {memory : SharedDiagnostics} {state : HandlerState Thread}
    (accounts : state.Accounts memory) {thread : Thread} (unset : state.tlInVeh thread = false)
    (fault : HardwareFault) : (state.step (.raised thread fault)).Accounts memory := by
  have sameOurs : fault.isOurs state.shared = fault.isOurs memory := by
    rw [accounts.shared]
    rfl
  rcases vehHandler_cases fault state.shared with
    ⟨overflow, answer⟩ | ⟨overflow, own, steps, reports, answer⟩ | ⟨overflow, other, answer⟩
  · have uncounted : fault.isForeign memory = false := by simp [HardwareFault.isForeign, overflow]
    refine accounts.answered unset answer (by simp [uncounted]) (fun _ => ?_) fun _ => ?_
    · rw [uncounted, Bool.false_and]
      rfl
    · rw [overflow]
      rfl
  · rw [sameOurs] at own
    have uncounted : fault.isForeign memory = false := by simp [HardwareFault.isForeign, own]
    refine accounts.answered unset answer (by simp [uncounted]) (fun other => ?_) fun _ => ?_
    · rw [own] at other
      contradiction
    · rw [overflow]
      exact decide_eq_true reports
  · rw [sameOurs] at other
    have counted : fault.isForeign memory = true := by
      simp [HardwareFault.isForeign, overflow, other]
    refine accounts.answered unset answer (by simp [counted]) (fun _ => ?_) fun own => ?_
    · rw [counted, Bool.true_and]
      by_cases below : state.shared.foreignFaults < kMaxForeignFaults
      · rw [if_pos below, decide_eq_true below]
        rfl
      · rw [if_neg below, decide_eq_false below]
        rfl
    · rw [other] at own
      contradiction

theorem Accounts.step {memory : SharedDiagnostics} {state : HandlerState Thread}
    (accounts : state.Accounts memory) {event : HandlerEvent Thread}
    (notNested : state.NotNested event) : (state.step event).Accounts memory := by
  cases event with
  | raised thread fault => exact accounts.raised notNested fault
  | returned thread => exact ⟨accounts.shared, accounts.foreign, accounts.ours⟩

theorem map_answers (state : HandlerState Thread) (events : List (HandlerEvent Thread)) :
    (events.foldl step state).answers.map Prod.fst =
      state.answers.map Prod.fst ++ events.filterMap HandlerEvent.raisedFault := by
  induction events generalizing state with
  | nil => simp
  | cons event events ih =>
      rw [List.foldl_cons, ih]
      cases event with
      | raised thread fault => simp [step, HandlerEvent.raisedFault]
      | returned thread => simp [step, HandlerEvent.raisedFault, List.filterMap_cons]

theorem foreignFaults_run (memory : SharedDiagnostics) (events : List (HandlerEvent Thread)) :
    (events.foldl step (start memory)).foreignFaults memory =
      (events.filterMap HandlerEvent.raisedFault).countP (HardwareFault.isForeign memory) := by
  have answered := map_answers (start memory) events
  rw [start, List.map_nil, List.nil_append] at answered
  rw [← answered, List.countP_map]
  rfl

/-- The reports of a run: all of those faults at our addresses that are no stack overflow, and a
bounded number of the others, as long as the counter does not wrap. -/
structure Reports (memory : SharedDiagnostics) (events : List (HandlerEvent Thread))
    (state : HandlerState Thread) : Prop where
  answered : state.answers.map Prod.fst = events.filterMap HandlerEvent.raisedFault
  ours : ∀ answer ∈ state.answers, answer.1.isOurs memory = true →
    FaultAnswer.isReported answer = !answer.1.isOverflow
  foreign : (events.filterMap HandlerEvent.raisedFault).countP (HardwareFault.isForeign memory) ≤
    2 ^ 32 → state.foreignReports memory ≤ kMaxForeignFaults.toNat

theorem run_accounts (moduleBase moduleEnd : UInt64) (patches : PatchTable)
    {events : List (HandlerEvent Thread)}
    (notNested : TransitionRun.Along step NotNested
      (start (.atLoad moduleBase moduleEnd patches)) events) :
    (events.foldl step (start (.atLoad moduleBase moduleEnd patches))).Accounts
      (.atLoad moduleBase moduleEnd patches) := by
  have noneAdmitted : admitted 0 = 0 := by simp [admitted]
  refine notNested.foldl_invariant (Accounts (.atLoad moduleBase moduleEnd patches))
    (fun _ _ accounts allowed => accounts.step allowed) ?_
  exact ⟨rfl, noneAdmitted.symm, fun _ member => absurd member List.not_mem_nil⟩

theorem foreignReports_le_iff (moduleBase moduleEnd : UInt64) (patches : PatchTable)
    {events : List (HandlerEvent Thread)}
    (notNested : TransitionRun.Along step NotNested
      (start (.atLoad moduleBase moduleEnd patches)) events) :
    (events.foldl step (start (.atLoad moduleBase moduleEnd patches))).foreignReports
        (.atLoad moduleBase moduleEnd patches) ≤ kMaxForeignFaults.toNat ↔
      (events.filterMap HandlerEvent.raisedFault).countP
        (HardwareFault.isForeign (.atLoad moduleBase moduleEnd patches)) ≤ 2 ^ 32 := by
  rw [(run_accounts moduleBase moduleEnd patches notNested).foreign, foreignFaults_run, admitted_le]

theorem run_reports (moduleBase moduleEnd : UInt64) (patches : PatchTable)
    (events : List (HandlerEvent Thread))
    (notNested : TransitionRun.Along step NotNested
      (start (.atLoad moduleBase moduleEnd patches)) events) :
    Reports (.atLoad moduleBase moduleEnd patches) events
      (events.foldl step (start (.atLoad moduleBase moduleEnd patches))) := by
  have accounts := run_accounts moduleBase moduleEnd patches notNested
  exact ⟨map_answers _ events, accounts.ours,
    (foreignReports_le_iff moduleBase moduleEnd patches notNested).mpr⟩

def accessViolation (rip : UInt64) : HardwareFault := ⟨exceptionAccessViolation, rip, by decide⟩

def loaded : SharedDiagnostics := .atLoad 0x180000000 0x180100000 PatchTable.empty

theorem run_reports_twoThreads :
    let events : List (HandlerEvent Bool) := [
      .raised false (accessViolation 0x180001000),
      .raised true (accessViolation 0x7ff800001000),
      .returned false,
      .returned true]
    Reports loaded events (events.foldl step (start loaded)) :=
  run_reports 0x180000000 0x180100000 PatchTable.empty _ ⟨rfl, rfl, trivial, trivial, trivial⟩

def repeated (fault : HardwareFault) (times : Nat) : List (HandlerEvent Unit) :=
  (List.replicate times [.raised () fault, .returned ()]).flatten

theorem repeated_notNested (fault : HardwareFault) (times : Nat) {state : HandlerState Unit}
    (unset : state.tlInVeh () = false) :
    TransitionRun.Along step NotNested state (repeated fault times) := by
  induction times generalizing state with
  | zero => trivial
  | succ times ih =>
      rw [repeated, List.replicate_succ, List.flatten_cons]
      have cleared : Function.update (state.step (.raised () fault)).tlInVeh () false () = false :=
        Function.update_self ..
      exact ⟨unset, trivial, ih cleared⟩

theorem repeated_faults (fault : HardwareFault) (times : Nat) :
    (repeated fault times).filterMap HandlerEvent.raisedFault = List.replicate times fault := by
  induction times with
  | zero => rfl
  | succ times ih =>
      rw [repeated, List.replicate_succ, List.flatten_cons, List.filterMap_append,
        List.replicate_succ, ← ih]
      rfl

/-- A stack overflow in the plugin, which the handler leaves alone; and more faults elsewhere than
the counter counts. -/
theorem overflow_silent_counter_wraps :
    (¬∀ events : List (HandlerEvent Unit),
      TransitionRun.Along step NotNested (start loaded) events →
        ∀ answer ∈ (events.foldl step (start loaded)).answers,
          answer.1.isOurs loaded = true → FaultAnswer.isReported answer = true) ∧
    ¬∀ events : List (HandlerEvent Unit),
      TransitionRun.Along step NotNested (start loaded) events →
        (events.foldl step (start loaded)).foreignReports loaded ≤ kMaxForeignFaults.toNat := by
  constructor
  · intro claimed
    have reported := claimed [.raised () ⟨exceptionStackOverflow, 0x180001000, by decide⟩]
      ⟨rfl, trivial⟩ _ List.mem_cons_self (by decide)
    revert reported
    decide
  · intro claimed
    have notNested : TransitionRun.Along step NotNested (start loaded)
        (repeated (accessViolation 0x7ff800001000) (2 ^ 32 + 1)) := repeated_notNested _ _ rfl
    have bounded := (foreignReports_le_iff _ _ _ notNested).mp (claimed _ notNested)
    rw [repeated_faults, List.countP_replicate, if_pos (by decide)] at bounded
    omega

end HandlerState

end PatchFix
