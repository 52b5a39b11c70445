import PatchFix.CrashHandler
import PatchFix.Library.TransitionRun

/-!
Hardware faults on one thread. Every fault goes to `veh_handler` first and then to the filter of the
nearest guarded frame, also a fault that the work of a report raises.
-/

namespace PatchFix

inductive Frame where
  | guarded
  | vehReport (code : UInt32) (left : List ReportStep)
  | filterReport (left : List ReportStep)
  deriving DecidableEq

namespace Frame

@[simp] def isVehReport : Frame → Bool
  | vehReport _ _ => true
  | _ => false

@[simp] def isFilterReport : Frame → Bool
  | filterReport _ => true
  | _ => false

end Frame

structure ThreadState where
  shared : SharedDiagnostics
  tlInVeh : Bool
  tlInFaultHandler : Bool
  stack : List Frame

/-- What becomes of an exception that no filter of the project takes: other code resumes it, or
unwinds some frames. -/
inductive Resolution where
  | resumed
  | unwound (frames : Nat)
  deriving DecidableEq, Repr

inductive ThreadEvent where
  | enterGuarded
  | leaveGuarded
  | fault (code : UInt32) (rip : UInt64) (resolution : Resolution)
  | reportStep (resolution : Resolution)
  | otherThreads (shared : SharedDiagnostics)

namespace ThreadState

def start (shared : SharedDiagnostics) : ThreadState where
  shared := shared
  tlInVeh := false
  tlInFaultHandler := false
  stack := []

/-- Removes frames. Whether that runs `~VehReentryGuard` depends on the exception model that the
compiler was given. -/
def unwind (runsDtors : Bool) (frames : Nat) (state : ThreadState) : ThreadState :=
  { state with
    tlInVeh := state.tlInVeh && !(runsDtors && (state.stack.take frames).any Frame.isVehReport)
    stack := state.stack.drop frames }

def resolve (runsDtors : Bool) (resolution : Resolution) (state : ThreadState) : ThreadState :=
  match resolution with
  | .resumed => state
  | .unwound frames => state.unwind runsDtors frames

/-- The search for a handler after `veh_handler`. A filter that continues the search leaves the
exception to the next guarded frame, whose filter answers the same. -/
def searchFilters (runsDtors : Bool) (code : UInt32) (resolution : Resolution)
    (state : ThreadState) : ThreadState :=
  if Frame.guarded ∈ state.stack then
    match faultFilterImpl code state.tlInFaultHandler with
    | [] => state.resolve runsDtors resolution
    | first :: left =>
        { state with
          tlInFaultHandler := true
          stack := .filterReport (first :: left) :: state.stack }
  else state.resolve runsDtors resolution

def raiseFault (runsDtors : Bool) (code : UInt32) (rip : UInt64) (resolution : Resolution)
    (state : ThreadState) : ThreadState :=
  match vehHandler code rip state.tlInVeh state.shared with
  | ([], shared) => { state with shared := shared }.searchFilters runsDtors code resolution
  | (first :: left, shared) =>
      { state with
        shared := shared
        tlInVeh := true
        stack := .vehReport code (first :: left) :: state.stack }

def executeHandler (runsDtors : Bool) (state : ThreadState) : ThreadState :=
  state.unwind runsDtors (state.stack.idxOf Frame.guarded + 1)

def advanceReport (runsDtors : Bool) (resolution : Resolution) (state : ThreadState) :
    ThreadState :=
  match state.stack with
  | .vehReport code left :: below =>
      match left.tail with
      | [] =>
          { state with tlInVeh := false, stack := below }.searchFilters runsDtors code resolution
      | next :: rest => { state with stack := .vehReport code (next :: rest) :: below }
  | .filterReport left :: below =>
      match left.tail with
      | [] => { state with tlInFaultHandler := false, stack := below }.executeHandler runsDtors
      | next :: rest => { state with stack := .filterReport (next :: rest) :: below }
  | _ => state

def step (runsDtors : Bool) (state : ThreadState) : ThreadEvent → ThreadState
  | .enterGuarded => { state with stack := .guarded :: state.stack }
  | .leaveGuarded =>
      match state.stack with
      | .guarded :: below => { state with stack := below }
      | _ => state
  | .fault code rip resolution => state.raiseFault runsDtors code rip resolution
  | .reportStep resolution => state.advanceReport runsDtors resolution
  | .otherThreads shared => { state with shared := shared }

def vehReports (state : ThreadState) : Nat := state.stack.countP Frame.isVehReport

def filterReports (state : ThreadState) : Nat := state.stack.countP Frame.isFilterReport

def reportsInProgress (state : ThreadState) : Nat := state.vehReports + state.filterReports

structure FlagsCover (state : ThreadState) : Prop where
  veh : state.vehReports ≤ state.tlInVeh.toNat
  filter : state.filterReports ≤ state.tlInFaultHandler.toNat

theorem unwind_reports_le (runsDtors : Bool) (frames : Nat) (state : ThreadState) :
    (state.unwind runsDtors frames).reportsInProgress ≤ state.reportsInProgress :=
  Nat.add_le_add (List.Sublist.countP_le (List.drop_sublist frames state.stack))
    (List.Sublist.countP_le (List.drop_sublist frames state.stack))

theorem FlagsCover.unwind {state : ThreadState} (cover : state.FlagsCover) (runsDtors : Bool)
    (frames : Nat) : (state.unwind runsDtors frames).FlagsCover := by
  have split : state.vehReports = (state.stack.take frames).countP Frame.isVehReport +
      (state.stack.drop frames).countP Frame.isVehReport := by
    rw [← List.countP_append, List.take_append_drop, vehReports]
  have veh := cover.veh
  refine ⟨?_, Nat.le_trans (List.Sublist.countP_le (List.drop_sublist frames state.stack))
    cover.filter⟩
  show (state.stack.drop frames).countP Frame.isVehReport ≤
    (state.tlInVeh && !(runsDtors && (state.stack.take frames).any Frame.isVehReport)).toNat
  by_cases removed : (state.stack.take frames).any Frame.isVehReport = true
  · have present : 0 < (state.stack.take frames).countP Frame.isVehReport := by
      simpa [List.countP_pos_iff] using removed
    have flag := Bool.toNat_le state.tlInVeh
    omega
  · have none : (state.stack.take frames).any Frame.isVehReport = false := by simpa using removed
    rw [none, Bool.and_false, Bool.not_false, Bool.and_true]
    omega

theorem resolve_reports_le (runsDtors : Bool) (resolution : Resolution) (state : ThreadState) :
    (state.resolve runsDtors resolution).reportsInProgress ≤ state.reportsInProgress := by
  cases resolution with
  | resumed => exact Nat.le_refl _
  | unwound frames => exact unwind_reports_le runsDtors frames state

theorem FlagsCover.resolve {state : ThreadState} (cover : state.FlagsCover) (runsDtors : Bool)
    (resolution : Resolution) : (state.resolve runsDtors resolution).FlagsCover := by
  cases resolution with
  | resumed => exact cover
  | unwound frames => exact cover.unwind runsDtors frames

def Filtered (code : UInt32) (state : ThreadState) : Prop :=
  Frame.guarded ∈ state.stack ∧ Reportable code ∧ state.tlInFaultHandler = false

theorem searchFilters_cases (runsDtors : Bool) (code : UInt32) (resolution : Resolution)
    (state : ThreadState) :
    (state.Filtered code ∧ ∃ left, state.searchFilters runsDtors code resolution =
        { state with tlInFaultHandler := true, stack := .filterReport left :: state.stack }) ∨
      (¬state.Filtered code ∧ state.searchFilters runsDtors code resolution =
        state.resolve runsDtors resolution) := by
  unfold searchFilters Filtered
  have silent := @faultFilterImpl_eq_nil code state.tlInFaultHandler
  by_cases inside : Frame.guarded ∈ state.stack
  · rw [if_pos inside]
    split
    · next nothing =>
        refine Or.inr ⟨?_, rfl⟩
        rintro ⟨_, reportable, unset⟩
        have flag := silent.mp nothing reportable
        rw [unset] at flag
        contradiction
    · next first left answer =>
        have answered : ¬(Reportable code → state.tlInFaultHandler = true) := by
          rw [← silent, answer]
          exact List.cons_ne_nil first left
        refine Or.inl ⟨⟨inside, ?_⟩, first :: left, rfl⟩
        simpa [Classical.not_imp] using answered
  · rw [if_neg inside]
    exact Or.inr ⟨fun filtered => inside filtered.1, rfl⟩

theorem FlagsCover.searchFilters {state : ThreadState} (cover : state.FlagsCover)
    (runsDtors : Bool) (code : UInt32) (resolution : Resolution) :
    (state.searchFilters runsDtors code resolution).FlagsCover := by
  rcases searchFilters_cases runsDtors code resolution state with
    ⟨filtered, left, reports⟩ | ⟨_, resolves⟩
  · rw [reports]
    have filter : state.filterReports ≤ 0 := by simpa [filtered.2.2] using cover.filter
    exact ⟨by simpa [vehReports] using cover.veh,
      by simpa [filterReports, List.countP_cons] using filter⟩
  · rw [resolves]
    exact cover.resolve runsDtors resolution

theorem searchFilters_reports_le (runsDtors : Bool) (code : UInt32) (resolution : Resolution)
    (state : ThreadState) :
    (state.searchFilters runsDtors code resolution).reportsInProgress ≤
      state.reportsInProgress + 1 := by
  rcases searchFilters_cases runsDtors code resolution state with
    ⟨_, left, reports⟩ | ⟨_, resolves⟩
  · rw [reports]
    simp [reportsInProgress, vehReports, filterReports, List.countP_cons, Nat.add_assoc]
  · rw [resolves]
    exact Nat.le_succ_of_le (resolve_reports_le runsDtors resolution state)

def Noticed (code : UInt32) (rip : UInt64) (state : ThreadState) : Prop :=
  Reportable code ∧ state.tlInVeh = false ∧ ¬state.shared.Silent rip

theorem raiseFault_cases (runsDtors : Bool) (code : UInt32) (rip : UInt64)
    (resolution : Resolution) (state : ThreadState) :
    (state.Noticed code rip ∧ ∃ shared left, state.raiseFault runsDtors code rip resolution =
        { state with
          shared := shared
          tlInVeh := true
          stack := .vehReport code left :: state.stack }) ∨
      (¬state.Noticed code rip ∧ ∃ shared, state.raiseFault runsDtors code rip resolution =
        { state with shared := shared }.searchFilters runsDtors code resolution) := by
  unfold raiseFault Noticed
  have silent := @vehHandler_eq_nil code rip state.tlInVeh state.shared
  split
  · next shared answer =>
      rw [answer] at silent
      refine Or.inr ⟨?_, shared, rfl⟩
      rintro ⟨reportable, unset, heard⟩
      rcases silent.mp rfl reportable with flag | quiet
      · rw [unset] at flag
        contradiction
      · exact heard quiet
  · next first left shared answer =>
      rw [answer] at silent
      have noticed : ¬(Reportable code → state.tlInVeh = true ∨ state.shared.Silent rip) :=
        fun implied => List.cons_ne_nil first left (silent.mpr implied)
      refine Or.inl ⟨?_, shared, first :: left, rfl⟩
      simpa [Classical.not_imp, not_or] using noticed

theorem FlagsCover.raiseFault {state : ThreadState} (cover : state.FlagsCover)
    (runsDtors : Bool) (code : UInt32) (rip : UInt64) (resolution : Resolution) :
    (state.raiseFault runsDtors code rip resolution).FlagsCover := by
  rcases raiseFault_cases runsDtors code rip resolution state with
    ⟨noticed, shared, left, reports⟩ | ⟨_, shared, continues⟩
  · rw [reports]
    have veh : state.vehReports ≤ 0 := by simpa [noticed.2.1] using cover.veh
    exact ⟨by simpa [vehReports, List.countP_cons] using veh,
      by simpa [filterReports] using cover.filter⟩
  · rw [continues]
    have unchanged : { state with shared := shared }.FlagsCover := ⟨cover.veh, cover.filter⟩
    exact unchanged.searchFilters runsDtors code resolution

theorem vehReport_top {state : ThreadState} {code : UInt32} {left : List ReportStep}
    {below : List Frame} (top : state.stack = .vehReport code left :: below) :
    state.vehReports = below.countP Frame.isVehReport + 1 ∧
      state.filterReports = below.countP Frame.isFilterReport := by
  simp [vehReports, filterReports, top, List.countP_cons]

theorem filterReport_top {state : ThreadState} {left : List ReportStep} {below : List Frame}
    (top : state.stack = .filterReport left :: below) :
    state.vehReports = below.countP Frame.isVehReport ∧
      state.filterReports = below.countP Frame.isFilterReport + 1 := by
  simp [vehReports, filterReports, top, List.countP_cons]

theorem advanceReport_cases (runsDtors : Bool) (resolution : Resolution) (state : ThreadState) :
    state.advanceReport runsDtors resolution = state ∨
      (∃ code left below, state.stack = .vehReport code left :: below ∧
        (state.advanceReport runsDtors resolution =
            { state with tlInVeh := false, stack := below }.searchFilters runsDtors code
              resolution ∨
          ∃ next, state.advanceReport runsDtors resolution =
            { state with stack := .vehReport code next :: below })) ∨
      ∃ left below, state.stack = .filterReport left :: below ∧
        (state.advanceReport runsDtors resolution =
            { state with tlInFaultHandler := false, stack := below }.executeHandler runsDtors ∨
          ∃ next, state.advanceReport runsDtors resolution =
            { state with stack := .filterReport next :: below }) := by
  unfold ThreadState.advanceReport
  split
  · next code left below top =>
      refine Or.inr (Or.inl ⟨code, left, below, top, ?_⟩)
      split
      · exact Or.inl rfl
      · exact Or.inr ⟨_, rfl⟩
  · next left below top =>
      refine Or.inr (Or.inr ⟨left, below, top, ?_⟩)
      split
      · exact Or.inl rfl
      · exact Or.inr ⟨_, rfl⟩
  · exact Or.inl rfl

theorem FlagsCover.advanceReport {state : ThreadState} (cover : state.FlagsCover)
    (runsDtors : Bool) (resolution : Resolution) :
    (state.advanceReport runsDtors resolution).FlagsCover := by
  obtain ⟨veh, filter⟩ := cover
  have vehFlag := Bool.toNat_le state.tlInVeh
  have filterFlag := Bool.toNat_le state.tlInFaultHandler
  rcases advanceReport_cases runsDtors resolution state with
    idle | ⟨code, left, below, top, returns | ⟨next, steps⟩⟩ |
      ⟨left, below, top, returns | ⟨next, steps⟩⟩
  · rw [idle]
    exact ⟨veh, filter⟩
  · rw [(vehReport_top top).1] at veh
    rw [(vehReport_top top).2] at filter
    have alone : below.countP Frame.isVehReport ≤ 0 := by omega
    have popped : { state with tlInVeh := false, stack := below }.FlagsCover := ⟨alone, filter⟩
    rw [returns]
    exact popped.searchFilters runsDtors code resolution
  · rw [(vehReport_top top).1] at veh
    rw [(vehReport_top top).2] at filter
    rw [steps]
    exact ⟨by simpa [vehReports, List.countP_cons] using veh, by simpa [filterReports] using filter⟩
  · rw [(filterReport_top top).1] at veh
    rw [(filterReport_top top).2] at filter
    have alone : below.countP Frame.isFilterReport ≤ 0 := by omega
    have popped : { state with tlInFaultHandler := false, stack := below }.FlagsCover :=
      ⟨veh, alone⟩
    rw [returns]
    exact popped.unwind runsDtors _
  · rw [(filterReport_top top).1] at veh
    rw [(filterReport_top top).2] at filter
    rw [steps]
    exact ⟨by simpa [vehReports] using veh, by simpa [filterReports, List.countP_cons] using filter⟩

theorem FlagsCover.step {state : ThreadState} (cover : state.FlagsCover) (runsDtors : Bool)
    (event : ThreadEvent) : (state.step runsDtors event).FlagsCover := by
  cases event with
  | enterGuarded =>
      exact ⟨by simpa [ThreadState.step, vehReports] using cover.veh,
        by simpa [ThreadState.step, filterReports] using cover.filter⟩
  | leaveGuarded =>
      unfold ThreadState.step
      dsimp only
      split
      · next below top =>
          exact ⟨by simpa [vehReports, top] using cover.veh,
            by simpa [filterReports, top] using cover.filter⟩
      · exact cover
  | fault code rip resolution => exact cover.raiseFault runsDtors code rip resolution
  | reportStep resolution => exact cover.advanceReport runsDtors resolution
  | otherThreads shared => exact ⟨cover.veh, cover.filter⟩

/-- Neither handler answers the fault while the other is reporting: under a report of
`veh_handler` no filter of a guarded frame is free to run, and over a report of a filter
`veh_handler` is in use or has nothing left to say about the address. -/
def FaultSilent (code : UInt32) (rip : UInt64) (state : ThreadState) : Prop :=
  Reportable code →
    (0 < state.vehReports → Frame.guarded ∈ state.stack → state.tlInFaultHandler = true) ∧
      (0 < state.filterReports → state.tlInVeh = true ∨ state.shared.Silent rip)

def EventSilent (state : ThreadState) : ThreadEvent → Prop
  | .fault code rip _ => state.FaultSilent code rip
  | _ => True

theorem raiseFault_reports_iff {state : ThreadState} (cover : state.FlagsCover)
    (single : state.reportsInProgress ≤ 1) (runsDtors : Bool) (code : UInt32) (rip : UInt64)
    (resolution : Resolution) :
    (state.raiseFault runsDtors code rip resolution).reportsInProgress ≤ 1 ↔
      state.FaultSilent code rip := by
  rcases raiseFault_cases runsDtors code rip resolution state with
    ⟨⟨reportable, unset, heard⟩, shared, left, reports⟩ | ⟨ignored, shared, continues⟩
  · -- a report of `veh_handler` starts, so that no other of it is in progress
    have veh : state.vehReports = 0 := by simpa [unset] using cover.veh
    have started : (state.raiseFault runsDtors code rip resolution).reportsInProgress =
        1 + state.filterReports := by
      rw [reports, ← Nat.zero_add state.filterReports, ← veh]
      simp [reportsInProgress, vehReports, filterReports, List.countP_cons]
      omega
    rw [started]
    constructor
    · intro alone _
      exact ⟨by omega, by omega⟩
    · intro silent
      by_contra nested
      rcases (silent reportable).2 (by omega) with flag | quiet
      · rw [unset] at flag
        contradiction
      · exact heard quiet
  · rw [continues]
    rcases searchFilters_cases runsDtors code resolution { state with shared := shared } with
      ⟨⟨inside, reportable, unset⟩, left, reports⟩ | ⟨unfiltered, resolves⟩
    · have unset : state.tlInFaultHandler = false := unset
      have filter : state.filterReports = 0 := by simpa [unset] using cover.filter
      have started : ThreadState.reportsInProgress
          { state with
            shared := shared
            tlInFaultHandler := true
            stack := .filterReport left :: state.stack } = state.vehReports + 1 := by
        rw [← Nat.add_zero (state.vehReports + 1), ← filter]
        simp [reportsInProgress, vehReports, filterReports, List.countP_cons]
        omega
      rw [reports, started]
      constructor
      · intro alone _
        exact ⟨by omega, by omega⟩
      · intro silent
        by_contra nested
        have flag := (silent reportable).1 (by omega) inside
        rw [unset] at flag
        contradiction
    · rw [resolves]
      refine iff_of_true (Nat.le_trans (resolve_reports_le runsDtors resolution _) single) ?_
      intro reportable
      refine ⟨fun _ inside => ?_, fun _ => ?_⟩
      · by_contra unset
        exact unfiltered ⟨inside, reportable, by simpa using unset⟩
      · by_contra heard
        obtain ⟨unset, heard⟩ := not_or.mp heard
        exact ignored ⟨reportable, by simpa using unset, heard⟩

theorem advanceReport_reports_le (runsDtors : Bool) (resolution : Resolution)
    (state : ThreadState) :
    (state.advanceReport runsDtors resolution).reportsInProgress ≤ state.reportsInProgress := by
  rcases advanceReport_cases runsDtors resolution state with
    idle | ⟨code, left, below, top, returns | ⟨next, steps⟩⟩ |
      ⟨left, below, top, returns | ⟨next, steps⟩⟩
  · exact Nat.le_of_eq (congrArg reportsInProgress idle)
  · obtain ⟨vehs, filters⟩ := vehReport_top top
    have popped : { state with tlInVeh := false, stack := below }.reportsInProgress + 1 =
        state.reportsInProgress := by
      unfold reportsInProgress
      rw [vehs, filters, Nat.add_right_comm]
      rfl
    rw [returns, ← popped]
    exact searchFilters_reports_le runsDtors code resolution _
  · obtain ⟨vehs, filters⟩ := vehReport_top top
    rw [steps, reportsInProgress, reportsInProgress, vehs, filters]
    simp [vehReports, filterReports, List.countP_cons]
  · obtain ⟨vehs, filters⟩ := filterReport_top top
    have popped : { state with tlInFaultHandler := false, stack := below }.reportsInProgress + 1 =
        state.reportsInProgress := by
      unfold reportsInProgress
      rw [vehs, filters, Nat.add_assoc]
      rfl
    rw [returns, ← popped]
    exact Nat.le_succ_of_le (unwind_reports_le runsDtors _ _)
  · obtain ⟨vehs, filters⟩ := filterReport_top top
    rw [steps, reportsInProgress, reportsInProgress, vehs, filters]
    simp [vehReports, filterReports, List.countP_cons]

theorem step_reports_iff {state : ThreadState} (cover : state.FlagsCover)
    (single : state.reportsInProgress ≤ 1) (runsDtors : Bool) (event : ThreadEvent) :
    (state.step runsDtors event).reportsInProgress ≤ 1 ↔ state.EventSilent event := by
  cases event with
  | fault code rip resolution =>
      exact raiseFault_reports_iff cover single runsDtors code rip resolution
  | enterGuarded =>
      exact iff_of_true (by
        simpa [ThreadState.step, reportsInProgress, vehReports, filterReports] using single) trivial
  | leaveGuarded =>
      refine iff_of_true ?_ trivial
      unfold ThreadState.step
      dsimp only
      split
      · next below top =>
          simpa [reportsInProgress, vehReports, filterReports, top] using single
      · exact single
  | reportStep resolution =>
      exact iff_of_true
        (Nat.le_trans (advanceReport_reports_le runsDtors resolution state) single) trivial
  | otherThreads shared => exact iff_of_true single trivial

theorem start_flagsCover (shared : SharedDiagnostics) : (start shared).FlagsCover :=
  ⟨Nat.le_refl 0, Nat.le_refl 0⟩

theorem handler_reports_le_one (runsDtors : Bool) (shared : SharedDiagnostics)
    (events : List ThreadEvent) :
    ∀ reached ∈ TransitionRun.states (step runsDtors) (start shared) events,
      reached.vehReports ≤ 1 ∧ reached.filterReports ≤ 1 := by
  intro reached member
  have cover : reached.FlagsCover :=
    TransitionRun.states_invariant FlagsCover (start_flagsCover shared)
      (fun state held event _ => held.step runsDtors event) reached member
  exact ⟨Nat.le_trans cover.veh (Bool.toNat_le _), Nat.le_trans cover.filter (Bool.toNat_le _)⟩

/-- A run never has two reports in progress if and only if every fault of it is silent. -/
theorem single_report_iff (runsDtors : Bool) (shared : SharedDiagnostics)
    (events : List ThreadEvent) :
    (∀ reached ∈ TransitionRun.states (step runsDtors) (start shared) events,
      reached.reportsInProgress ≤ 1) ↔
    ∀ done event rest, events = done ++ event :: rest →
      (done.foldl (step runsDtors) (start shared)).EventSilent event :=
  TransitionRun.forall_states_iff_allowed FlagsCover EventSilent (start_flagsCover shared)
    (Nat.zero_le 1)
    (fun _ event cover => cover.step runsDtors event)
    (fun _ event cover single => step_reports_iff cover single runsDtors event)

def loadedPlugin : SharedDiagnostics where
  moduleBase := 0x180000000
  moduleEnd := 0x180100000
  foreignFaults := 0
  patches := PatchTable.empty

def faultInReport : List ThreadEvent := [
  .enterGuarded,
  .fault exceptionAccessViolation 0x180001000 .resumed,
  .fault exceptionAccessViolation 0x7ff800001000 .resumed]

theorem faultInReport_nested :
    ¬∃ runsDtors, ∀ reached ∈
      TransitionRun.states (step runsDtors) (start loadedPlugin) faultInReport,
        reached.reportsInProgress ≤ 1 := by
  decide

end ThreadState

end PatchFix
