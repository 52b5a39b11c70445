import PatchFix.Rogue.FpsUnlock

/-!
`win32::raise_timer_resolution` and `restore_timer_resolution` called by any number of threads, each
atomic access and each call of the multimedia timer a step of its own.
-/

namespace PatchFix

open SlotCount

/-- Where a thread is inside one of the two functions: before `timeBeginPeriod`, before the store
that gives the flag back, before `timeEndPeriod`. -/
inductive TimerPoint where
  | beginning | clearing | ending
  deriving DecidableEq, Repr

/-- `raised` is `g_raised`; `begun` and `ended` count what the system was asked for, `lost` the
stores that gave back a flag which was down already. -/
structure TimerState (Thread : Type) where
  raised : Bool
  point : Thread → Option TimerPoint
  begun : Nat
  ended : Nat
  lost : Nat

inductive TimerEvent (Thread : Type) where
  | raise (thread : Thread)
  | restore (thread : Thread)
  | proceed (thread : Thread) (beginOk : Bool)

namespace TimerState

variable {Thread : Type} [DecidableEq Thread]

def initial : TimerState Thread := ⟨false, fun _ => none, 0, 0, 0⟩

def go (thread : Thread) (point : Option TimerPoint) (state : TimerState Thread) :
    TimerState Thread :=
  { state with point := Function.update state.point thread point }

/-- A thread that is inside a call does not enter another. -/
def step (state : TimerState Thread) : TimerEvent Thread → TimerState Thread
  | .raise thread =>
      if (state.point thread).isSome || state.raised then state
      else { state.go thread (some .beginning) with raised := true }
  | .restore thread =>
      if (state.point thread).isSome || !state.raised then state
      else { state.go thread (some .ending) with raised := false }
  | .proceed thread beginOk =>
      match state.point thread with
      | none => state
      | some .beginning =>
          if beginOk then { state.go thread none with begun := state.begun + 1 }
          else state.go thread (some .clearing)
      | some .clearing =>
          { state.go thread none with
            raised := false
            lost := state.lost + if state.raised then 0 else 1 }
      | some .ending => { state.go thread none with ended := state.ended + 1 }

def run (events : List (TimerEvent Thread)) : TimerState Thread := events.foldl step initial

variable [Fintype Thread] {state : TimerState Thread}

def threadsAt (state : TimerState Thread) (point : TimerPoint) : Nat :=
  occurrences state.point point

/-- What was begun or is about to be, and what was given back twice, is what is held, what was ended
or is about to be. -/
def Balanced (state : TimerState Thread) : Prop :=
  state.begun + state.threadsAt .beginning + state.threadsAt .clearing + state.lost =
    state.raised.toNat + state.threadsAt .ending + state.ended

theorem threadsAt_go (thread : Thread) (entry : Option TimerPoint) (point : TimerPoint) :
    (state.go thread entry).threadsAt point + (if state.point thread = some point then 1 else 0) =
      state.threadsAt point + (if entry = some point then 1 else 0) :=
  occurrences_update state.point thread entry point

def owedBegin : Option TimerPoint → Nat
  | some .beginning | some .clearing => 1
  | _ => 0

def owedEnd : Option TimerPoint → Nat
  | some .ending => 1
  | _ => 0

theorem Balanced.go (held : state.Balanced) (thread : Thread) (entry : Option TimerPoint)
    {raised : Bool} {begun ended lost : Nat}
    (flow : begun + owedBegin entry + lost +
        (state.raised.toNat + owedEnd (state.point thread) + state.ended) =
      raised.toNat + owedEnd entry + ended +
        (state.begun + owedBegin (state.point thread) + state.lost)) :
    Balanced { state.go thread entry with raised, begun, ended, lost } := by
  have beginning : _ = state.threadsAt .beginning + _ := threadsAt_go thread entry .beginning
  have clearing : _ = state.threadsAt .clearing + _ := threadsAt_go thread entry .clearing
  have ending : _ = state.threadsAt .ending + _ := threadsAt_go thread entry .ending
  unfold Balanced at held ⊢
  have owed (slot : Option TimerPoint) : owedBegin slot =
      (if slot = some .beginning then 1 else 0) + if slot = some .clearing then 1 else 0 := by
    rcases slot with _ | _ | _ | _ <;> rfl
  have due (slot : Option TimerPoint) :
      owedEnd slot = if slot = some .ending then 1 else 0 := by
    rcases slot with _ | _ | _ | _ <;> rfl
  rw [owed, owed, due, due] at flow
  simp only [threadsAt, TimerState.go] at beginning clearing ending held ⊢
  omega

theorem Balanced.step (held : state.Balanced) (event : TimerEvent Thread) :
    (step state event).Balanced := by
  cases event with
  | raise thread =>
      simp only [TimerState.step]
      split
      · exact held
      · next free =>
          obtain ⟨idle, down⟩ : state.point thread = none ∧ state.raised = false := by
            simpa using free
          exact held.go thread (some .beginning) (by
            simp [idle, down, owedBegin, owedEnd, TimerState.go]
            omega)
  | restore thread =>
      simp only [TimerState.step]
      split
      · exact held
      · next free =>
          obtain ⟨idle, up⟩ : state.point thread = none ∧ state.raised = true := by
            simpa using free
          exact held.go thread (some .ending) (by
            simp [idle, up, owedBegin, owedEnd, TimerState.go]
            omega)
  | proceed thread beginOk =>
      cases here : state.point thread with
      | none => simpa [TimerState.step, here] using held
      | some point =>
          cases point with
          | beginning =>
              simp only [TimerState.step, here]
              split
              · exact held.go thread none (by
                  simp [here, owedBegin, owedEnd, TimerState.go]
                  omega)
              · exact held.go thread (some .clearing) (by
                  simp [here, owedBegin, owedEnd]
                  omega)
          | clearing =>
              simp only [TimerState.step, here]
              exact held.go thread none (by
                cases state.raised <;> simp [here, owedBegin, owedEnd, TimerState.go] <;> omega)
          | ending =>
              simp only [TimerState.step, here]
              exact held.go thread none (by
                simp [here, owedBegin, owedEnd, TimerState.go]
                omega)

theorem run_balanced (events : List (TimerEvent Thread)) : (run events).Balanced :=
  TransitionRun.foldl_invariant Balanced (by simp [Balanced, initial, threadsAt, occurrences])
    fun _ held event _ => held.step event

omit [DecidableEq Thread] in
theorem threadsAt_quiet (quiet : ∀ thread, state.point thread = none) (point : TimerPoint) :
    state.threadsAt point = 0 := by
  simp [threadsAt, occurrences, quiet]

/-- In every interleaving, whenever no thread is inside a call, the system holds at most the one
period that the flag stands for, and exactly that unless a flag was given back twice. -/
theorem quiet_period_iff {events : List (TimerEvent Thread)}
    (quiet : ∀ thread, (run events).point thread = none) :
    (run events).begun ≤ (run events).ended + (run events).raised.toNat ∧
      ((run events).begun = (run events).ended + (run events).raised.toNat ↔
        (run events).lost = 0) := by
  have balance : _ = _ := run_balanced events
  simp only [threadsAt_quiet quiet] at balance
  constructor
  · omega
  · omega

omit [Fintype Thread] in
def sequential (state : TimerState Thread) : Rogue.TimerResolution where
  raised := state.raised
  begun := state.begun
  ended := state.ended

def raiseSteps (thread : Thread) (beginOk : Bool) : List (TimerEvent Thread) :=
  [.raise thread, .proceed thread beginOk, .proceed thread beginOk]

def restoreSteps (thread : Thread) : List (TimerEvent Thread) :=
  [.restore thread, .proceed thread true]

omit [Fintype Thread] in
/-- Uninterrupted, the steps of the two functions are the calls that `FPSUnlock` makes. -/
theorem alone {thread : Thread} (idle : state.point thread = none) (beginOk : Bool) :
    ((raiseSteps thread beginOk).foldl step state).sequential =
        (state.sequential.raise beginOk).2 ∧
      ((restoreSteps thread).foldl step state).sequential = state.sequential.restore := by
  cases raised : state.raised <;> cases beginOk <;>
    simp [raiseSteps, restoreSteps, step, idle, raised, go, sequential,
      Rogue.TimerResolution.raise, Rogue.TimerResolution.restore]

end TimerState

def contended : List (TimerEvent (Fin 2)) :=
  [.raise 0, .restore 1, .proceed 0 false, .proceed 0 false, .proceed 1 true]

theorem quiet_period_iff_contended :
    (TimerState.run contended).begun ≤
        (TimerState.run contended).ended + (TimerState.run contended).raised.toNat ∧
      ((TimerState.run contended).begun =
          (TimerState.run contended).ended + (TimerState.run contended).raised.toNat ↔
        (TimerState.run contended).lost = 0) :=
  TimerState.quiet_period_iff (by decide)

end PatchFix
