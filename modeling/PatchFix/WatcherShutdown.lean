import PatchFix.FileWatcher
import PatchFix.Library.TransitionRun

/-!
`FileWatcher::stop` against `watch_loop`, in any interleaving of the system calls of the watcher
thread with the steps of the thread that stops it.
-/

namespace PatchFix

variable {Path : Type} [DecidableEq Path]

/-- `stop_event`. `null` is a failed `CreateEventA`. -/
inductive StopEvent where
  | none | null | unsignalled | signalled | closed
  deriving DecidableEq, Repr

inductive WatchPoint where
  | openDirectory | createStopEvent | registerCallback | createEvent
  | loopHead | issueRead | wait | getResult
  | searchRecords (bytes : List UInt8)
  | debounce | loadStopping | callback
  | unregister | closeStopEvent | returned
  deriving DecidableEq

/-- How far `stop` has come; `request_stop` sets the token and then calls the stop callback. -/
inductive StopPoint where
  | start | stored | requested | done
  deriving DecidableEq, Repr

structure WatcherState where
  point : WatchPoint
  stop : StopPoint
  stopping : Bool
  stopRequested : Bool
  registered : Bool
  stopEvent : StopEvent
  callbacks : Nat
  /-- The stop event at each call of `SetEvent`. -/
  signals : List StopEvent

structure WatchAnswer where
  granted : Bool
  wait : WaitResult
  bytes : List UInt8

inductive WatcherEvent where
  | watcher (answer : WatchAnswer)
  | stopper

namespace WatcherState

def initial : WatcherState where
  point := .openDirectory
  stop := .start
  stopping := false
  stopRequested := false
  registered := false
  stopEvent := .none
  callbacks := 0
  signals := []

def setEvent (state : WatcherState) : WatcherState :=
  { state with
    stopEvent := if state.stopEvent = .unsignalled then .signalled else state.stopEvent
    signals := state.signals ++ [state.stopEvent] }

variable (convert : List UInt16 → Option Path) (fileName : Path)

def watcherStep (state : WatcherState) (answer : WatchAnswer) : WatcherState :=
  match state.point with
  | .openDirectory =>
      { state with point := if answer.granted then .createStopEvent else .returned }
  | .createStopEvent =>
      { state with
        point := .registerCallback
        stopEvent := if answer.granted then .unsignalled else .null }
  -- a callback that is constructed after the request runs in its constructor
  | .registerCallback =>
      if state.stopRequested then { state.setEvent with point := .createEvent }
      else { state with point := .createEvent, registered := true }
  | .createEvent => { state with point := .loopHead }
  | .loopHead =>
      { state with point := if state.stopRequested then .unregister else .issueRead }
  | .issueRead => { state with point := if answer.granted then .wait else .unregister }
  -- the wait fails on a null handle, and it returns for the stop event only when that is set
  | .wait =>
      if state.stopEvent = .null then { state with point := .unregister }
      else
        match answer.wait with
        | .failed => { state with point := .unregister }
        | .stopped =>
            if state.stopEvent = .signalled then { state with point := .unregister } else state
        | .completed => { state with point := .getResult }
  | .getResult =>
      { state with
        point := if answer.granted && answer.bytes.length != 0 then .searchRecords answer.bytes
          else .loopHead }
  | .searchRecords bytes =>
      { state with
        point := if recordsNameOurFile convert fileName bytes then .debounce else .loopHead }
  | .debounce =>
      { state with
        point := if state.stopEvent = .signalled then .unregister else .loadStopping }
  | .loadStopping =>
      { state with point := if state.stopping then .unregister else .callback }
  | .callback => { state with point := .loopHead, callbacks := state.callbacks + 1 }
  | .unregister => { state with point := .closeStopEvent, registered := false }
  | .closeStopEvent => { state with point := .returned, stopEvent := .closed }
  | .returned => state

def stopperStep (state : WatcherState) : WatcherState :=
  match state.stop with
  | .start => { state with stop := .stored, stopping := true }
  | .stored => { state with stop := .requested, stopRequested := true }
  | .requested =>
      if state.registered then { state.setEvent with stop := .done }
      else { state with stop := .done }
  | .done => state

def step (state : WatcherState) : WatcherEvent → WatcherState
  | .watcher answer => watcherStep convert fileName state answer
  | .stopper => stopperStep state

def run (events : List WatcherEvent) : WatcherState :=
  events.foldl (step convert fileName) initial

end WatcherState

def WatchPoint.listening : WatchPoint → Bool
  | .openDirectory | .createStopEvent | .registerCallback | .closeStopEvent | .returned => false
  | _ => true

def WatchPoint.served : WatchPoint → Bool
  | .getResult | .searchRecords _ | .debounce | .loadStopping | .callback => true
  | _ => false

/-- How many calls the watcher thread can still make once `stop` has returned. -/
def WatchPoint.remaining : WatchPoint → Nat
  | .openDirectory => 7
  | .createStopEvent => 6
  | .registerCallback => 5
  | .createEvent => 4
  | .loopHead => 3
  | .issueRead => 7
  | .wait => 6
  | .getResult => 5
  | .searchRecords _ => 4
  | .debounce => 3
  | .loadStopping => 3
  | .callback => 4
  | .unregister => 2
  | .closeStopEvent => 1
  | .returned => 0

def WatcherEvent.byWatcher : WatcherEvent → Bool
  | .watcher _ => true
  | .stopper => false

namespace WatcherState

variable {convert : List UInt16 → Option Path} {fileName : Path} {state : WatcherState}

structure Sound (state : WatcherState) : Prop where
  registered : state.registered = true → state.point.listening = true
  fresh : state.point = .registerCallback →
    state.stopEvent = .null ∨ state.stopEvent = .unsignalled
  told : state.point.listening = true → state.stopEvent = .null ∨ state.stopEvent = .signalled ∨
    (state.stopEvent = .unsignalled ∧ state.registered = true)
  served : state.point.served = true → state.stopEvent ≠ .null
  stopping : state.stopping = true ↔ state.stop ≠ .start
  requested : state.stopRequested = true ↔ state.stop = .requested ∨ state.stop = .done
  signalled : state.stop = .done → state.point.listening = true → state.stopEvent ≠ .unsignalled
  signals : StopEvent.closed ∉ state.signals

theorem Sound.moved (held : state.Sound) {point : WatchPoint} (callbacks : Nat)
    (before : state.point.listening = true) (after : point.listening = true)
    (served : point.served = true → state.stopEvent ≠ .null) :
    Sound { state with point, callbacks } where
  registered := fun _ => after
  fresh := by
    rintro rfl
    exact absurd after (by decide)
  told := fun _ => held.told before
  served := served
  stopping := held.stopping
  requested := held.requested
  signalled := fun stopped _ => held.signalled stopped before
  signals := held.signals

theorem Sound.unlistened (held : state.Sound) {point : WatchPoint} {stopEvent : StopEvent}
    (silent : point.listening = false) (unserved : point.served = false)
    (fresh : point = .registerCallback → stopEvent = .null ∨ stopEvent = .unsignalled) :
    Sound { state with point, stopEvent, registered := false } where
  registered := fun absurd => by simp at absurd
  fresh := fresh
  told := fun listening => by simp [silent] at listening
  served := fun impossible => by simp [unserved] at impossible
  stopping := held.stopping
  requested := held.requested
  signalled := fun _ listening => by simp [silent] at listening
  signals := held.signals

theorem setEvent_told {state : WatcherState} (event : state.stopEvent = .null ∨
    state.stopEvent = .unsignalled ∨ state.stopEvent = .signalled) :
    (state.setEvent.stopEvent = .null ∧ state.stopEvent = .null ∨
        state.setEvent.stopEvent = .signalled) ∧
      state.setEvent.signals = state.signals ++ [state.stopEvent] ∧ state.stopEvent ≠ .closed := by
  rcases event with null | waiting | told
  · simp [setEvent, null]
  · simp [setEvent, waiting]
  · simp [setEvent, told]

theorem Sound.register (held : state.Sound) (here : state.point = .registerCallback) :
    Sound (if state.stopRequested then { state.setEvent with point := .createEvent }
      else { state with point := .createEvent, registered := true }) := by
  have event := held.fresh here
  split
  · next requested =>
      obtain ⟨told, signals, created⟩ := setEvent_told (event.imp_right Or.inl)
      refine ⟨fun _ => rfl, by simp, fun _ => ?_, by simp [WatchPoint.served], held.stopping,
        held.requested, fun _ _ => ?_, ?_⟩
      · exact told.imp And.left Or.inl
      · rcases told with ⟨null, _⟩ | told
        · simp [null]
        · simp [told]
      · simpa [signals, held.signals] using created.symm
  · next running =>
      refine ⟨fun _ => rfl, by simp, fun _ => ?_, by simp [WatchPoint.served], held.stopping,
        held.requested, fun stopped _ => ?_, held.signals⟩
      · exact event.imp_right fun waiting => Or.inr ⟨waiting, rfl⟩
      · exact absurd (held.requested.mpr (Or.inr stopped)) running

theorem Sound.silent (held : state.Sound) (outside : state.point.listening = false) :
    state.registered = false := by
  cases registered : state.registered with
  | false => rfl
  | true => exact absurd (held.registered registered) (by simp [outside])

theorem Sound.before (held : state.Sound) (outside : state.point.listening = false)
    {point : WatchPoint} {stopEvent : StopEvent} (silent : point.listening = false)
    (unserved : point.served = false)
    (fresh : point = .registerCallback → stopEvent = .null ∨ stopEvent = .unsignalled) :
    Sound { state with point, stopEvent } := by
  have moved := held.unlistened silent unserved fresh
  rwa [← held.silent outside] at moved

theorem Sound.watcherStep (held : state.Sound) (answer : WatchAnswer) :
    Sound (watcherStep convert fileName state answer) := by
  unfold WatcherState.watcherStep
  cases here : state.point with
  | openDirectory =>
      exact held.before (by rw [here]; rfl) (by split <;> rfl) (by split <;> rfl)
        (by split <;> simp)
  | createStopEvent =>
      exact held.before (by rw [here]; rfl) rfl rfl (by split <;> simp)
  | registerCallback => exact held.register here
  | createEvent => exact held.moved _ (by rw [here]; rfl) rfl (by simp [WatchPoint.served])
  | loopHead =>
      exact held.moved _ (by rw [here]; rfl) (by split <;> rfl)
        (by split <;> simp [WatchPoint.served])
  | issueRead =>
      exact held.moved _ (by rw [here]; rfl) (by split <;> rfl)
        (by split <;> simp [WatchPoint.served])
  | wait =>
      have listening : state.point.listening = true := by rw [here]; rfl
      have leaves : Sound { state with point := .unregister } :=
        held.moved _ listening rfl (by simp [WatchPoint.served])
      simp only
      split
      · exact leaves
      · next present =>
          cases answer.wait with
          | failed => exact leaves
          | stopped =>
              simp only
              split
              · exact leaves
              · exact held
          | completed => exact held.moved _ listening rfl fun _ => present
  | getResult =>
      exact held.moved _ (by rw [here]; rfl) (by split <;> rfl)
        fun _ => held.served (by rw [here]; rfl)
  | searchRecords bytes =>
      exact held.moved _ (by rw [here]; rfl) (by split <;> rfl)
        fun _ => held.served (by rw [here]; rfl)
  | debounce =>
      exact held.moved _ (by rw [here]; rfl) (by split <;> rfl)
        fun _ => held.served (by rw [here]; rfl)
  | loadStopping =>
      exact held.moved _ (by rw [here]; rfl) (by split <;> rfl)
        fun _ => held.served (by rw [here]; rfl)
  | callback => exact held.moved _ (by rw [here]; rfl) rfl (by simp [WatchPoint.served])
  | unregister => exact held.unlistened rfl rfl (by simp)
  | closeStopEvent => exact held.before (by rw [here]; rfl) rfl rfl (by simp)
  | returned => exact held

theorem Sound.stopperStep (held : state.Sound) : Sound (stopperStep state) := by
  unfold WatcherState.stopperStep
  cases here : state.stop with
  | start =>
      have waiting := held.requested
      rw [here] at waiting
      refine ⟨held.registered, held.fresh, held.told, held.served, by simp, ?_, by simp,
        held.signals⟩
      simpa using waiting
  | stored =>
      have stored := held.stopping
      rw [here] at stored
      refine ⟨held.registered, held.fresh, held.told, held.served, ?_, by simp, by simp,
        held.signals⟩
      simpa using stored
  | requested =>
      have stored := held.stopping
      have requested := held.requested
      rw [here] at stored requested
      simp only
      split
      · next registered =>
          have listening := held.registered registered
          obtain ⟨told, signals, created⟩ := setEvent_told (by
            rcases held.told listening with null | told | ⟨waiting, _⟩
            · exact Or.inl null
            · exact Or.inr (Or.inr told)
            · exact Or.inr (Or.inl waiting))
          refine ⟨held.registered, ?_, fun _ => told.imp And.left Or.inl, fun served => ?_,
            by simpa [setEvent] using stored, by simpa [setEvent] using requested,
            fun _ _ => ?_, ?_⟩
          · intro outside
            exact absurd (outside ▸ listening) (by decide)
          · rcases told with ⟨_, null⟩ | told
            · exact absurd null (held.served served)
            · simp [told]
          · rcases told with ⟨null, _⟩ | told
            · simp [null]
            · simp [told]
          · simpa [signals, held.signals] using created.symm
      · next unregistered =>
          refine ⟨held.registered, held.fresh, held.told, held.served, by simpa using stored,
            by simpa using requested, fun _ listening => ?_, held.signals⟩
          rcases held.told listening with null | told | ⟨_, registered⟩
          · simp [null]
          · simp [told]
          · exact absurd registered unregistered
  | done => exact held

theorem step_sound (held : state.Sound) (event : WatcherEvent) :
    (step convert fileName state event).Sound := by
  cases event with
  | watcher answer => exact held.watcherStep answer
  | stopper => exact held.stopperStep

theorem run_sound (events : List WatcherEvent) : (run convert fileName events).Sound := by
  apply TransitionRun.foldl_invariant Sound
  · constructor <;> simp [initial, WatchPoint.listening, WatchPoint.served]
  · exact fun state held event _ => step_sound held event

/-- `stop` never sets an event whose handle is closed. -/
theorem run_signals_open (events : List WatcherEvent) :
    StopEvent.closed ∉ (run convert fileName events).signals :=
  (run_sound events).signals

def committed (state : WatcherState) : Nat :=
  state.callbacks + if state.point = .callback then 1 else 0

theorem committed_of_moved {point : WatchPoint} (elsewhere : point ≠ .callback) :
    committed { state with point } ≤ state.committed := by
  simp [committed, elsewhere]

theorem watcherStep_committed (answer : WatchAnswer) (stopping : state.stopping = true) :
    (watcherStep convert fileName state answer).committed ≤ state.committed := by
  unfold watcherStep
  cases here : state.point with
  | openDirectory => exact committed_of_moved (by split <;> simp)
  | createStopEvent => simp [committed]
  | registerCallback =>
      simp only
      split
      · simp [committed, setEvent]
      · simp [committed]
  | createEvent => exact committed_of_moved (by simp)
  | loopHead => exact committed_of_moved (by split <;> simp)
  | issueRead => exact committed_of_moved (by split <;> simp)
  | wait =>
      simp only
      split
      · exact committed_of_moved (by simp)
      · cases answer.wait with
        | failed => exact committed_of_moved (by simp)
        | stopped =>
            simp only
            split
            · exact committed_of_moved (by simp)
            · exact Nat.le_refl _
        | completed => exact committed_of_moved (by simp)
  | getResult => exact committed_of_moved (by split <;> simp)
  | searchRecords bytes => exact committed_of_moved (by split <;> simp)
  | debounce => exact committed_of_moved (by split <;> simp)
  | loadStopping => exact committed_of_moved (by simp [stopping])
  | callback => simp [committed, here]
  | unregister => simp [committed]
  | closeStopEvent => simp [committed]
  | returned => exact Nat.le_refl _

theorem stopperStep_frame (state : WatcherState) :
    (stopperStep state).point = state.point ∧ (stopperStep state).callbacks = state.callbacks ∧
      (stopperStep state).stop ≠ .start := by
  unfold stopperStep
  cases here : state.stop with
  | start => simp
  | stored => simp
  | requested =>
      simp only
      split <;> simp [setEvent]
  | done => simp [here]

theorem watcherStep_stop (answer : WatchAnswer) :
    (watcherStep convert fileName state answer).stop = state.stop := by
  unfold watcherStep
  cases state.point with
  | registerCallback =>
      simp only
      split <;> rfl
  | wait =>
      simp only
      split
      · rfl
      · cases answer.wait with
        | stopped =>
            simp only
            split <;> rfl
        | failed => rfl
        | completed => rfl
  | _ => rfl

theorem step_stop_ne_start (event : WatcherEvent) (stored : state.stop ≠ .start) :
    (step convert fileName state event).stop ≠ .start := by
  cases event with
  | watcher answer => rwa [step, watcherStep_stop]
  | stopper => exact (stopperStep_frame state).2.2

theorem step_committed (held : state.Sound) (event : WatcherEvent) (stored : state.stop ≠ .start) :
    (step convert fileName state event).committed ≤ state.committed := by
  cases event with
  | watcher answer => exact watcherStep_committed answer (held.stopping.mpr stored)
  | stopper =>
      obtain ⟨point, callbacks, _⟩ := stopperStep_frame state
      simp [step, committed, point, callbacks]

theorem run_append (before after : List WatcherEvent) :
    run convert fileName (before ++ after) =
      after.foldl (step convert fileName) (run convert fileName before) :=
  List.foldl_append

/-- From the first step of `stop` on no callback starts, except one that the watcher has already
decided to make. -/
theorem stop_silences (before after : List WatcherEvent) :
    (run convert fileName (before ++ .stopper :: after)).callbacks ≤
      (run convert fileName before).callbacks +
        if (run convert fileName before).point = .callback then 1 else 0 := by
  obtain ⟨point, callbacks, stored⟩ := stopperStep_frame (run convert fileName before)
  have silenced : (run convert fileName (before ++ .stopper :: after)).Sound ∧
      (run convert fileName (before ++ .stopper :: after)).stop ≠ .start ∧
      (run convert fileName (before ++ .stopper :: after)).committed ≤
        (run convert fileName before).committed := by
    rw [run_append, List.foldl_cons]
    apply TransitionRun.foldl_invariant fun state : WatcherState =>
      state.Sound ∧ state.stop ≠ .start ∧
        state.committed ≤ (run convert fileName before).committed
    · exact ⟨(run_sound before).stopperStep, stored, by simp [step, committed, point, callbacks]⟩
    · exact fun state held event _ =>
        ⟨step_sound held.1 event, step_stop_ne_start event held.2.1,
          Nat.le_trans (step_committed held.1 event held.2.1) held.2.2⟩
  exact Nat.le_trans (Nat.le_add_right _ _) silenced.2.2

theorem watcherStep_remaining (held : state.Sound) (stopped : state.stop = .done)
    (answer : WatchAnswer) :
    (watcherStep convert fileName state answer).point.remaining ≤ state.point.remaining - 1 := by
  have stopping : state.stopping = true := held.stopping.mpr (by simp [stopped])
  have requested : state.stopRequested = true := held.requested.mpr (Or.inr stopped)
  have signalled : state.point.listening = true →
      state.stopEvent = .null ∨ state.stopEvent = .signalled := by
    intro listening
    rcases held.told listening with null | told | ⟨waiting, _⟩
    · exact Or.inl null
    · exact Or.inr told
    · exact absurd waiting (held.signalled stopped listening)
  unfold watcherStep
  cases here : state.point with
  | openDirectory => cases answer.granted <;> simp [WatchPoint.remaining]
  | registerCallback => simp [requested, WatchPoint.remaining]
  | loopHead => simp [requested, WatchPoint.remaining]
  | issueRead => cases answer.granted <;> simp [WatchPoint.remaining]
  | wait =>
      rcases signalled (by rw [here]; rfl) with null | told
      · simp [null, WatchPoint.remaining]
      · cases answer.wait <;> simp [told, WatchPoint.remaining]
  | getResult =>
      simp only
      split <;> simp [WatchPoint.remaining]
  | searchRecords bytes =>
      simp only
      split <;> simp [WatchPoint.remaining]
  | debounce =>
      rcases signalled (by rw [here]; rfl) with null | told
      · exact absurd null (held.served (by rw [here]; rfl))
      · simp [told, WatchPoint.remaining]
  | loadStopping => simp [stopping, WatchPoint.remaining]
  | _ => simp [WatchPoint.remaining, here]

theorem foldl_remaining {events : List WatcherEvent} (held : state.Sound)
    (stopped : state.stop = .done) :
    (events.foldl (step convert fileName) state).point.remaining ≤
      state.point.remaining - events.countP WatcherEvent.byWatcher := by
  induction events generalizing state with
  | nil => simp
  | cons event events ih =>
      rw [List.foldl_cons]
      cases event with
      | watcher answer =>
          have first : (watcherStep convert fileName state answer).point.remaining ≤
              state.point.remaining - 1 := watcherStep_remaining held stopped answer
          have still : (watcherStep convert fileName state answer).stop = .done :=
            (watcherStep_stop answer).trans stopped
          have rest := ih (held.watcherStep answer) still
          simp only [step, WatcherEvent.byWatcher, List.countP_cons, if_true] at rest ⊢
          omega
      | stopper =>
          have idle : stopperStep state = state := by simp [stopperStep, stopped]
          have rest := ih held stopped
          simpa [step, idle, WatcherEvent.byWatcher] using rest

def granted (wait : WaitResult) : WatchAnswer := ⟨true, wait, []⟩

def stoppedInWait : List WatcherEvent :=
  List.replicate 6 (.watcher (granted .completed)) ++ List.replicate 3 .stopper

end WatcherState

end PatchFix
