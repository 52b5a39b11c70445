import Mathlib.Data.Finmap
import PatchFix.CrashJournal
import PatchFix.Library.TransitionRun

/-!
`log::get`: the loggers by name, created when they are first asked for. A `std::shared_ptr` is an
option, and null is `none`. The registry that refuses a second logger of one name is spdlog's own.
-/

namespace PatchFix

inductive LogLevel where
  | trace | info | off
  deriving DecidableEq, Repr

structure Logger (Sink : Type*) where
  name : Text
  sinks : List Sink
  pattern : Option Text
  level : LogLevel
  flushOn : LogLevel
  deriving DecidableEq

/-- spdlog's registry, as far as `register_logger` is documented: it throws where a logger of the
same name exists, and otherwise adds the logger under its name. -/
structure Spdlog (Sink : Type*) where
  Registry : Type
  registered : Registry → Text → Prop
  registerLogger : Logger Sink → Registry → Option Registry
  throws_iff : ∀ logger registry,
    registerLogger logger registry = none ↔ registered registry logger.name
  registered_iff : ∀ logger registry after, registerLogger logger registry = some after →
    ∀ name, registered after name ↔ name = logger.name ∨ registered registry name

def nullLogger {Sink : Type*} : Logger Sink where
  name := "null".toList
  sinks := []
  pattern := none
  level := .off
  flushOn := .off

def toDisplayName (raw : Text) : Text :=
  (raw.map fun char => if char = '/' then '.' else char).map fun char =>
    if char = '\\' then '.' else char

structure LogImpl (Sink : Type*) where
  sinks : List Sink
  loggers : Finmap fun _ : Text => Option (Logger Sink)

/-- A call of `log::get`. Creating the logger may throw before it gets to `register_logger`. -/
structure GetCall where
  name : Text
  creationThrows : Bool
  deriving DecidableEq

inductive GetOutcome (Sink : Type*) where
  | returned (logger : Option (Logger Sink))
  | threw

structure LogState {Sink : Type*} (spdlog : Spdlog Sink) where
  gInstance : Option (LogImpl Sink)
  registry : spdlog.Registry

namespace LogState

variable {Sink : Type*} {spdlog : Spdlog Sink}

def afterInit (sinks : List Sink) (registry : spdlog.Registry) : LogState spdlog where
  gInstance := some { sinks := sinks, loggers := ∅ }
  registry := registry

def loggers (state : LogState spdlog) : Option (Finmap fun _ : Text => Option (Logger Sink)) :=
  state.gInstance.map LogImpl.loggers

def makeLogger (call : GetCall) (sinks : List Sink) (registry : spdlog.Registry) :
    Option (Logger Sink × spdlog.Registry) :=
  if call.creationThrows then none
  else
    let logger : Logger Sink := {
      name := toDisplayName call.name
      sinks := sinks
      pattern := some "[%Y-%m-%d %H:%M:%S.%e] [%n] [%l] %v".toList
      level := .trace
      flushOn := .info }
    (spdlog.registerLogger logger registry).map fun after => (logger, after)

def get (state : LogState spdlog) (call : GetCall) : GetOutcome Sink × LogState spdlog :=
  match state.gInstance with
  | none => (.returned (some nullLogger), state)
  | some impl =>
      match impl.loggers.lookup call.name with
      | some found => (.returned found, state)
      | none =>
          -- `operator[]` puts a null pointer into the map before there is a logger.
          let slotted := impl.loggers.insert call.name none
          match makeLogger call impl.sinks state.registry with
          | none => (.threw, { state with gInstance := some { impl with loggers := slotted } })
          | some (logger, registry) =>
              (.returned (some logger),
                { gInstance := some { impl with loggers := slotted.insert call.name (some logger) }
                  registry := registry })

def step (state : LogState spdlog) (call : GetCall) : LogState spdlog := (state.get call).2

/-- The call returns a logger, or it throws and the map is as it was. -/
def KeepsPromise (state : LogState spdlog) (call : GetCall) : Prop :=
  match state.get call with
  | (.returned logger, _) => logger ≠ none
  | (.threw, after) => after.loggers = state.loggers

def CreationFails (registry : spdlog.Registry) (call : GetCall) : Prop :=
  call.creationThrows = true ∨ spdlog.registered registry (toDisplayName call.name)

theorem makeLogger_cases (call : GetCall) (sinks : List Sink) (registry : spdlog.Registry) :
    (CreationFails registry call ∧ makeLogger call sinks registry = none) ∨
      (¬CreationFails registry call ∧ ∃ logger after,
        makeLogger call sinks registry = some (logger, after) ∧
          ∀ name, spdlog.registered after name ↔
            name = toDisplayName call.name ∨ spdlog.registered registry name) := by
  unfold makeLogger CreationFails
  by_cases throws : call.creationThrows = true
  · exact Or.inl ⟨Or.inl throws, if_pos throws⟩
  · rw [if_neg throws]
    dsimp only
    cases made : spdlog.registerLogger _ registry with
    | none => exact Or.inl ⟨Or.inr ((spdlog.throws_iff _ registry).mp made), rfl⟩
    | some after =>
        refine Or.inr ⟨?_, _, after, rfl, spdlog.registered_iff _ registry after made⟩
        rintro (creation | taken)
        · exact throws creation
        · rw [(spdlog.throws_iff _ registry).mpr taken] at made
          contradiction

theorem get_cases {state : LogState spdlog} {impl : LogImpl Sink}
    (initialised : state.gInstance = some impl) (call : GetCall) :
    (∃ found, impl.loggers.lookup call.name = some found ∧
      state.get call = (.returned found, state)) ∨
    (impl.loggers.lookup call.name = none ∧ CreationFails state.registry call ∧
      state.get call = (.threw,
        { state with
          gInstance := some { impl with loggers := impl.loggers.insert call.name none } })) ∨
    (impl.loggers.lookup call.name = none ∧ ¬CreationFails state.registry call ∧
      ∃ logger registry, state.get call = (.returned (some logger),
        { gInstance := some
            { impl with loggers := impl.loggers.insert call.name (some logger) }
          registry := registry }) ∧
        ∀ name, spdlog.registered registry name ↔
          name = toDisplayName call.name ∨ spdlog.registered state.registry name) := by
  unfold get
  rw [initialised]
  dsimp only
  cases present : impl.loggers.lookup call.name with
  | some found => exact Or.inl ⟨found, rfl, rfl⟩
  | none =>
      dsimp only
      rcases makeLogger_cases call impl.sinks state.registry with
        ⟨fails, throws⟩ | ⟨creates, logger, registry, made, names⟩
      · rw [throws]
        exact Or.inr (Or.inl ⟨rfl, fails, rfl⟩)
      · rw [made]
        dsimp only
        rw [Finmap.insert_insert]
        exact Or.inr (Or.inr ⟨rfl, creates, logger, registry, rfl, names⟩)

structure Tracks (initial : spdlog.Registry) (done : List GetCall) (impl : LogImpl Sink)
    (state : LogState spdlog) : Prop where
  initialised : state.gInstance = some impl
  unasked : ∀ name, impl.loggers.lookup name = none ↔ ∀ earlier ∈ done, earlier.name ≠ name
  notNull : ∀ name, impl.loggers.lookup name ≠ some none
  registered : ∀ name, spdlog.registered state.registry name ↔
    spdlog.registered initial name ∨ ∃ earlier ∈ done, toDisplayName earlier.name = name

/-- If the call is the first for its name, its logger can be created: nothing throws, and nobody
has the display name. -/
def Creates (initial : spdlog.Registry) (done : List GetCall) (call : GetCall) : Prop :=
  (∀ earlier ∈ done, earlier.name ≠ call.name) →
    call.creationThrows = false ∧ ¬spdlog.registered initial (toDisplayName call.name) ∧
      ∀ earlier ∈ done, toDisplayName earlier.name ≠ toDisplayName call.name

theorem Tracks.creates_iff {initial : spdlog.Registry} {done : List GetCall}
    {impl : LogImpl Sink} {state : LogState spdlog} (tracks : Tracks initial done impl state)
    (call : GetCall) :
    Creates initial done call ↔
      (impl.loggers.lookup call.name = none → ¬CreationFails state.registry call) := by
  rw [Creates, tracks.unasked, CreationFails, tracks.registered]
  simp only [not_or, not_exists, not_and, Bool.not_eq_true, ne_eq]

theorem Tracks.promise_iff {initial : spdlog.Registry} {done : List GetCall}
    {impl : LogImpl Sink} {state : LogState spdlog} (tracks : Tracks initial done impl state)
    (call : GetCall) : state.KeepsPromise call ↔ Creates initial done call := by
  rw [tracks.creates_iff, KeepsPromise]
  rcases get_cases tracks.initialised call with
    ⟨found, present, result⟩ | ⟨absent, fails, result⟩ |
      ⟨absent, creates, logger, registry, result, _⟩
  · rw [result]
    refine iff_of_true ?_ fun absent => by rw [present] at absent; contradiction
    rintro rfl
    exact tracks.notNull call.name present
  · rw [result]
    refine iff_of_false ?_ fun creates => creates absent fails
    intro unchanged
    have same : impl.loggers.insert call.name none = impl.loggers := by
      simpa [loggers, tracks.initialised] using unchanged
    have inserted : (impl.loggers.insert call.name none).lookup call.name = some none :=
      Finmap.lookup_insert impl.loggers
    rw [same, absent] at inserted
    contradiction
  · rw [result]
    exact iff_of_true (Option.some_ne_none logger) fun _ => creates

theorem Tracks.asked {initial : spdlog.Registry} {done : List GetCall} {impl : LogImpl Sink}
    {state : LogState spdlog} (tracks : Tracks initial done impl state) {call : GetCall}
    {found : Option (Logger Sink)} (present : impl.loggers.lookup call.name = some found) :
    Tracks initial (done ++ [call]) impl state := by
  have asked : ∃ earlier ∈ done, earlier.name = call.name := by
    by_contra unasked
    have absent := (tracks.unasked call.name).mpr fun earlier member same =>
      unasked ⟨earlier, member, same⟩
    rw [present] at absent
    contradiction
  obtain ⟨earlier, member, same⟩ := asked
  refine ⟨tracks.initialised, ?_, tracks.notNull, ?_⟩
  · intro name
    rw [tracks.unasked, List.forall_mem_append, List.forall_mem_singleton]
    exact ⟨fun unasked => ⟨unasked, same ▸ unasked earlier member⟩, And.left⟩
  · intro name
    simp only [tracks.registered, List.mem_append, List.mem_singleton, or_and_right, exists_or,
      exists_eq_left]
    refine or_congr_right ⟨Or.inl, ?_⟩
    rintro (taken | display)
    · exact taken
    · exact ⟨earlier, member, by rw [same, display]⟩

theorem Tracks.created {initial : spdlog.Registry} {done : List GetCall} {impl : LogImpl Sink}
    {state : LogState spdlog} (tracks : Tracks initial done impl state) {call : GetCall}
    (logger : Logger Sink) {registry : spdlog.Registry}
    (names : ∀ name, spdlog.registered registry name ↔
      name = toDisplayName call.name ∨ spdlog.registered state.registry name) :
    Tracks initial (done ++ [call])
      { impl with loggers := impl.loggers.insert call.name (some logger) }
      { gInstance := some { impl with loggers := impl.loggers.insert call.name (some logger) }
        registry := registry } := by
  refine ⟨rfl, ?_, ?_, ?_⟩
  · intro name
    rw [List.forall_mem_append, List.forall_mem_singleton, ← tracks.unasked]
    by_cases same : name = call.name
    · subst same
      simp
    · rw [Finmap.lookup_insert_of_ne impl.loggers same]
      exact ⟨fun missing => ⟨missing, Ne.symm same⟩, And.left⟩
  · intro name
    by_cases same : name = call.name
    · subst same
      simp
    · rw [Finmap.lookup_insert_of_ne impl.loggers same]
      exact tracks.notNull name
  · intro name
    simp only [names, tracks.registered, List.mem_append, List.mem_singleton, or_and_right,
      exists_or, exists_eq_left]
    constructor
    · rintro (rfl | initially | earlier)
      · exact Or.inr (Or.inr rfl)
      · exact Or.inl initially
      · exact Or.inr (Or.inl earlier)
    · rintro (initially | earlier | rfl)
      · exact Or.inr (Or.inl initially)
      · exact Or.inr (Or.inr earlier)
      · exact Or.inl rfl

theorem Tracks.step {initial : spdlog.Registry} {done : List GetCall} {impl : LogImpl Sink}
    {state : LogState spdlog} (tracks : Tracks initial done impl state) {call : GetCall}
    (creates : Creates initial done call) :
    ∃ after, Tracks initial (done ++ [call]) after (state.step call) := by
  have allowed := (tracks.creates_iff call).mp creates
  rcases get_cases tracks.initialised call with
    ⟨found, present, result⟩ | ⟨absent, fails, _⟩ | ⟨absent, _, logger, registry, result, names⟩
  · rw [LogState.step, result]
    exact ⟨impl, tracks.asked present⟩
  · exact absurd fails (allowed absent)
  · rw [LogState.step, result]
    exact ⟨_, tracks.created logger names⟩

theorem afterInit_tracks (sinks : List Sink) (registry : spdlog.Registry) :
    Tracks registry [] { sinks := sinks, loggers := ∅ } (afterInit sinks registry) := by
  refine ⟨rfl, ?_, ?_, ?_⟩
  · simp [Finmap.lookup_empty]
  · simp [Finmap.lookup_empty]
  · simp [afterInit]

/-! What a call that throws leaves behind. -/

def Holds (name : Text) (entry : Option (Logger Sink)) (state : LogState spdlog) : Prop :=
  ∃ impl, state.gInstance = some impl ∧ impl.loggers.lookup name = some entry

theorem Holds.step {name : Text} {entry : Option (Logger Sink)} {state : LogState spdlog}
    (holds : state.Holds name entry) (call : GetCall) : (state.step call).Holds name entry := by
  obtain ⟨impl, initialised, present⟩ := holds
  have kept : ∀ other, impl.loggers.lookup call.name = none →
      (impl.loggers.insert call.name other).lookup name = some entry := by
    intro other absent
    have different : name ≠ call.name := by
      rintro rfl
      rw [present] at absent
      contradiction
    rw [Finmap.lookup_insert_of_ne impl.loggers different, present]
  rcases get_cases initialised call with
    ⟨_, _, result⟩ | ⟨absent, _, result⟩ | ⟨absent, _, logger, registry, result, _⟩
  · exact ⟨impl, by rw [LogState.step, result, initialised], present⟩
  · exact ⟨_, congrArg (fun after => after.2.gInstance) result, kept none absent⟩
  · exact ⟨_, congrArg (fun after => after.2.gInstance) result, kept (some logger) absent⟩

theorem Holds.get {name : Text} {entry : Option (Logger Sink)} {state : LogState spdlog}
    (holds : state.Holds name entry) (creationThrows : Bool) :
    (state.get ⟨name, creationThrows⟩).1 = .returned entry := by
  obtain ⟨impl, initialised, present⟩ := holds
  simp only [LogState.get, initialised, present]

theorem threw_holds {state : LogState spdlog} {call : GetCall}
    (threw : (state.get call).1 = .threw) :
    state.loggers.bind (Finmap.lookup call.name) = none ∧
      (state.step call).Holds call.name none := by
  cases initialised : state.gInstance with
  | none => simp [LogState.get, initialised] at threw
  | some impl =>
      rcases get_cases initialised call with
        ⟨found, _, result⟩ | ⟨absent, _, result⟩ | ⟨_, _, logger, registry, result, _⟩
      · rw [result] at threw
        contradiction
      · refine ⟨by rw [loggers, initialised]; exact absent, ?_⟩
        exact ⟨_, congrArg (fun after => after.2.gInstance) result, Finmap.lookup_insert _⟩
      · rw [result] at threw
        contradiction

theorem threw_then_null {state : LogState spdlog} {call : GetCall}
    (threw : (state.get call).1 = .threw) (later : List GetCall) (creationThrows : Bool) :
    ((later.foldl step (state.step call)).get ⟨call.name, creationThrows⟩).1 =
      .returned none := by
  have holds := (threw_holds threw).2
  exact Holds.get (TransitionRun.foldl_invariant (Holds call.name none) holds
    fun _ held next _ => held.step next) creationThrows

theorem threw_breaks {state : LogState spdlog} {call : GetCall}
    (threw : (state.get call).1 = .threw) : ¬state.KeepsPromise call := by
  obtain ⟨absent, impl, slotted, present⟩ := threw_holds threw
  rw [KeepsPromise, show state.get call = (.threw, state.step call) from Prod.ext threw rfl]
  intro unchanged
  rw [← unchanged, loggers, slotted] at absent
  rw [show impl.loggers.lookup call.name = none from absent] at present
  contradiction

/-- Every call of a run after `log::init` returns a logger, or throws and leaves the map alone, if
and only if no first call for a name fails to create its logger. -/
theorem keepsPromise_iff (sinks : List Sink) (registry : spdlog.Registry)
    (calls : List GetCall) :
    TransitionRun.Along step KeepsPromise (afterInit sinks registry : LogState spdlog) calls ↔
      ∀ done call rest, calls = done ++ call :: rest → Creates registry done call :=
  TransitionRun.along_iff_history (fun done state => ∃ impl, Tracks registry done impl state)
    (fun _ _ call tracked => tracked.choose_spec.promise_iff call)
    (fun _ _ _ tracked creates => tracked.choose_spec.step creates)
    ⟨_, afterInit_tracks sinks registry⟩ calls

def nameRegistry (Sink : Type*) : Spdlog Sink where
  Registry := List Text
  registered registry name := name ∈ registry
  registerLogger logger registry :=
    if logger.name ∈ registry then none else some (logger.name :: registry)
  throws_iff logger registry := by simp
  registered_iff := by
    intro logger registry after registers name
    split at registers
    · contradiction
    · cases registers
      exact List.mem_cons

def sameDisplayName : List GetCall :=
  [⟨"core/log".toList, false⟩, ⟨"core.log".toList, false⟩]

theorem keepsPromise_iff_sameDisplayName :
    TransitionRun.Along step KeepsPromise (afterInit [()] [] : LogState (nameRegistry Unit))
        sameDisplayName ↔
      ∀ done call rest, sameDisplayName = done ++ call :: rest →
        @Creates Unit (nameRegistry Unit) [] done call :=
  @keepsPromise_iff Unit (nameRegistry Unit) [()] ([] : List Text) sameDisplayName

theorem sameDisplayName_null :
    ¬(∀ calls, TransitionRun.Along step KeepsPromise
      (afterInit [()] [] : LogState (nameRegistry Unit)) calls) ∧
    ((sameDisplayName.foldl step (afterInit [()] [] : LogState (nameRegistry Unit))).get
      ⟨"core.log".toList, false⟩).1 = .returned none := by
  have threw : ((step (afterInit [()] [] : LogState (nameRegistry Unit))
      ⟨"core/log".toList, false⟩).get ⟨"core.log".toList, false⟩).1 = .threw := rfl
  exact ⟨fun promised => threw_breaks threw (promised sameDisplayName).2.1,
    threw_then_null threw [] false⟩

end LogState

end PatchFix
