import PatchFix.Library.TransitionRun

/-!
`win32::UniqueHandle`: the handles that objects own through any sequence of constructions, moves,
resets, releases and destructions, and the calls of `CloseHandle` they make.
-/

namespace PatchFix

open SlotCount

inductive HandlePolicy where
  | nullInvalid | negativeOneInvalid
  deriving DecidableEq, Repr

def HandlePolicy.invalid : HandlePolicy → UInt64
  | .nullInvalid => 0
  | .negativeOneInvalid => 0xFFFFFFFFFFFFFFFF

/-- Operations on objects. An operation that the language does not let a program perform, on an
object outside its lifetime or between two policies, has no effect here. -/
inductive HandleOp (Object : Type) where
  | construct (object : Object)
  | adopt (object : Object) (handle : UInt64)
  | moveConstruct (object other : Object)
  | moveAssign (object other : Object)
  | reset (object : Object)
  | release (object : Object)
  | destroy (object : Object)

/-- `handle` is `m_handle` of the objects in their lifetime; the lists are what constructors were
given, what `CloseHandle` was called with and what `release` returned, with the object's policy. -/
structure HandleState (Object : Type) where
  handle : Object → Option UInt64
  adopted : List (HandlePolicy × UInt64)
  closed : List (HandlePolicy × UInt64)
  released : List (HandlePolicy × UInt64)

namespace HandleState

variable {Object : Type} [DecidableEq Object] (policy : Object → HandlePolicy)

def initial : HandleState Object := ⟨fun _ => none, [], [], []⟩

def put (object : Object) (handle : Option UInt64) (state : HandleState Object) :
    HandleState Object :=
  { state with handle := Function.update state.handle object handle }

def reset (object : Object) (state : HandleState Object) : HandleState Object :=
  match state.handle object with
  | none => state
  | some handle =>
      if handle ≠ (policy object).invalid then
        put object (some (policy object).invalid)
          { state with closed := state.closed ++ [(policy object, handle)] }
      else state

def take (object other : Object) (handle : UInt64) (state : HandleState Object) :
    HandleState Object :=
  put object (some handle) (put other (some (policy other).invalid) state)

def step (state : HandleState Object) : HandleOp Object → HandleState Object
  | .construct object =>
      match state.handle object with
      | none => put object (some (policy object).invalid) state
      | some _ => state
  | .adopt object handle =>
      match state.handle object with
      | none =>
          put object (some handle)
            { state with adopted := state.adopted ++ [(policy object, handle)] }
      | some _ => state
  | .moveConstruct object other =>
      match state.handle object, state.handle other with
      | none, some handle =>
          if policy object = policy other then take policy object other handle state else state
      | _, _ => state
  | .moveAssign object other =>
      match state.handle object, state.handle other with
      | some _, some handle =>
          if policy object = policy other ∧ object ≠ other then
            take policy object other handle (reset policy object state)
          else state
      | _, _ => state
  | .reset object => reset policy object state
  | .release object =>
      match state.handle object with
      | none => state
      | some handle =>
          put object (some (policy object).invalid)
            { state with released := state.released ++ [(policy object, handle)] }
  | .destroy object =>
      match state.handle object with
      | none => state
      | some _ => put object none (reset policy object state)

def run (ops : List (HandleOp Object)) : HandleState Object := ops.foldl (step policy) initial

end HandleState

namespace HandleState

variable {Object : Type} [DecidableEq Object] (policy : Object → HandlePolicy)

def owned (state : HandleState Object) (object : Object) : Option (HandlePolicy × UInt64) :=
  (state.handle object).map fun handle => (policy object, handle)

/-- A handle that was adopted is owned, or was closed or released, as often as it was adopted. -/
structure Conserved [Fintype Object] (state : HandleState Object) : Prop where
  balance : ∀ kind handle, handle ≠ kind.invalid →
    state.adopted.count (kind, handle) =
      occurrences (state.owned policy) (kind, handle) + state.closed.count (kind, handle) +
        state.released.count (kind, handle)
  valid : ∀ close ∈ state.closed, close.2 ≠ close.1.invalid

variable {policy : Object → HandlePolicy} {state : HandleState Object}

theorem owned_put (object : Object) (entry : Option UInt64) :
    owned policy (put object entry state) =
      Function.update (owned policy state) object
        (entry.map fun handle => (policy object, handle)) := by
  funext other
  by_cases same : other = object
  · subst same
    simp [owned, put]
  · simp [owned, put, same]

theorem invalid_ne {kind : HandlePolicy} {handle : UInt64} (real : handle ≠ kind.invalid)
    (other : HandlePolicy) : (other, other.invalid) ≠ (kind, handle) := by
  intro same
  obtain ⟨rfl, rfl⟩ := Prod.mk.inj same
  exact real rfl

variable [Fintype Object]

/-- What an object gives up was adopted, closed or released in the same step, or kept. -/
theorem Conserved.transfer (held : Conserved policy state) (object : Object)
    (entry : Option UInt64) (adopted closed released : List (HandlePolicy × UInt64))
    (flow : ∀ kind handle, handle ≠ kind.invalid →
      (if owned policy state object = some (kind, handle) then 1 else 0) +
          adopted.count (kind, handle) =
        (if (entry.map fun handle => (policy object, handle)) = some (kind, handle)
          then 1 else 0) + closed.count (kind, handle) + released.count (kind, handle))
    (valid : ∀ close ∈ closed, close.2 ≠ close.1.invalid) :
    Conserved policy (put object entry
      ⟨state.handle, state.adopted ++ adopted, state.closed ++ closed,
        state.released ++ released⟩) := by
  refine ⟨?_, ?_⟩
  · intro kind handle real
    have count := occurrences_update (owned policy state) object
      (entry.map fun handle => (policy object, handle)) (kind, handle)
    have balance := held.balance kind handle real
    have moved := flow kind handle real
    have kept : owned policy ⟨state.handle, state.adopted ++ adopted, state.closed ++ closed,
        state.released ++ released⟩ = owned policy state := rfl
    rw [owned_put, kept]
    simp only [put, List.count_append]
    omega
  · intro close member
    rcases List.mem_append.mp member with earlier | later
    · exact held.valid close earlier
    · exact valid close later

variable (policy) in
omit [DecidableEq Object] [Fintype Object] in
theorem unowned {kind : HandlePolicy} {handle : UInt64} (real : handle ≠ kind.invalid)
    (object : Object) (entry : Option UInt64)
    (invalid : ∀ value, entry = some value → value = (policy object).invalid) :
    (entry.map fun handle => (policy object, handle)) ≠ some (kind, handle) := by
  intro owner
  obtain ⟨value, rfl, same⟩ := Option.map_eq_some_iff.mp owner
  rw [invalid value rfl] at same
  exact invalid_ne real _ same

theorem Conserved.put_unowned (held : Conserved policy state) (object : Object)
    (entry : Option UInt64)
    (before : ∀ value, state.handle object = some value → value = (policy object).invalid)
    (after : ∀ value, entry = some value → value = (policy object).invalid) :
    Conserved policy (put object entry state) := by
  have moved := held.transfer object entry [] [] []
  simp only [List.append_nil, List.count_nil, List.not_mem_nil] at moved
  apply moved
  · intro kind handle real
    rw [owned, if_neg (unowned policy real _ _ before), if_neg (unowned policy real _ _ after)]
  · exact fun close absurd => absurd.elim

theorem Conserved.reset (held : Conserved policy state) (object : Object) :
    Conserved policy (reset policy object state) := by
  unfold HandleState.reset
  cases current : state.handle object with
  | none => exact held
  | some value =>
      by_cases real : value ≠ (policy object).invalid
      · have moved := held.transfer object (some (policy object).invalid)
          [] [(policy object, value)] []
        simp only [List.append_nil, List.count_nil] at moved
        simp only [if_pos real]
        apply moved
        · intro kind handle valid
          have gone := unowned policy valid object (some (policy object).invalid) (by simp)
          rw [if_neg gone, owned, current]
          simp [List.count_singleton]
        · intro close member
          obtain rfl := List.mem_singleton.mp member
          exact real
      · simp only [if_neg real]
        exact held

omit [Fintype Object] in
theorem reset_handle (object : Object) :
    (reset policy object state).handle =
      Function.update state.handle object
        ((state.handle object).map fun _ => (policy object).invalid) := by
  funext other
  unfold HandleState.reset
  by_cases same : other = object
  · subst same
    cases current : state.handle other with
    | none => simp [current]
    | some value =>
        by_cases real : value ≠ (policy other).invalid
        · simp [put, real]
        · simp [current, not_not.mp real]
  · cases current : state.handle object with
    | none => simp [same]
    | some value =>
        by_cases real : value ≠ (policy object).invalid <;> simp [put, real, same]

theorem Conserved.put_owned (held : Conserved policy state) (object : Object) (value : UInt64)
    (before : ∀ old, state.handle object = some old → old = (policy object).invalid) :
    Conserved policy (put object (some value)
      { state with adopted := state.adopted ++ [(policy object, value)] }) := by
  have moved := held.transfer object (some value) [(policy object, value)] [] []
  simp only [List.append_nil, List.count_nil, List.not_mem_nil] at moved
  apply moved
  · intro kind handle real
    rw [owned, if_neg (unowned policy real _ _ before)]
    simp [List.count_singleton]
  · exact fun close absurd => absurd.elim

theorem Conserved.put_released (held : Conserved policy state) {object : Object} {value : UInt64}
    (current : state.handle object = some value) :
    Conserved policy (put object (some (policy object).invalid)
      { state with released := state.released ++ [(policy object, value)] }) := by
  have moved := held.transfer object (some (policy object).invalid) [] []
    [(policy object, value)]
  simp only [List.append_nil, List.count_nil, List.not_mem_nil] at moved
  apply moved
  · intro kind handle real
    have gone := unowned policy real object (some (policy object).invalid) (by simp)
    rw [if_neg gone, owned, current]
    simp [List.count_singleton]
  · exact fun close absurd => absurd.elim

/-- The two objects of a move have one policy, so what one loses the other owns. -/
theorem Conserved.take (held : Conserved policy state) {object other : Object} {value : UInt64}
    (kinds : policy object = policy other) (distinct : object ≠ other)
    (before : ∀ old, state.handle object = some old → old = (policy object).invalid)
    (current : state.handle other = some value) :
    Conserved policy (take policy object other value state) := by
  have released := held.put_released current
  have given := released.put_owned object value (by
    intro old same
    apply before old
    simpa [put, distinct] using same)
  refine ⟨?_, held.valid⟩
  intro kind handle real
  have balance := given.balance kind handle real
  simp only [put, List.count_append, kinds] at balance
  have same : owned policy (HandleState.take policy object other value state) =
      owned policy (put object (some value) (put other (some (policy other).invalid)
        { state with released := state.released ++ [(policy other, value)] })) := rfl
  simp only [put] at same
  rw [same]
  simp only [HandleState.take, put]
  unfold owned at balance ⊢
  simp only at balance ⊢
  omega

omit [Fintype Object] in
theorem reset_unowned (object : Object) (value : UInt64)
    (current : (HandleState.reset policy object state).handle object = some value) :
    value = (policy object).invalid := by
  rw [reset_handle, Function.update_self] at current
  obtain ⟨old, _, same⟩ := Option.map_eq_some_iff.mp current
  exact same.symm

theorem Conserved.step (held : Conserved policy state) (op : HandleOp Object) :
    Conserved policy (step policy state op) := by
  cases op with
  | construct object =>
      cases current : state.handle object with
      | some value => simpa [HandleState.step, current] using held
      | none =>
          simpa [HandleState.step, current] using held.put_unowned object
            (some (policy object).invalid) (by simp [current]) (by simp)
  | adopt object value =>
      cases current : state.handle object with
      | some old => simpa [HandleState.step, current] using held
      | none =>
          simpa [HandleState.step, current] using held.put_owned object value
            (by simp [current])
  | moveConstruct object other =>
      cases current : state.handle object with
      | some old => simpa [HandleState.step, current] using held
      | none =>
          cases source : state.handle other with
          | none => simpa [HandleState.step, current, source] using held
          | some value =>
              by_cases kinds : policy object = policy other
              · have distinct : object ≠ other := by
                  rintro rfl
                  exact absurd source (by simp [current])
                simpa [HandleState.step, current, source, kinds] using
                  held.take kinds distinct (by simp [current]) source
              · simpa [HandleState.step, current, source, kinds] using held
  | moveAssign object other =>
      cases current : state.handle object with
      | none => simpa [HandleState.step, current] using held
      | some old =>
          cases source : state.handle other with
          | none => simpa [HandleState.step, current, source] using held
          | some value =>
              by_cases movable : policy object = policy other ∧ object ≠ other
              · have kept : (HandleState.reset policy object state).handle other = some value := by
                  rw [reset_handle, Function.update_of_ne movable.2.symm, source]
                simpa [HandleState.step, current, source, movable] using
                  (held.reset object).take movable.1 movable.2 (reset_unowned object) kept
              · simpa [HandleState.step, current, source, movable] using held
  | reset object => exact held.reset object
  | release object =>
      cases current : state.handle object with
      | none => simpa [HandleState.step, current] using held
      | some value => simpa [HandleState.step, current] using held.put_released current
  | destroy object =>
      cases current : state.handle object with
      | none => simpa [HandleState.step, current] using held
      | some value =>
          simpa [HandleState.step, current] using
            (held.reset object).put_unowned object none (reset_unowned object)
              (by simp)

theorem run_conserved (ops : List (HandleOp Object)) : Conserved policy (run policy ops) :=
  TransitionRun.foldl_invariant (Conserved policy)
    ⟨by simp [initial, owned, occurrences], by simp [initial]⟩ fun _ held op _ => held.step op

end HandleState

end PatchFix
