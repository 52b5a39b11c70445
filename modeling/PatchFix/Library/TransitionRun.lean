import Mathlib.Algebra.BigOperators.Group.Finset.Basic
import Mathlib.Algebra.BigOperators.Group.Finset.Piecewise
import Mathlib.Data.Fintype.BigOperators
import Mathlib.Data.List.Basic

/-!
Runs of a deterministic step function: the states a list of events passes through, and how many of
finitely many slots hold a value when a step writes one of them.
-/

namespace TransitionRun

variable {State Event : Type*} {step : State → Event → State}

def states (step : State → Event → State) : State → List Event → List State
  | state, [] => [state]
  | state, event :: rest => state :: states step (step state event) rest

theorem mem_states {start reached : State} {events : List Event} :
    reached ∈ states step start events ↔
      ∃ done rest, events = done ++ rest ∧ reached = done.foldl step start := by
  induction events generalizing start with
  | nil =>
      simp only [states, List.mem_singleton]
      constructor
      · intro same
        exact ⟨[], [], rfl, same⟩
      · rintro ⟨done, rest, split, rfl⟩
        obtain ⟨rfl, rfl⟩ := List.append_eq_nil_iff.mp split.symm
        rfl
  | cons event events ih =>
      simp only [states, List.mem_cons, ih]
      constructor
      · rintro (same | ⟨done, rest, split, same⟩)
        · exact ⟨[], event :: events, rfl, same⟩
        · exact ⟨event :: done, rest, by rw [split, List.cons_append], same⟩
      · rintro ⟨done, rest, split, same⟩
        cases done with
        | nil => exact Or.inl same
        | cons first done =>
            simp only [List.cons_append, List.cons.injEq] at split
            obtain ⟨rfl, split⟩ := split
            exact Or.inr ⟨done, rest, split, same⟩

theorem concat_eq_append_cons {events before after : List Event} {event other : Event} :
    events ++ [event] = before ++ other :: after ↔
      (before = events ∧ other = event ∧ after = []) ∨
        ∃ rest, after = rest ++ [event] ∧ events = before ++ other :: rest := by
  constructor
  · intro split
    rcases List.eq_nil_or_concat after with rfl | ⟨rest, last, rfl⟩
    · obtain ⟨same, single⟩ := List.append_inj' split rfl
      exact Or.inl ⟨same.symm, (List.singleton_inj.mp single).symm, rfl⟩
    · rw [List.concat_eq_append, ← List.cons_append, ← List.append_assoc] at split
      obtain ⟨same, single⟩ := List.append_inj' split rfl
      refine Or.inr ⟨rest, ?_, same⟩
      rw [List.concat_eq_append, List.singleton_inj.mp single]
  · rintro (⟨rfl, rfl, rfl⟩ | ⟨rest, rfl, rfl⟩)
    · rfl
    · rw [List.append_assoc, List.cons_append]

/-- The last event that takes effect in the state it meets, `met` being the state after the events
before it. -/
def Latest (met : List Event → State) (takes : State → Event → Prop) (events : List Event) :
    Option Event → Prop
  | none => ∀ before event after, events = before ++ event :: after → ¬takes (met before) event
  | some event => ∃ before after, events = before ++ event :: after ∧ takes (met before) event ∧
      ∀ between later rest, after = between ++ later :: rest →
        ¬takes (met (before ++ event :: between)) later

section Latest

variable {met : List Event → State} {takes : State → Event → Prop} {events : List Event}
  {event : Event}

theorem latest_nil : Latest met takes [] none := by
  intro before event after split
  simp at split

theorem latest_concat_of_pos (effect : takes (met events) event) :
    Latest met takes (events ++ [event]) (some event) := by
  refine ⟨events, [], rfl, effect, ?_⟩
  intro between later rest split
  simp at split

theorem Latest.concat_of_neg {last : Option Event} (latest : Latest met takes events last)
    (idle : ¬takes (met events) event) : Latest met takes (events ++ [event]) last := by
  cases last with
  | none =>
      intro before other after split
      rcases concat_eq_append_cons.mp split with ⟨rfl, rfl, -⟩ | ⟨rest, -, earlier⟩
      · exact idle
      · exact latest before other rest earlier
  | some found =>
      obtain ⟨before, after, rfl, effect, silent⟩ := latest
      refine ⟨before, after ++ [event], by simp, effect, ?_⟩
      intro between later rest split
      rcases concat_eq_append_cons.mp split with ⟨rfl, rfl, -⟩ | ⟨earlier, -, within⟩
      · exact idle
      · exact silent between later earlier within

end Latest

theorem foldl_invariant (invariant : State → Prop) {start : State} {events : List Event}
    (base : invariant start)
    (next : ∀ state, invariant state → ∀ event ∈ events, invariant (step state event)) :
    invariant (events.foldl step start) := by
  induction events generalizing start with
  | nil => exact base
  | cons event events ih =>
      exact ih (next start base event List.mem_cons_self)
        fun state held other member => next state held other (List.mem_cons_of_mem _ member)

theorem states_invariant (invariant : State → Prop) {start : State} {events : List Event}
    (base : invariant start)
    (next : ∀ state, invariant state → ∀ event ∈ events, invariant (step state event)) :
    ∀ reached ∈ states step start events, invariant reached := by
  intro reached member
  obtain ⟨done, rest, rfl, rfl⟩ := mem_states.mp member
  exact foldl_invariant invariant base fun state held event inside =>
    next state held event (List.mem_append_left rest inside)

theorem forall_states_iff {safe : State → Prop} {start : State} {events : List Event} :
    (∀ reached ∈ states step start events, safe reached) ↔
      safe start ∧ ∀ done event rest, events = done ++ event :: rest →
        safe (step (done.foldl step start) event) := by
  constructor
  · intro all
    refine ⟨all start (mem_states.mpr ⟨[], events, rfl, rfl⟩), ?_⟩
    intro done event rest split
    exact all _ (mem_states.mpr ⟨done ++ [event], rest, by simp [split], by simp⟩)
  · rintro ⟨first, later⟩ reached member
    obtain ⟨done, rest, split, rfl⟩ := mem_states.mp member
    rcases List.eq_nil_or_concat done with rfl | ⟨before, event, rfl⟩
    · exact first
    · rw [List.concat_eq_append, List.foldl_append]
      exact later before event rest (by simpa using split)

/-- Under an invariant, a property that one step keeps exactly when the event is allowed holds
along a run exactly when all its events are. -/
theorem forall_states_iff_allowed (invariant : State → Prop) (allowed : State → Event → Prop)
    {safe : State → Prop} {start : State} {events : List Event}
    (base : invariant start) (first : safe start)
    (next : ∀ state event, invariant state → invariant (step state event))
    (keeps : ∀ state event, invariant state → safe state →
      (safe (step state event) ↔ allowed state event)) :
    (∀ reached ∈ states step start events, safe reached) ↔
      ∀ done event rest, events = done ++ event :: rest →
        allowed (done.foldl step start) event := by
  induction events generalizing start with
  | nil => simp [states, first]
  | cons event events ih =>
      simp only [states, List.forall_mem_cons, first, true_and]
      constructor
      · intro all done other rest split
        have second : safe (step start event) :=
          all _ (mem_states.mpr ⟨[], events, rfl, rfl⟩)
        cases done with
        | nil =>
            obtain ⟨rfl, rfl⟩ := List.cons.inj split
            exact (keeps start event base first).mp second
        | cons head done =>
            obtain ⟨rfl, tail⟩ := List.cons.inj split
            exact (ih (next start event base) second).mp all done other rest tail
      · intro all
        have second : safe (step start event) :=
          (keeps start event base first).mpr (all [] event events rfl)
        refine (ih (next start event base) second).mpr ?_
        intro done other rest split
        exact all (event :: done) other rest (congrArg (event :: ·) split)

/-- Every step of the run has the property, in the state before it. -/
def Along (step : State → Event → State) (property : State → Event → Prop) :
    State → List Event → Prop
  | _, [] => True
  | state, event :: rest => property state event ∧ Along step property (step state event) rest

instance Along.decidable {property : State → Event → Prop} [DecidableRel property] :
    (start : State) → (events : List Event) → Decidable (Along step property start events)
  | _, [] => isTrue trivial
  | start, event :: rest =>
      have : Decidable (Along step property (step start event) rest) :=
        Along.decidable (step start event) rest
      inferInstanceAs (Decidable (_ ∧ _))

theorem along_iff (invariant : State → Prop) {safe allowed : State → Event → Prop}
    (same : ∀ state event, invariant state → (safe state event ↔ allowed state event))
    (next : ∀ state event, invariant state → allowed state event → invariant (step state event))
    {start : State} (base : invariant start) (events : List Event) :
    Along step safe start events ↔ Along step allowed start events := by
  induction events generalizing start with
  | nil => exact Iff.rfl
  | cons event events ih =>
      simp only [Along, same start event base]
      constructor
      · rintro ⟨here, later⟩
        exact ⟨here, (ih (next start event base here)).mp later⟩
      · rintro ⟨here, later⟩
        exact ⟨here, (ih (next start event base here)).mpr later⟩

theorem Along.imp (invariant : State → Prop) {allowed safe : State → Event → Prop}
    (keeps : ∀ state event, invariant state → allowed state event → safe state event)
    (next : ∀ state event, invariant state → allowed state event → invariant (step state event))
    {start : State} (base : invariant start) {events : List Event}
    (along : Along step allowed start events) : Along step safe start events := by
  induction events generalizing start with
  | nil => trivial
  | cons event events ih =>
      obtain ⟨here, later⟩ := along
      exact ⟨keeps start event base here, ih (next start event base here) later⟩

theorem Along.foldl_invariant (invariant : State → Prop) {allowed : State → Event → Prop}
    (next : ∀ state event, invariant state → allowed state event → invariant (step state event))
    {start : State} (base : invariant start) {events : List Event}
    (along : Along step allowed start events) : invariant (events.foldl step start) := by
  induction events generalizing start with
  | nil => exact base
  | cons event events ih => exact ih (next start event base along.1) along.2

/-- Where the events so far determine what matters of the state, a run is safe exactly when each of
its events is allowed after those before it. -/
theorem along_iff_history (tracks : List Event → State → Prop)
    {safe : State → Event → Prop} {allowed : List Event → Event → Prop}
    (same : ∀ done state event, tracks done state → (safe state event ↔ allowed done event))
    (next : ∀ done state event, tracks done state → allowed done event →
      tracks (done ++ [event]) (step state event))
    {done : List Event} {start : State} (base : tracks done start) (events : List Event) :
    Along step safe start events ↔
      ∀ before event rest, events = before ++ event :: rest → allowed (done ++ before) event := by
  induction events generalizing done start with
  | nil => simp [Along]
  | cons first events ih =>
      rw [Along, same done start first base]
      constructor
      · rintro ⟨here, later⟩ before event rest split
        cases before with
        | nil =>
            obtain ⟨rfl, rfl⟩ := List.cons.inj split
            rwa [List.append_nil]
        | cons head before =>
            obtain ⟨rfl, tail⟩ := List.cons.inj split
            rw [List.append_cons]
            exact (ih (next done start first base here)).mp later before event rest tail
      · intro all
        have here : allowed done first := by
          simpa only [List.append_nil] using all [] first events rfl
        refine ⟨here, (ih (next done start first base here)).mpr ?_⟩
        intro before event rest split
        rw [← List.append_cons]
        exact all (first :: before) event rest (congrArg (first :: ·) split)

def total {Sum : Type*} [AddMonoid Sum] (step : State → Event → State) (measure : State → Sum) :
    State → List Event → Sum
  | _, [] => 0
  | state, event :: rest => measure (step state event) + total step measure (step state event) rest

/-- What goes in and is not put out is in store. -/
theorem Along.total_add_store {Sum : Type*} [AddCommMonoid Sum] (measure store : State → Sum)
    (input : Event → Sum) {allowed : State → Event → Prop}
    (conserves : ∀ state event, allowed state event →
      measure (step state event) + store (step state event) = store state + input event)
    {start : State} {events : List Event} (along : Along step allowed start events) :
    total step measure start events + store (events.foldl step start) =
      store start + (events.map input).sum := by
  induction events generalizing start with
  | nil => simp [total]
  | cons event events ih =>
      obtain ⟨here, later⟩ := along
      rw [total, List.foldl_cons, List.map_cons, List.sum_cons, add_assoc, ih later, ← add_assoc,
        conserves start event here, add_assoc]

end TransitionRun

namespace SlotCount

variable {Slot Value : Type*} [Fintype Slot] [DecidableEq Slot] [DecidableEq Value]

def occurrences (slots : Slot → Option Value) (value : Value) : Nat :=
  ∑ slot, if slots slot = some value then 1 else 0

theorem occurrences_update (slots : Slot → Option Value) (slot : Slot) (entry : Option Value)
    (value : Value) :
    occurrences (Function.update slots slot entry) value +
        (if slots slot = some value then 1 else 0) =
      occurrences slots value + (if entry = some value then 1 else 0) := by
  have elsewhere : ∑ other ∈ Finset.univ.erase slot,
      (if Function.update slots slot entry other = some value then 1 else 0) =
        ∑ other ∈ Finset.univ.erase slot, if slots other = some value then 1 else 0 := by
    apply Finset.sum_congr rfl
    intro other member
    rw [Function.update_of_ne (Finset.ne_of_mem_erase member)]
  unfold occurrences
  rw [← Finset.add_sum_erase _ _ (Finset.mem_univ slot),
    ← Finset.add_sum_erase (Finset.univ) (fun other => if slots other = some value then 1 else 0)
      (Finset.mem_univ slot), elsewhere, Function.update_self]
  omega

end SlotCount
