import Mathlib.Data.List.Count
import Mathlib.Logic.Function.Basic
import PatchFix.Library.TransitionRun

/-!
`guarded_callback` on many threads: each functor has one flag, which a faulting activation sets and
every call reads first. The accesses are relaxed: a thread that has not seen the flag set may go on
reading it as clear.
-/

namespace PatchFix

structure GuardState (Thread Functor : Type) where
  sFaulted : Functor → Bool
  /-- The thread set the flag or read it as set, and reads it so from then on. -/
  seen : Thread × Functor → Bool
  stack : Thread → List Functor
  started : Thread × Functor → Nat
  faults : Thread × Functor → Nat
  /-- The most activations the thread had of the functor at one time. -/
  deepest : Thread × Functor → Nat

/-- `unwound` is a fault that the filter leaves to a handler of the game. -/
inductive GuardEvent (Thread Functor : Type) where
  | call (thread : Thread) (functor : Functor) (stale : Bool)
  | leave (thread : Thread)
  | fault (thread : Thread)
  | unwound (thread : Thread) (frames : Nat)
  deriving DecidableEq

namespace GuardState

variable {Thread Functor : Type} [DecidableEq Thread] [DecidableEq Functor]

def start : GuardState Thread Functor where
  sFaulted := fun _ => false
  seen := fun _ => false
  stack := fun _ => []
  started := fun _ => 0
  faults := fun _ => 0
  deepest := fun _ => 0

def load (state : GuardState Thread Functor) (thread : Thread) (functor : Functor) (stale : Bool) :
    Bool :=
  state.seen (thread, functor) || (state.sFaulted functor && !stale)

def step (state : GuardState Thread Functor) : GuardEvent Thread Functor → GuardState Thread Functor
  | .call thread functor stale =>
      let site := (thread, functor)
      if state.load thread functor stale then
        { state with seen := Function.update state.seen site true }
      else
        let stack := functor :: state.stack thread
        { state with
          stack := Function.update state.stack thread stack
          started := Function.update state.started site (state.started site + 1)
          deepest := Function.update state.deepest site
            (max (state.deepest site) (stack.count functor)) }
  | .leave thread =>
      { state with stack := Function.update state.stack thread (state.stack thread).tail }
  | .fault thread =>
      match state.stack thread with
      | [] => state
      | functor :: rest =>
          let site := (thread, functor)
          { state with
            sFaulted := Function.update state.sFaulted functor true
            seen := Function.update state.seen site true
            stack := Function.update state.stack thread rest
            faults := Function.update state.faults site (state.faults site + 1) }
  | .unwound thread frames =>
      { state with
        stack := Function.update state.stack thread ((state.stack thread).drop frames) }

def run (events : List (GuardEvent Thread Functor)) : GuardState Thread Functor :=
  events.foldl step start

structure Guarded (state : GuardState Thread Functor) : Prop where
  seenFaults : ∀ site, 0 < state.faults site → state.seen site = true
  seenFaulted : ∀ thread functor, state.seen (thread, functor) = true →
    state.sFaulted functor = true
  faulted : ∀ functor, state.sFaulted functor = true ↔ ∃ thread, 0 < state.faults (thread, functor)
  bounded : ∀ thread functor,
    state.faults (thread, functor) + (state.stack thread).count functor ≤
      state.deepest (thread, functor)

/-- One thread started no further activation of one functor; `spent` bounds the faults it can still
have by the activations it was in. -/
structure Closed (before after : GuardState Thread Functor) (site : Thread × Functor) : Prop where
  faulted : before.sFaulted site.2 = true → after.sFaulted site.2 = true
  seen : before.seen site = true → after.seen site = true
  started : after.started site = before.started site
  deepest : after.deepest site = before.deepest site
  spent : after.faults site + (after.stack site.1).count site.2 ≤
    before.faults site + (before.stack site.1).count site.2

variable {state : GuardState Thread Functor} {thread : Thread} {functor : Functor}

omit [DecidableEq Thread] in
theorem guarded_start : (start : GuardState Thread Functor).Guarded := by
  constructor <;> simp [start]

theorem Guarded.refused (held : state.Guarded) {stale : Bool}
    (read : state.load thread functor stale = true) :
    (state.step (.call thread functor stale)).Guarded := by
  have faulted : state.sFaulted functor = true := by
    simp only [load, Bool.or_eq_true, Bool.and_eq_true] at read
    rcases read with seen | ⟨faulted, _⟩
    · exact held.seenFaulted thread functor seen
    · exact faulted
  simp only [step, if_pos read]
  refine ⟨fun site counted => ?_, fun other callback seen => ?_, held.faulted, held.bounded⟩
  · simp only [Function.update_apply, held.seenFaults site counted, ite_self]
  · simp only [Function.update_apply, Prod.mk.injEq] at seen
    by_cases here : other = thread ∧ callback = functor
    · rw [here.2]
      exact faulted
    · rw [if_neg here] at seen
      exact held.seenFaulted other callback seen

theorem Guarded.entered (held : state.Guarded) {stale : Bool}
    (read : ¬state.load thread functor stale = true) :
    (state.step (.call thread functor stale)).Guarded := by
  have unseen : ¬state.seen (thread, functor) = true := fun seen => read (by simp [load, seen])
  have clear : state.faults (thread, functor) = 0 :=
    Nat.eq_zero_of_not_pos fun counted => unseen (held.seenFaults _ counted)
  simp only [step, if_neg read]
  refine ⟨held.seenFaults, held.seenFaulted, held.faulted, fun other callback => ?_⟩
  have before := held.bounded other callback
  by_cases same : other = thread
  · subst same
    by_cases here : callback = functor
    · subst here
      simp only [clear, Function.update_self, List.count_cons_self, Nat.zero_add]
      exact Nat.le_max_right _ _
    · simpa [Function.update_of_ne, here, List.count_cons_of_ne (Ne.symm here)] using before
  · simpa [Function.update_of_ne, same] using before

theorem Guarded.shrunk (held : state.Guarded) {rest : List Functor}
    (suffix : rest <:+ state.stack thread) :
    ({ state with stack := Function.update state.stack thread rest } :
      GuardState Thread Functor).Guarded := by
  refine ⟨held.seenFaults, held.seenFaulted, held.faulted, fun other callback => ?_⟩
  have before := held.bounded other callback
  by_cases same : other = thread
  · subst same
    have fewer := suffix.sublist.count_le callback
    simp only [Function.update_self]
    omega
  · simpa [Function.update_of_ne, same] using before

theorem Guarded.fault (held : state.Guarded) : (state.step (.fault thread)).Guarded := by
  cases top : state.stack thread with
  | nil => simpa [step, top] using held
  | cons functor rest =>
      have apart {other : Thread} {callback : Functor} (differ : callback ≠ functor) :
          (other, callback) ≠ (thread, functor) := fun same => differ (Prod.ext_iff.mp same).2
      simp only [step, top]
      refine ⟨fun site counted => ?_, fun other callback seen => ?_, fun callback => ?_,
        fun other callback => ?_⟩
      · by_cases here : site = (thread, functor)
        · simp [here]
        · simp only [Function.update_of_ne here] at counted ⊢
          exact held.seenFaults site counted
      · by_cases here : callback = functor
        · simp [here]
        · simp only [Function.update_of_ne (apart here)] at seen
          simpa [Function.update_of_ne here] using held.seenFaulted _ _ seen
      · by_cases here : callback = functor
        · subst here
          simp only [Function.update_self, true_iff]
          exact ⟨thread, by simp⟩
        · simp only [Function.update_of_ne here, Function.update_of_ne (apart here)]
          exact held.faulted callback
      · have before := held.bounded other callback
        by_cases same : other = thread
        · subst same
          rw [top, List.count_cons] at before
          by_cases here : callback = functor
          · subst here
            simp only [Function.update_self, beq_self_eq_true, if_true] at before ⊢
            omega
          · simpa [Function.update_of_ne (apart here), Ne.symm here] using before
        · have elsewhere : (other, callback) ≠ (thread, functor) :=
            fun equal => same (Prod.ext_iff.mp equal).1
          simpa [Function.update_of_ne elsewhere, Function.update_of_ne same] using before

theorem Guarded.next (held : state.Guarded) (event : GuardEvent Thread Functor) :
    (state.step event).Guarded := by
  cases event with
  | call thread functor stale =>
      by_cases read : state.load thread functor stale = true
      · exact held.refused read
      · exact held.entered read
  | leave thread => exact held.shrunk (List.tail_suffix _)
  | fault thread => exact held.fault
  | unwound thread frames => exact held.shrunk (List.drop_suffix _ _)

theorem run_guarded (events : List (GuardEvent Thread Functor)) : (run events).Guarded :=
  TransitionRun.foldl_invariant Guarded guarded_start fun _ held event _ => held.next event

omit [DecidableEq Thread] in
theorem Closed.refl (state : GuardState Thread Functor) (site : Thread × Functor) :
    state.Closed state site :=
  ⟨id, id, rfl, rfl, Nat.le_refl _⟩

omit [DecidableEq Thread] in
theorem Closed.trans {first second third : GuardState Thread Functor} {site : Thread × Functor}
    (left : first.Closed second site) (right : second.Closed third site) :
    first.Closed third site :=
  ⟨right.faulted ∘ left.faulted, right.seen ∘ left.seen, right.started.trans left.started,
    right.deepest.trans left.deepest, Nat.le_trans right.spent left.spent⟩

theorem Closed.shrunk {rest : List Functor} (suffix : rest <:+ state.stack thread)
    (site : Thread × Functor) :
    state.Closed { state with stack := Function.update state.stack thread rest } site := by
  refine ⟨id, id, rfl, rfl, ?_⟩
  by_cases same : site.1 = thread
  · rw [same]
    simpa using suffix.sublist.count_le site.2
  · simp [Function.update_of_ne same]

theorem Closed.fault (site : Thread × Functor) :
    state.Closed (state.step (.fault thread)) site := by
  cases top : state.stack thread with
  | nil => simpa [step, top] using Closed.refl state site
  | cons functor rest =>
      simp only [step, top]
      refine ⟨fun faulted => ?_, fun seen => ?_, rfl, rfl, ?_⟩
      · simp [Function.update_apply, faulted]
      · simp [Function.update_apply, seen]
      · obtain ⟨other, callback⟩ := site
        by_cases same : other = thread
        · subst same
          rw [top, List.count_cons]
          by_cases here : callback = functor
          · subst here
            simp only [Function.update_self, beq_self_eq_true, if_true]
            omega
          · simp [here, Ne.symm here]
        · simp [same]

theorem Closed.call {stale : Bool} {site : Thread × Functor}
    (refuses : (thread, functor) = site → state.load thread functor stale = true) :
    state.Closed (state.step (.call thread functor stale)) site := by
  by_cases read : state.load thread functor stale = true
  · simp only [step, if_pos read]
    exact ⟨id, fun seen => by simp [Function.update_apply, seen], rfl, rfl, Nat.le_refl _⟩
  · have elsewhere : site ≠ (thread, functor) := fun same => read (refuses same.symm)
    simp only [step, if_neg read]
    refine ⟨id, id, Function.update_of_ne elsewhere _ _, Function.update_of_ne elsewhere _ _, ?_⟩
    by_cases same : site.1 = thread
    · have other : functor ≠ site.2 := fun equal => elsewhere (Prod.ext same equal.symm)
      simp [same, List.count_cons_of_ne other]
    · simp [Function.update_of_ne same]

/-- The functor is closed to the thread by every step but a call that does not read the flag. -/
theorem Closed.next {site : Thread × Functor} (event : GuardEvent Thread Functor)
    (refuses : ∀ stale, event = .call site.1 site.2 stale →
      state.load site.1 site.2 stale = true) : state.Closed (state.step event) site := by
  cases event with
  | call thread functor stale =>
      apply Closed.call
      rintro rfl
      exact refuses stale rfl
  | leave thread => exact Closed.shrunk (List.tail_suffix _) site
  | fault thread => exact Closed.fault site
  | unwound thread frames => exact Closed.shrunk (List.drop_suffix _ _) site

theorem Closed.run {site : Thread × Functor} (faulted : state.sFaulted site.2 = true)
    (events : List (GuardEvent Thread Functor))
    (reads : state.seen site = true ∨ .call site.1 site.2 true ∉ events) :
    state.Closed (events.foldl step state) site := by
  induction events generalizing state with
  | nil => exact Closed.refl state site
  | cons event events ih =>
      have first : state.Closed (state.step event) site := by
        apply Closed.next
        rintro stale rfl
        rcases reads with seen | fresh
        · simp [load, seen]
        · cases stale with
          | true => exact absurd List.mem_cons_self fresh
          | false => simp [load, faulted]
      refine first.trans (ih (first.faulted faulted) ?_)
      exact reads.imp first.seen fun fresh later => fresh (List.mem_cons_of_mem _ later)

/-- In every run no thread has more faults of a functor than it had activations of it at one time.
Once a functor has faulted, a thread starts it again only if it did not fault there itself and reads
the flag before the store has reached it. -/
theorem run_disables (events rest : List (GuardEvent Thread Functor)) (thread : Thread)
    (functor : Functor) :
    (run events).faults (thread, functor) ≤ (run events).deepest (thread, functor) ∧
      ((run events).sFaulted functor = true ↔
        ∃ other, 0 < (run events).faults (other, functor)) ∧
      ((run events).sFaulted functor = false ∨
        ((run events).faults (thread, functor) = 0 ∧ .call thread functor true ∈ rest) ∨
        (run events).Closed (run (events ++ rest)) (thread, functor)) := by
  have held := run_guarded events
  refine ⟨Nat.le_trans (Nat.le_add_right _ _) (held.bounded thread functor),
    held.faulted functor, ?_⟩
  rw [or_iff_not_imp_left]
  intro faulted
  rw [Bool.not_eq_false] at faulted
  rw [or_iff_not_imp_left, not_and_or]
  intro reads
  have seen : (run events).seen (thread, functor) = true ∨ .call thread functor true ∉ rest :=
    reads.imp_left fun counted => held.seenFaults _ (Nat.pos_of_ne_zero counted)
  have continued : run (events ++ rest) = rest.foldl step (run events) := List.foldl_append
  rw [continued]
  exact Closed.run faulted rest seen

end GuardState

end PatchFix
