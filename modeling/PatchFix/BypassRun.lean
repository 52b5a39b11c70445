import PatchFix.Library.TransitionRun
import PatchFix.ThreadIntercept

/-!
`vmp::install`, `vmp::uninstall` and the calls of `CreateThread` by the game's threads, in any
interleaving of their steps.
-/

namespace PatchFix

/-- `g_create_thread_hook`: default-constructed, created with `StartDisabled`, or enabled. A call
through the default-constructed hook returns null and does not reach the real `CreateThread`. -/
inductive HookSlot where
  | empty | disarmed | armed
  deriving DecidableEq, Repr

inductive InstallPhase where
  | start | located | created | published | enabled | active | refused
  deriving DecidableEq, Repr

def InstallPhase.PastArming (phase : InstallPhase) : Prop := phase = .enabled ∨ phase = .active

instance : DecidablePred InstallPhase.PastArming := fun _ => inferInstanceAs (Decidable (_ ∨ _))

inductive UninstallPhase where
  | start | seenActive | emptied | done
  deriving DecidableEq, Repr

inductive Uninstaller where
  | initThread | loader
  deriving DecidableEq, Repr

structure ThreadRequest where
  attrs : UInt64
  stackSize : UInt64
  start : UInt64
  param : UInt64
  flags : UInt32
  threadId : UInt64
  deriving DecidableEq, Repr

/-- A call of `CreateThread`: past the hook, in `hk_create_thread` before and after its check, or
returned. -/
inductive ThreadCall where
  | direct (request : ThreadRequest)
  | entered (request : ThreadRequest)
  | checked (request passed : ThreadRequest)
  | reached (request passed : ThreadRequest)
  | lost (request passed : ThreadRequest)
  deriving DecidableEq, Repr

structure BypassState where
  phase : InstallPhase
  slot : HookSlot
  active : Bool
  blockedCount : Int32
  uninstalls : Uninstaller → UninstallPhase
  calls : List ThreadCall

/-- `granted` is the answer of the system where the step asks it for something. -/
inductive BypassEvent where
  | install (granted : Bool)
  | uninstall (caller : Uninstaller)
  | create (request : ThreadRequest)
  | proceed (index : Nat)

structure PackedGame where
  image : ByteImage.Image
  memory : MemoryMap
  sections : VmpSections
  emptyThread : UInt64

def PackedGame.isVmp (game : PackedGame) (start : UInt64) : Bool :=
  isVmpThread game.image game.memory game.sections start

def ThreadRequest.intercepted (game : PackedGame) (request : ThreadRequest) : ThreadRequest :=
  if game.isVmp request.start then { request with start := game.emptyThread } else request

namespace BypassState

def initial : BypassState where
  phase := .start
  slot := .empty
  active := false
  blockedCount := 0
  uninstalls := fun _ => .start
  calls := []

def installStep (game : PackedGame) (granted : Bool) (state : BypassState) : BypassState :=
  match state.phase with
  | .start => { state with phase := if game.sections.hasVmp then .located else .refused }
  | .located => { state with phase := if granted then .created else .refused }
  | .created => { state with phase := .published, slot := .disarmed }
  | .published =>
      { state with
        phase := if granted then .enabled else .refused
        slot := if granted then .armed else .empty }
  | .enabled => { state with phase := .active, active := true }
  | .active => state
  | .refused => state

def uninstallStep (caller : Uninstaller) (state : BypassState) : BypassState :=
  let goOn (phase : UninstallPhase) (state : BypassState) : BypassState :=
    { state with uninstalls := Function.update state.uninstalls caller phase }
  -- the init thread comes to its call after its install has returned
  if caller = .initThread ∧ state.phase ≠ .active ∧ state.phase ≠ .refused then state
  else
    match state.uninstalls caller with
    | .start => goOn (if state.active then .seenActive else .done) state
    | .seenActive => goOn .emptied { state with slot := .empty }
    | .emptied => goOn .done { state with active := false }
    | .done => state

def createStep (request : ThreadRequest) (state : BypassState) : BypassState :=
  { state with
    calls := state.calls ++ [if state.slot = .armed then .entered request else .direct request] }

def proceedStep (game : PackedGame) (index : Nat) (state : BypassState) : BypassState :=
  match state.calls[index]? with
  | some (.entered request) =>
      { state with
        calls := state.calls.set index (.checked request (request.intercepted game))
        blockedCount := state.blockedCount + if game.isVmp request.start then 1 else 0 }
  | some (.checked request passed) =>
      { state with
        calls := state.calls.set index
          (if state.slot = .empty then .lost request passed else .reached request passed) }
  | _ => state

def step (game : PackedGame) (state : BypassState) : BypassEvent → BypassState
  | .install granted => installStep game granted state
  | .uninstall caller => uninstallStep caller state
  | .create request => createStep request state
  | .proceed index => proceedStep game index state

def run (game : PackedGame) (events : List BypassEvent) : BypassState :=
  events.foldl (step game) initial

def Inside (state : BypassState) (index : Nat) : Prop :=
  match state.calls[index]? with
  | some (.entered _) => True
  | some (.checked _ _) => True
  | _ => False

def Lost (state : BypassState) (index : Nat) : Prop :=
  match state.calls[index]? with
  | some (.lost _ _) => True
  | _ => False

def Resets (game : PackedGame) (state : BypassState) (event : BypassEvent) : Prop :=
  state.slot = .armed ∧ (step game state event).slot = .empty

def Caught (game : PackedGame) (events : List BypassEvent) (index : Nat) : Prop :=
  ∃ before event after, events = before ++ event :: after ∧
    Resets game (run game before) event ∧ (run game before).Inside index

section Step

variable {game : PackedGame} {state : BypassState} {events : List BypassEvent}

/-- Before the hook is armed nothing is in it, and once it is armed only `uninstall` empties it. -/
structure Consistent (state : BypassState) : Prop where
  armed : state.slot = .armed → state.phase.PastArming
  settled : state.phase.PastArming → state.slot ≠ .disarmed
  untouched : ¬state.phase.PastArming → ∀ call ∈ state.calls, ∃ request, call = .direct request
  active : state.active = true → state.phase = .active
  uninstalling : ∀ caller, state.uninstalls caller = .seenActive → state.phase = .active

theorem installStep_calls (game : PackedGame) (state : BypassState) (granted : Bool) :
    (installStep game granted state).calls = state.calls := by
  unfold installStep
  cases state.phase <;> rfl

theorem installStep_slot (game : PackedGame) (state : BypassState) (granted : Bool) :
    (installStep game granted state).slot = state.slot ∨ ¬state.phase.PastArming := by
  unfold installStep
  cases phase : state.phase <;> simp [InstallPhase.PastArming]

theorem uninstallStep_calls (state : BypassState) (caller : Uninstaller) :
    (uninstallStep caller state).calls = state.calls := by
  unfold uninstallStep
  split
  · rfl
  · cases state.uninstalls caller <;> rfl

theorem uninstallStep_phase (caller : Uninstaller) :
    (uninstallStep caller state).phase = state.phase := by
  unfold uninstallStep
  split
  · rfl
  · cases state.uninstalls caller <;> rfl

theorem uninstallStep_slot (state : BypassState) (caller : Uninstaller) :
    (uninstallStep caller state).slot = state.slot ∨
      (uninstallStep caller state).slot = .empty := by
  unfold uninstallStep
  split
  · exact Or.inl rfl
  · cases state.uninstalls caller
    case seenActive => exact Or.inr rfl
    all_goals exact Or.inl rfl

theorem uninstallStep_active (caller : Uninstaller) :
    (uninstallStep caller state).active = true → state.active = true := by
  unfold uninstallStep
  split
  · exact id
  · cases state.uninstalls caller
    case emptied => simp
    all_goals exact id

theorem uninstallStep_other (caller : Uninstaller) {other : Uninstaller}
    (different : other ≠ caller) :
    (uninstallStep caller state).uninstalls other = state.uninstalls other := by
  unfold uninstallStep
  split
  · rfl
  · cases state.uninstalls caller with
    | start => exact Function.update_of_ne different _ _
    | seenActive => exact Function.update_of_ne different _ _
    | emptied => exact Function.update_of_ne different _ _
    | done => rfl

/-- Only a caller that has not looked yet comes to see the bypass active. -/
theorem uninstallStep_seenActive (caller other : Uninstaller)
    (seen : (uninstallStep caller state).uninstalls other = .seenActive) :
    state.uninstalls other = .seenActive ∨ state.active = true := by
  by_cases same : other = caller
  · subst same
    unfold uninstallStep at seen
    split at seen
    · exact Or.inl seen
    · cases position : state.uninstalls other with
      | start =>
          rw [position] at seen
          simp only [Function.update_self] at seen
          cases on : state.active with
          | true => exact Or.inr rfl
          | false =>
              rw [on] at seen
              contradiction
      | seenActive => exact Or.inl rfl
      | emptied =>
          rw [position] at seen
          simp only [Function.update_self] at seen
          contradiction
      | done =>
          simp only [position] at seen
          contradiction
  · rw [uninstallStep_other caller same] at seen
    exact Or.inl seen

theorem initial_consistent : initial.Consistent where
  armed := by simp [initial]
  settled := by simp [initial]
  untouched := by simp [initial]
  active := by simp [initial]
  uninstalling := by simp [initial]

/-- A step before the hook is armed that does not arm it. -/
theorem Consistent.unarmed (consistent : state.Consistent) (before : ¬state.phase.PastArming)
    {next : BypassState} (later : ¬next.phase.PastArming) (slot : next.slot ≠ .armed)
    (calls : next.calls = state.calls) (active : next.active = state.active)
    (uninstalls : next.uninstalls = state.uninstalls) : next.Consistent where
  armed := fun hooked => absurd hooked slot
  settled := fun past => absurd past later
  untouched := fun _ => calls ▸ consistent.untouched before
  active := fun on => absurd (.inr (consistent.active (active ▸ on))) before
  uninstalling := fun caller seen =>
    absurd (.inr (consistent.uninstalling caller (uninstalls ▸ seen))) before

theorem Consistent.unseen (consistent : state.Consistent) (before : state.phase ≠ .active)
    (caller : Uninstaller) : state.uninstalls caller ≠ .seenActive :=
  fun seen => before (consistent.uninstalling caller seen)

theorem Consistent.installStep (consistent : state.Consistent) (granted : Bool) :
    (installStep game granted state).Consistent := by
  unfold BypassState.installStep
  cases phase : state.phase with
  | start =>
      have before : ¬state.phase.PastArming := by rw [phase]; decide
      have slot : state.slot ≠ .armed := fun hooked => before (consistent.armed hooked)
      refine consistent.unarmed before ?_ slot rfl rfl rfl
      cases game.sections.hasVmp with
      | false => exact (by decide : ¬InstallPhase.refused.PastArming)
      | true => exact (by decide : ¬InstallPhase.located.PastArming)
  | located =>
      have before : ¬state.phase.PastArming := by rw [phase]; decide
      have slot : state.slot ≠ .armed := fun hooked => before (consistent.armed hooked)
      refine consistent.unarmed before ?_ slot rfl rfl rfl
      cases granted with
      | false => exact (by decide : ¬InstallPhase.refused.PastArming)
      | true => exact (by decide : ¬InstallPhase.created.PastArming)
  | created =>
      have before : ¬state.phase.PastArming := by rw [phase]; decide
      have later : ¬InstallPhase.published.PastArming := by decide
      have slot : HookSlot.disarmed ≠ .armed := by decide
      exact consistent.unarmed before later slot rfl rfl rfl
  | published =>
      have before : ¬state.phase.PastArming := by rw [phase]; decide
      have inactive : state.phase ≠ .active := by rw [phase]; decide
      cases granted with
      | false =>
          have later : ¬InstallPhase.refused.PastArming := by decide
          have slot : HookSlot.empty ≠ .armed := by decide
          exact consistent.unarmed before later slot rfl rfl rfl
      | true =>
          have past : InstallPhase.enabled.PastArming := .inl rfl
          have slot : HookSlot.armed ≠ .disarmed := by decide
          exact
            { armed := fun _ => past
              settled := fun _ => slot
              untouched := fun still => absurd past still
              active := fun on => absurd (consistent.active on) inactive
              uninstalling := fun caller seen => absurd seen (consistent.unseen inactive caller) }
  | enabled =>
      have armed : state.phase.PastArming := .inl phase
      have past : InstallPhase.active.PastArming := .inr rfl
      exact
        { armed := fun _ => past
          settled := fun _ => consistent.settled armed
          untouched := fun still => absurd past still
          active := fun _ => rfl
          uninstalling := fun _ _ => rfl }
  | active => exact consistent
  | refused => exact consistent

theorem Consistent.uninstallStep (consistent : state.Consistent) (caller : Uninstaller) :
    (uninstallStep caller state).Consistent := by
  obtain ⟨armed, settled, untouched, active, uninstalling⟩ := consistent
  constructor
  · intro still
    rw [uninstallStep_phase]
    rcases uninstallStep_slot state caller with same | emptied
    · exact armed (same ▸ still)
    · rw [emptied] at still
      contradiction
  · intro past
    rw [uninstallStep_phase] at past
    rcases uninstallStep_slot state caller with same | emptied
    · rw [same]
      exact settled past
    · rw [emptied]
      decide
  · rw [uninstallStep_phase, uninstallStep_calls]
    exact untouched
  · rw [uninstallStep_phase]
    exact fun on => active (uninstallStep_active caller on)
  · rw [uninstallStep_phase]
    intro other seen
    rcases uninstallStep_seenActive caller other seen with before | on
    · exact uninstalling other before
    · exact active on

@[simp] theorem proceedStep_slot (index : Nat) :
    (proceedStep game index state).slot = state.slot := by
  unfold proceedStep
  split <;> rfl

theorem Consistent.step (consistent : state.Consistent) (event : BypassEvent) :
    (step game state event).Consistent := by
  cases event with
  | install granted => exact consistent.installStep granted
  | uninstall caller => exact consistent.uninstallStep caller
  | create request =>
      obtain ⟨armed, settled, untouched, active, uninstalling⟩ := consistent
      refine ⟨armed, settled, ?_, active, uninstalling⟩
      intro before call member
      rcases List.mem_append.mp member with earlier | last
      · exact untouched before call earlier
      · have unarmed : state.slot ≠ .armed := fun hooked => before (armed hooked)
        rw [if_neg unarmed, List.mem_singleton] at last
        exact ⟨request, last⟩
  | proceed index =>
      obtain ⟨armed, settled, untouched, active, uninstalling⟩ := consistent
      simp only [BypassState.step, proceedStep]
      split
      · next request found =>
          refine ⟨armed, settled, ?_, active, uninstalling⟩
          intro before
          obtain ⟨_, direct⟩ := untouched before _ (List.mem_of_getElem? found)
          contradiction
      · next request passed found =>
          refine ⟨armed, settled, ?_, active, uninstalling⟩
          intro before
          obtain ⟨_, direct⟩ := untouched before _ (List.mem_of_getElem? found)
          contradiction
      · exact ⟨armed, settled, untouched, active, uninstalling⟩

theorem run_concat (events : List BypassEvent) (event : BypassEvent) :
    run game (events ++ [event]) = step game (run game events) event := by
  simp [run]

theorem run_consistent (events : List BypassEvent) : (run game events).Consistent :=
  TransitionRun.foldl_invariant Consistent initial_consistent
    fun _ consistent event _ => consistent.step event

theorem caught_concat (game : PackedGame) (events : List BypassEvent) {event : BypassEvent}
    {index : Nat} :
    Caught game (events ++ [event]) index ↔
      Caught game events index ∨
        (Resets game (run game events) event ∧ (run game events).Inside index) := by
  constructor
  · rintro ⟨before, other, after, split, resets, inside⟩
    rcases TransitionRun.concat_eq_append_cons.mp split with ⟨rfl, rfl, -⟩ | ⟨rest, -, earlier⟩
    · exact Or.inr ⟨resets, inside⟩
    · exact Or.inl ⟨before, other, rest, earlier, resets, inside⟩
  · rintro (⟨before, other, after, rfl, resets, inside⟩ | ⟨resets, inside⟩)
    · exact ⟨before, other, after ++ [event], by simp, resets, inside⟩
    · exact ⟨events, event, [], rfl, resets, inside⟩

def Told (slot : HookSlot) (caught : Prop) : Option ThreadCall → Prop
  | some (.entered _) => (slot = .armed ∧ ¬caught) ∨ (slot = .empty ∧ caught)
  | some (.checked _ _) => (slot = .armed ∧ ¬caught) ∨ (slot = .empty ∧ caught)
  | some (.lost _ _) => caught
  | _ => ¬caught

theorem Told.unreset {slot : HookSlot} {caught reset : Prop} (call : Option ThreadCall)
    (told : Told slot caught call) (unreset : ¬reset) : Told slot (caught ∨ reset) call := by
  have same : (caught ∨ reset) = caught := propext (or_iff_left unreset)
  rwa [same]

theorem not_resets {event : BypassEvent} (same : (step game state event).slot = state.slot) :
    ¬Resets game state event := by
  rintro ⟨armed, emptied⟩
  rw [same, armed] at emptied
  contradiction

theorem Told.empties {event : BypassEvent} {caught : Prop} {index : Nat}
    (told : Told state.slot caught state.calls[index]?)
    (emptied : (step game state event).slot = .empty) :
    Told .empty (caught ∨ (Resets game state event ∧ state.Inside index)) state.calls[index]? := by
  have outside (unheld : ¬state.Inside index) :
      ¬(Resets game state event ∧ state.Inside index) := fun both => unheld both.2
  have held (inside : state.Inside index)
      (lived : (state.slot = .armed ∧ ¬caught) ∨ (state.slot = .empty ∧ caught)) :
      caught ∨ (Resets game state event ∧ state.Inside index) := by
    rcases lived with ⟨armed, _⟩ | ⟨_, before⟩
    · exact Or.inr ⟨⟨armed, emptied⟩, inside⟩
    · exact Or.inl before
  cases found : state.calls[index]? with
  | none =>
      rw [found] at told
      exact Told.unreset none told (outside (by simp [Inside, found]))
  | some call =>
      rw [found] at told
      cases call with
      | direct request =>
          exact Told.unreset (some (.direct request)) told
            (outside (by simp [Inside, found]))
      | entered request => exact Or.inr ⟨rfl, held (by simp [Inside, found]) told⟩
      | checked request passed => exact Or.inr ⟨rfl, held (by simp [Inside, found]) told⟩
      | reached request passed =>
          exact Told.unreset (some (.reached request passed)) told
            (outside (by simp [Inside, found]))
      | lost request passed => exact Or.inl told

theorem Told.untouched {caught : Prop} {index : Nat} (consistent : state.Consistent)
    (before : ¬state.phase.PastArming) (told : Told state.slot caught state.calls[index]?)
    (slot : HookSlot) : Told slot caught state.calls[index]? := by
  cases found : state.calls[index]? with
  | none =>
      rw [found] at told
      exact told
  | some call =>
      obtain ⟨request, rfl⟩ := consistent.untouched before call (List.mem_of_getElem? found)
      rw [found] at told
      exact told

theorem Told.proceed {caught : Prop} {index : Nat} {other : Nat}
    (told : Told state.slot caught state.calls[index]?) :
    Told state.slot caught (proceedStep game other state).calls[index]? := by
  by_cases same : other = index
  · subst same
    unfold proceedStep
    split
    · next request found =>
        rw [found] at told
        obtain ⟨bound, _⟩ := List.getElem?_eq_some_iff.mp found
        rw [List.getElem?_set_self bound]
        exact told
    · next request passed found =>
        rw [found] at told
        obtain ⟨bound, _⟩ := List.getElem?_eq_some_iff.mp found
        rw [List.getElem?_set_self bound]
        rcases told with ⟨armed, free⟩ | ⟨empty, caught⟩
        · rw [if_neg (by simp [armed])]
          exact free
        · rw [if_pos empty]
          exact caught
    · exact told
  · unfold proceedStep
    split
    · rwa [List.getElem?_set_ne same]
    · rwa [List.getElem?_set_ne same]
    · exact told

theorem Told.create {caught : Prop} {index : Nat}
    (told : Told state.slot caught state.calls[index]?) (request : ThreadRequest) :
    Told state.slot caught (createStep request state).calls[index]? := by
  unfold createStep
  rcases Nat.lt_trichotomy index state.calls.length with earlier | rfl | later
  · rwa [List.getElem?_append_left earlier]
  · rw [List.getElem?_eq_none (Nat.le_refl _)] at told
    rw [List.getElem?_append_right (Nat.le_refl _), Nat.sub_self]
    by_cases armed : state.slot = .armed
    · rw [if_pos armed]
      exact Or.inl ⟨armed, told⟩
    · rw [if_neg armed]
      exact told
  · rw [List.getElem?_eq_none (Nat.le_of_lt later)] at told
    rw [List.getElem?_eq_none (by simpa using Nat.succ_le_of_lt later)]
    exact told

theorem Told.step {caught : Prop} {index : Nat} (consistent : state.Consistent)
    (told : Told state.slot caught state.calls[index]?) (event : BypassEvent) :
    Told (step game state event).slot
      (caught ∨ (Resets game state event ∧ state.Inside index))
      (step game state event).calls[index]? := by
  have kept (same : (BypassState.step game state event).slot = state.slot) :
      ¬(Resets game state event ∧ state.Inside index) := fun both => not_resets same both.1
  cases event with
  | install granted =>
      simp only [BypassState.step, installStep_calls]
      rcases installStep_slot game state granted with same | before
      · rw [same]
        exact Told.unreset _ told (kept same)
      · have unreset : ¬Resets game state (.install granted) :=
          fun resets => before (consistent.armed resets.1)
        exact Told.unreset _ (told.untouched consistent before _) fun both => unreset both.1
  | uninstall caller =>
      simp only [BypassState.step, uninstallStep_calls]
      rcases uninstallStep_slot state caller with same | emptied
      · rw [same]
        exact Told.unreset _ told (kept same)
      · rw [emptied]
        exact told.empties emptied
  | create request => exact Told.unreset _ (told.create request) (kept rfl)
  | proceed other =>
      simp only [BypassState.step, proceedStep_slot]
      exact Told.unreset _ told.proceed (kept (proceedStep_slot other))

theorem run_told (game : PackedGame) (events : List BypassEvent) (index : Nat) :
    Told (run game events).slot (Caught game events index) (run game events).calls[index]? := by
  induction events using List.reverseRecOn with
  | nil =>
      rintro ⟨before, event, after, split, _⟩
      simp at split
  | append_singleton events event ih =>
      rw [run_concat, propext (caught_concat game events)]
      exact ih.step (run_consistent events) event

/-- A call of `CreateThread` is lost exactly when it is out of `hk_create_thread` and the hook was
reset while it was in there. -/
theorem lost_iff (game : PackedGame) (events : List BypassEvent) (index : Nat) :
    (run game events).Lost index ↔
      Caught game events index ∧ ¬(run game events).Inside index := by
  have told := run_told game events index
  unfold Lost Inside
  cases found : (run game events).calls[index]? with
  | none =>
      rw [found] at told
      exact iff_of_false id fun both => told both.1
  | some call =>
      rw [found] at told
      cases call with
      | direct request => exact iff_of_false id fun both => told both.1
      | entered request => exact iff_of_false id fun both => both.2 trivial
      | checked request passed => exact iff_of_false id fun both => both.2 trivial
      | reached request passed => exact iff_of_false id fun both => told both.1
      | lost request passed => exact iff_of_true trivial ⟨told, id⟩

/-! What `hk_create_thread` does to the calls it lets through. -/

/-- The arguments of a call are passed on, with `empty_thread` for the start of the packer's. -/
structure PassedOn (game : PackedGame) (request passed : ThreadRequest) : Prop where
  attrs : passed.attrs = request.attrs
  stackSize : passed.stackSize = request.stackSize
  param : passed.param = request.param
  flags : passed.flags = request.flags
  threadId : passed.threadId = request.threadId
  stopped : game.isVmp request.start = true → passed.start = game.emptyThread
  kept : game.isVmp request.start = false → passed.start = request.start

theorem intercepted_passedOn (game : PackedGame) (request : ThreadRequest) :
    PassedOn game request (request.intercepted game) := by
  unfold ThreadRequest.intercepted
  cases packer : game.isVmp request.start with
  | true =>
      have notKept : game.isVmp request.start ≠ false := by simp [packer]
      exact ⟨rfl, rfl, rfl, rfl, rfl, fun _ => rfl, fun kept => absurd kept notKept⟩
  | false =>
      have notStopped : game.isVmp request.start ≠ true := by simp [packer]
      exact ⟨rfl, rfl, rfl, rfl, rfl, fun stopped => absurd stopped notStopped, fun _ => rfl⟩

def Faithful (game : PackedGame) : ThreadCall → Prop
  | .checked request passed => PassedOn game request passed
  | .reached request passed => PassedOn game request passed
  | .lost request passed => PassedOn game request passed
  | _ => True

def blocked (game : PackedGame) : ThreadCall → Bool
  | .checked request _ => game.isVmp request.start
  | .reached request _ => game.isVmp request.start
  | .lost request _ => game.isVmp request.start
  | _ => false

/-- The count is of 32 bits and wraps. -/
structure Accounted (game : PackedGame) (state : BypassState) : Prop where
  faithful : ∀ call ∈ state.calls, Faithful game call
  counted : state.blockedCount = Int32.ofNat (state.calls.countP (blocked game))

theorem Accounted.create (accounted : Accounted game state) (request : ThreadRequest) :
    Accounted game (createStep request state) := by
  unfold createStep
  refine ⟨?_, ?_⟩
  · intro call member
    rcases List.mem_append.mp member with earlier | last
    · exact accounted.faithful call earlier
    · rw [List.mem_singleton] at last
      split at last
      · rw [last]
        trivial
      · rw [last]
        trivial
  · rw [List.countP_append, accounted.counted]
    split
    · rfl
    · rfl

theorem countP_set_add {Entry : Type} (counts : Entry → Bool) {entries : List Entry} {index : Nat}
    {entry : Entry} (found : entries[index]? = some entry) (next : Entry) :
    (entries.set index next).countP counts + (if counts entry then 1 else 0) =
      entries.countP counts + (if counts next then 1 else 0) := by
  obtain ⟨bound, rfl⟩ := List.getElem?_eq_some_iff.mp found
  have positive : counts entries[index] = true → 0 < entries.countP counts :=
    fun counted => List.countP_pos_iff.mpr ⟨_, List.getElem_mem bound, counted⟩
  rw [List.countP_set bound]
  cases here : counts entries[index] with
  | false => simp
  | true =>
      have before := positive here
      simp only [if_true]
      omega

theorem Accounted.set (accounted : Accounted game state) (index : Nat) {next : ThreadCall}
    (faithful : Faithful game next) :
    ∀ other ∈ state.calls.set index next, Faithful game other := by
  intro other member
  rcases List.mem_or_eq_of_mem_set member with earlier | rfl
  · exact accounted.faithful other earlier
  · exact faithful

theorem Accounted.proceed (accounted : Accounted game state) (index : Nat) :
    Accounted game (proceedStep game index state) := by
  unfold proceedStep
  split
  · next request found =>
      have count := countP_set_add (blocked game) found
        (.checked request (request.intercepted game))
      have unasked : blocked game (.entered request) = false := rfl
      have asked : blocked game (.checked request (request.intercepted game)) =
          game.isVmp request.start := rfl
      rw [unasked, asked, if_neg Bool.false_ne_true, Nat.add_zero] at count
      refine ⟨accounted.set index (intercepted_passedOn game request), ?_⟩
      simp only [count, Int32.ofNat_add, accounted.counted]
      cases game.isVmp request.start with
      | false => rfl
      | true => rfl
  · next request passed found =>
      have kept : PassedOn game request passed :=
        accounted.faithful _ (List.mem_of_getElem? found)
      split
      · have count := countP_set_add (blocked game) found (.lost request passed)
        exact ⟨accounted.set index (show Faithful game (.lost request passed) from kept),
          accounted.counted.trans (congrArg Int32.ofNat (Nat.add_right_cancel count).symm)⟩
      · have count := countP_set_add (blocked game) found (.reached request passed)
        exact ⟨accounted.set index (show Faithful game (.reached request passed) from kept),
          accounted.counted.trans (congrArg Int32.ofNat (Nat.add_right_cancel count).symm)⟩
  · exact accounted

theorem Accounted.step (accounted : Accounted game state) (event : BypassEvent) :
    Accounted game (step game state event) := by
  cases event with
  | install granted =>
      have calls := installStep_calls game state granted
      have count : (installStep game granted state).blockedCount = state.blockedCount := by
        unfold installStep
        cases state.phase <;> rfl
      exact ⟨calls ▸ accounted.faithful, by
        rw [BypassState.step, calls, count]
        exact accounted.counted⟩
  | uninstall caller =>
      have calls := uninstallStep_calls state caller
      have count : (uninstallStep caller state).blockedCount = state.blockedCount := by
        unfold uninstallStep
        split
        · rfl
        · cases state.uninstalls caller <;> rfl
      exact ⟨calls ▸ accounted.faithful, by
        rw [BypassState.step, calls, count]
        exact accounted.counted⟩
  | create request => exact accounted.create request
  | proceed index => exact accounted.proceed index

/-- In every interleaving the hook passes each call on with the arguments it was made with, but for
the start of the packer's threads, and it has counted the packer's threads that it replaced. -/
theorem run_accounted (game : PackedGame) (events : List BypassEvent) :
    Accounted game (run game events) :=
  TransitionRun.foldl_invariant (Accounted game) ⟨by simp [initial], rfl⟩
    fun _ accounted event _ => accounted.step event

end Step

end BypassState

end PatchFix
