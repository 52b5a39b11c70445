import PatchFix.Library.TransitionRun
import PatchFix.MakeHook
import PatchFix.RegistryInstall

/-!
Rogue's `GameStateHook`: its install, the three callbacks it places, and the in-game flag they
maintain for the other hooks, over one launch and any firings after it.
-/

namespace PatchFix.Rogue

open DependencyGraph

inductive PauseSite where
  | unpause | pause | pause2
  deriving DecidableEq, Repr

structure GameState where
  isInGame : Bool
  gameStatePtr : UInt64
  pauseFlag : UInt64 → UInt8
  hooked : PauseSite → Bool
  faulted : PauseSite → Bool

namespace GameState

def initial : GameState where
  isInGame := false
  gameStatePtr := 0
  pauseFlag := fun _ => 0
  hooked := fun _ => false
  faulted := fun _ => false

/-- `accessible` says where a `GameState` object can be read and written. -/
def writePauseFlag (accessible : UInt64 → Bool) (base : UInt64) (value : UInt8)
    (state : GameState) : GameState × Bool :=
  if base = 0 then (state, false)
  else if accessible base then
    ({ state with
      pauseFlag := Function.update state.pauseFlag base value
      gameStatePtr := if state.gameStatePtr = 0 then base else state.gameStatePtr }, false)
  else (state, true)

def gameUnpause (accessible : UInt64 → Bool) (regs : Registers) (state : GameState) :
    GameState × Bool :=
  writePauseFlag accessible regs.rcx 0 { state with isInGame := true }

def gamePause (accessible : UInt64 → Bool) (regs : Registers) (state : GameState) :
    GameState × Bool :=
  writePauseFlag accessible regs.r8 1 { state with isInGame := false }

def gamePause2 (accessible : UInt64 → Bool) (regs : Registers) (state : GameState) :
    GameState × Bool :=
  writePauseFlag accessible regs.rdi 1 { state with isInGame := false }

def functor : PauseSite → (UInt64 → Bool) → Registers → GameState → GameState × Bool
  | .unpause => gameUnpause
  | .pause => gamePause
  | .pause2 => gamePause2

structure Firing where
  site : PauseSite
  regs : Registers
  accessible : UInt64 → Bool

def fire (state : GameState) (firing : Firing) : GameState :=
  if state.hooked firing.site then
    let result := guardedCallback (functor firing.site firing.accessible firing.regs)
      (state.faulted firing.site) state
    { result.1 with faulted := Function.update result.1.faulted firing.site result.2 }
  else state

/-- What `install` meets: the instance pointer it reads through the pattern (`none` when the read
raises), whether that instance can be read, and the ends of its `make_hook` calls. -/
structure InstallInput where
  instancePtr : Option UInt64
  accessible : UInt64 → Bool
  unpause : HookCreation
  pause : HookCreation
  pause2 : HookCreation

def hookSite (site : PauseSite) (creation : HookCreation)
    (next : GameState → InstallOutcome × GameState) (state : GameState) :
    InstallOutcome × GameState :=
  match creation with
  | .created => next { state with hooked := Function.update state.hooked site true }
  | .refused => (.failed, state)
  | .raised => (.faulted, state)

def install (addrs : Address → Option UInt64) (input : InstallInput) (state : GameState) :
    InstallOutcome × GameState :=
  match input.instancePtr with
  | none => (.faulted, state)
  | some gsPtr =>
      let cached := if gsPtr ≠ 0 then { state with gameStatePtr := gsPtr } else state
      if gsPtr ≠ 0 ∧ input.accessible gsPtr = false then (.faulted, cached)
      else
        hookSite .unpause input.unpause (hookSite .pause input.pause fun hooked =>
          if (addrs .gamePause2).isSome then
            hookSite .pause2 input.pause2 (fun all => (.succeeded, all)) hooked
          else (.succeeded, hooked)) cached

end GameState

structure Launch (Value : Type) where
  fields : Hook → List (IniField Value)
  addrs : Address → Option UInt64
  ini : INIStructure
  journal : Journal
  others : Fin 11 → InstallOutcome
  input : GameState.InstallInput

namespace Launch

variable {Value : Type} (launch : Launch Value)

def index : Fin (allHooks launch.fields).count := Hook.gameStateHook.index

def outcome (index : Fin (allHooks launch.fields).count) : InstallOutcome :=
  if index = launch.index then (GameState.install launch.addrs launch.input GameState.initial).1
  else launch.others index

def run : InstallRun (allHooks launch.fields) :=
  (Registry.initial (allHooks launch.fields)).installAll installOrder launch.addrs launch.outcome
    launch.ini launch.journal

def gameState : GameState :=
  if launch.index ∈ attemptsOf launch.run.trace then
    (GameState.install launch.addrs launch.input GameState.initial).2
  else GameState.initial

def Installed : Prop := (launch.run.registry launch.index).installed = true

end Launch

namespace GameState

def InstallInput.Readable (input : InstallInput) : Prop :=
  match input.instancePtr with
  | none => False
  | some gsPtr => gsPtr = 0 ∨ input.accessible gsPtr = true

theorem writePauseFlag_frame (accessible : UInt64 → Bool) (base : UInt64) (value : UInt8)
    (state : GameState) :
    (writePauseFlag accessible base value state).1.isInGame = state.isInGame ∧
      (writePauseFlag accessible base value state).1.hooked = state.hooked ∧
      (writePauseFlag accessible base value state).1.faulted = state.faulted := by
  unfold writePauseFlag
  split
  · exact ⟨rfl, rfl, rfl⟩
  · split
    · exact ⟨rfl, rfl, rfl⟩
    · exact ⟨rfl, rfl, rfl⟩

theorem functor_frame (site : PauseSite) (accessible : UInt64 → Bool) (regs : Registers)
    (state : GameState) :
    (functor site accessible regs state).1.isInGame = decide (site = .unpause) ∧
      (functor site accessible regs state).1.hooked = state.hooked ∧
      (functor site accessible regs state).1.faulted = state.faulted := by
  cases site with
  | unpause => exact writePauseFlag_frame accessible regs.rcx 0 { state with isInGame := true }
  | pause => exact writePauseFlag_frame accessible regs.r8 1 { state with isInGame := false }
  | pause2 => exact writePauseFlag_frame accessible regs.rdi 1 { state with isInGame := false }

theorem fire_hooked (state : GameState) (firing : Firing) :
    (fire state firing).hooked = state.hooked := by
  unfold fire guardedCallback
  split
  · split
    · rfl
    · exact (functor_frame _ _ _ state).2.1
  · rfl

theorem fire_faulted {state : GameState} {firing : Firing} {site : PauseSite}
    (other : firing.site ≠ site) : (fire state firing).faulted site = state.faulted site := by
  unfold fire guardedCallback
  split
  · simp only [Function.update_of_ne other.symm]
    split
    · rfl
    · rw [(functor_frame _ _ _ state).2.2]
  · rfl

theorem fire_isInGame {state : GameState} {firing : Firing} (out : state.isInGame = false) :
    (fire state firing).isInGame = true ↔
      firing.site = .unpause ∧ state.hooked .unpause = true ∧ state.faulted .unpause = false := by
  by_cases live : state.hooked firing.site = true ∧ state.faulted firing.site = false
  · have ran : (fire state firing).isInGame =
        (functor firing.site firing.accessible firing.regs state).1.isInGame := by
      simp [fire, guardedCallback, live.1, live.2]
    rw [ran, (functor_frame _ _ _ state).1]
    constructor
    · intro unpause
      have site := of_decide_eq_true unpause
      exact ⟨site, site ▸ live⟩
    · intro unpause
      exact decide_eq_true unpause.1
  · have idle : (fire state firing).isInGame = state.isInGame := by
      unfold fire guardedCallback
      split
      · next hooked =>
          have faulted : state.faulted firing.site = true := by
            simpa using fun unfaulted => live ⟨hooked, unfaulted⟩
          simp [faulted]
      · rfl
    rw [idle, out]
    constructor
    · intro impossible
      cases impossible
    · rintro ⟨site, hooked, unfaulted⟩
      exact absurd ⟨site ▸ hooked, site ▸ unfaulted⟩ live

theorem reaches_inGame {start : GameState} (firings : List Firing)
    (out : start.isInGame = false) (unfaulted : start.faulted .unpause = false) :
    (∃ reached ∈ TransitionRun.states fire start firings, reached.isInGame = true) ↔
      start.hooked .unpause = true ∧ ∃ firing ∈ firings, firing.site = .unpause := by
  induction firings generalizing start with
  | nil => simp [TransitionRun.states, out]
  | cons firing firings ih =>
      simp only [TransitionRun.states, List.mem_cons, exists_eq_or_imp, out, Bool.false_eq_true,
        false_or]
      by_cases sets : (fire start firing).isInGame = true
      · obtain ⟨site, hooked, _⟩ := (fire_isInGame out).mp sets
        have first : fire start firing ∈ TransitionRun.states fire (fire start firing) firings :=
          TransitionRun.mem_states.mpr ⟨[], firings, rfl, rfl⟩
        exact iff_of_true ⟨_, first, sets⟩ ⟨hooked, Or.inl site⟩
      · have still : (fire start firing).isInGame = false := by simpa using sets
        by_cases site : firing.site = .unpause
        · have unhooked : start.hooked .unpause = false := by
            by_contra hooked
            exact sets ((fire_isInGame out).mpr ⟨site, by simpa using hooked, unfaulted⟩)
          have same : fire start firing = start := by simp [fire, site, unhooked]
          rw [same, ih out unfaulted]
          simp [unhooked]
        · rw [ih still ((fire_faulted site).trans unfaulted), fire_hooked]
          simp [site]

def InstallInput.PausesHooked (addrs : Address → Option UInt64) (input : InstallInput) : Prop :=
  input.pause = .created ∧ ((addrs .gamePause2).isSome = true → input.pause2 = .created)

structure Installed (addrs : Address → Option UInt64) (input : InstallInput)
    (result : InstallOutcome × GameState) : Prop where
  succeeded : result.1 = .succeeded ↔
    input.Readable ∧ input.unpause = .created ∧ input.PausesHooked addrs
  hooked : result.2.hooked .unpause = true ↔ input.Readable ∧ input.unpause = .created
  isInGame : result.2.isInGame = false
  faulted : result.2.faulted .unpause = false

theorem install_spec (addrs : Address → Option UInt64) (input : InstallInput) :
    Installed addrs input (install addrs input initial) := by
  unfold install
  cases pointer : input.instancePtr with
  | none => constructor <;> simp [InstallInput.Readable, pointer, initial]
  | some gsPtr =>
      by_cases unreadable : gsPtr ≠ 0 ∧ input.accessible gsPtr = false
      · have notReadable : ¬input.Readable := by
          simpa [InstallInput.Readable, pointer] using unreadable
        constructor <;> simp [unreadable, notReadable, initial]
      · have readable : input.Readable := by
          simp only [InstallInput.Readable, pointer]
          by_cases null : gsPtr = 0
          · exact Or.inl null
          · exact Or.inr (by simpa [null] using unreadable)
        simp only [if_neg unreadable]
        generalize cachedEq : (if gsPtr ≠ 0 then
          { initial with gameStatePtr := gsPtr } else initial) = cached
        obtain ⟨out, unhooked, unfaulted⟩ : cached.isInGame = false ∧
            cached.hooked .unpause = false ∧ cached.faulted .unpause = false := by
          rw [← cachedEq]
          split <;> exact ⟨rfl, rfl, rfl⟩
        cases unpause : input.unpause <;> cases pause : input.pause <;>
          cases present : (addrs .gamePause2).isSome <;> cases pause2 : input.pause2 <;>
          constructor <;>
          simp [hookSite, readable, InstallInput.PausesHooked, unpause, pause, present, pause2,
            out, unhooked, unfaulted]

end GameState

namespace Launch

variable {Value : Type} (launch : Launch Value)

def Requested : Prop :=
  (allHooks launch.fields).iniEnabled launch.ini launch.index = true ∧
    (allHooks launch.fields).checkRequired launch.addrs launch.index = true

theorem sorted : (allHooks launch.fields).Sorted installOrder :=
  HookList.sorted_of_count (allHooks_sorted launch.fields)

theorem noHardDeps (dep : Fin (allHooks launch.fields).count) :
    dep ∉ (allHooks launch.fields).hardDeps launch.index :=
  List.not_mem_nil

theorem attempted_iff : launch.index ∈ attemptsOf launch.run.trace ↔ launch.Requested := by
  have attempts := installAll_attempted launch.addrs launch.outcome launch.ini launch.journal
    launch.sorted launch.index
  rw [HookList.EnabledBy, throughout_leaf launch.noHardDeps] at attempts
  rw [mem_attemptsOf, Requested]
  exact attempts.trans (and_congr_right' (and_iff_right fun dep edge =>
    absurd edge (launch.noHardDeps dep)))

theorem installed_iff : launch.Installed ↔
    launch.Requested ∧ launch.input.Readable ∧ launch.input.unpause = .created ∧
      launch.input.PausesHooked launch.addrs := by
  have installs := installAll_installed launch.addrs launch.outcome launch.ini launch.journal
    launch.sorted launch.index
  have own : launch.outcome launch.index =
      (GameState.install launch.addrs launch.input GameState.initial).1 := if_pos rfl
  rw [HookList.InstalledBy, throughout_leaf launch.noHardDeps, HookList.Installable, own,
    (GameState.install_spec launch.addrs launch.input).succeeded, ← and_assoc] at installs
  exact installs

theorem gameState_spec :
    (launch.gameState.hooked .unpause = true ↔
      launch.Requested ∧ launch.input.Readable ∧ launch.input.unpause = .created) ∧
    launch.gameState.isInGame = false ∧ launch.gameState.faulted .unpause = false := by
  have spec := GameState.install_spec launch.addrs launch.input
  unfold gameState
  split
  · next attempted =>
      have requested := launch.attempted_iff.mp attempted
      exact ⟨by rw [spec.hooked]; exact (and_iff_right requested).symm, spec.isInGame, spec.faulted⟩
  · next notAttempted =>
      have notRequested : ¬launch.Requested := fun requested =>
        notAttempted (launch.attempted_iff.mpr requested)
      exact ⟨by simp [notRequested, GameState.initial], rfl, rfl⟩

/-- Over every launch and all firings after it, the in-game flag is set only while `GameState` is
installed, if and only if the install does not stop after placing `GameUnpause` or the game never
reaches that site. -/
theorem inGame_installed_iff (firings : List GameState.Firing) :
    (∀ state ∈ TransitionRun.states GameState.fire launch.gameState firings,
      state.isInGame = true → launch.Installed) ↔
    (launch.Requested → launch.input.Readable → launch.input.unpause = .created →
      launch.input.PausesHooked launch.addrs) ∨
      ∀ firing ∈ firings, firing.site ≠ .unpause := by
  obtain ⟨hooked, out, unfaulted⟩ := launch.gameState_spec
  have reaches := GameState.reaches_inGame firings out unfaulted
  have ever : (∀ state ∈ TransitionRun.states GameState.fire launch.gameState firings,
      state.isInGame = true → launch.Installed) ↔
      ((∃ state ∈ TransitionRun.states GameState.fire launch.gameState firings,
        state.isInGame = true) → launch.Installed) := by
    simp only [forall_exists_index, and_imp]
  rw [ever, reaches, hooked, launch.installed_iff]
  by_cases fires : ∃ firing ∈ firings, firing.site = .unpause
  · have notNever : ¬∀ firing ∈ firings, firing.site ≠ .unpause := by simpa using fires
    simp only [fires, notNever, and_true, or_false]
    constructor
    · intro complete requested readable created
      exact (complete ⟨requested, readable, created⟩).2.2.2
    · rintro complete ⟨requested, readable, created⟩
      exact ⟨requested, readable, created, complete requested readable created⟩
  · have never : ∀ firing ∈ firings, firing.site ≠ .unpause := by simpa using fires
    simp only [fires, and_false, false_implies, true_iff]
    exact Or.inr never

end Launch

def pauseRefused : Launch Unit where
  fields := fun _ => []
  addrs := fun _ => some 0x140001000
  ini := INIStructure.empty
  journal := Journal.atLoad none
  others := fun _ => .succeeded
  input := {
    instancePtr := some 0
    accessible := fun _ => true
    unpause := .created
    pause := .refused
    pause2 := .created }

def unpauseFiring : GameState.Firing where
  site := .unpause
  regs := { rax := 0, rcx := 0x2000000, rdi := 0, r8 := 0 }
  accessible := fun _ => true

theorem pauseRefused_inGame :
    ¬∀ state ∈ TransitionRun.states GameState.fire pauseRefused.gameState [unpauseFiring],
      state.isInGame = true → pauseRefused.Installed := by
  intro claim
  have requested : pauseRefused.Requested := ⟨by decide, by decide⟩
  obtain ⟨hooked, out, unfaulted⟩ := pauseRefused.gameState_spec
  obtain ⟨state, member, inGame⟩ := (GameState.reaches_inGame [unpauseFiring] out
    unfaulted).mpr ⟨hooked.mpr ⟨requested, Or.inl rfl, rfl⟩, unpauseFiring, by simp, rfl⟩
  have complete := (pauseRefused.installed_iff.mp (claim state member inGame)).2.2.2
  exact absurd complete.1 (by decide)

end PatchFix.Rogue
