import PatchFix.Library.TransitionRun
import PatchFix.Rogue.LanguageUnlock

/-! Which game id `GetGameIdGuard` answers, against the bitfields the game's own loader wrote. -/

namespace PatchFix.Rogue.LanguageUnlock

/-- The loader's writes as the events tell them: the last one, the last one since the install or
the latest `setup`, and what the latest `setup` found of these. -/
structure LoaderView where
  lastWrite : Option UInt32
  pending : Option UInt32
  classified : Option (Option UInt32)

def LoaderView.step (view : LoaderView) : Event → LoaderView
  | .loaderWrite menuBf => { view with lastWrite := some menuBf, pending := some menuBf }
  | .setup => { view with pending := none, classified := some view.pending }
  | .query _ => view
  | .reload _ _ => view

def loaderView (before : List UInt32) (events : List Event) : LoaderView :=
  events.foldl LoaderView.step
    { lastWrite := before.getLast?, pending := none, classified := none }

/-- No `setup` yet: the game is a worldwide copy outside Steam. Otherwise the latest `setup` found
a new write of the same SKU as the last write, or found none and the copy is Russian. -/
def LoaderView.Agrees (isSteam : Bool) (view : LoaderView) : Prop :=
  ∀ bitfield, view.lastWrite = some bitfield →
    match view.classified with
    | none => isSteam = false ∧ sku bitfield = .worldwide
    | some none => sku bitfield = .russian
    | some (some seen) => sku seen = sku bitfield

def runEvents (isSteam : Bool) (start : LanguageUnlock) (before : List UInt32)
    (input : InstallInput) (events : List Event) : LanguageUnlock :=
  events.foldl (step isSteam)
    (install input ((before.map Event.loaderWrite).foldl (step isSteam) start)).2

theorem loaderWrites_initial (isSteam : Bool) (before : List UInt32)
    (menuBf audioBf langIdx uiLang : UInt32) :
    (before.map Event.loaderWrite).foldl (step isSteam) (initial menuBf audioBf langIdx uiLang) =
      initial (before.getLast?.getD menuBf) audioBf langIdx uiLang := by
  induction before generalizing menuBf with
  | nil => rfl
  | cons write before ih =>
      rw [List.map_cons, List.foldl_cons]
      refine (ih write).trans ?_
      rw [List.getLast?_cons]
      cases before.getLast? <;> rfl

structure Mirrors (isSteam : Bool) (view : LoaderView) (state : LanguageUnlock) : Prop where
  langBfHooked : state.langBfHooked = true
  gameIdHooked : state.gameIdHooked = true
  menuBf : state.menuBf = view.pending.getD kAllMenu
  realGameId : state.realGameId = match view.classified with
    | none => .uplayWw
    | some seen => classify (seen.getD kAllMenu) isSteam

theorem Mirrors.step {isSteam : Bool} {view : LoaderView} {state : LanguageUnlock}
    (mirrors : Mirrors isSteam view state) (event : Event) :
    Mirrors isSteam (view.step event) (step isSteam state event) := by
  cases event with
  | loaderWrite menuBf =>
      exact ⟨mirrors.langBfHooked, mirrors.gameIdHooked, rfl, mirrors.realGameId⟩
  | setup =>
      have same := langBitfieldPatch_same isSteam state
      obtain ⟨realGameId, menuBf, _⟩ := langBitfieldPatch_effect isSteam state
      simp only [LanguageUnlock.step, mirrors.langBfHooked, if_true]
      constructor
      · exact same.langBfHooked.trans mirrors.langBfHooked
      · exact same.gameIdHooked.trans mirrors.gameIdHooked
      · exact menuBf
      · rw [realGameId, mirrors.menuBf]
        rfl
  | query regs => exact mirrors
  | reload newLang locMgr =>
      have same := onReload_same newLang locMgr state
      obtain ⟨menuBf, realGameId⟩ := onReload_bitfield newLang locMgr state
      exact ⟨same.langBfHooked.trans mirrors.langBfHooked,
        same.gameIdHooked.trans mirrors.gameIdHooked, menuBf.trans mirrors.menuBf,
        realGameId.trans mirrors.realGameId⟩

theorem Mirrors.run {isSteam : Bool} {view : LoaderView} {state : LanguageUnlock}
    (mirrors : Mirrors isSteam view state) (events : List Event) :
    Mirrors isSteam (events.foldl LoaderView.step view)
      (events.foldl (LanguageUnlock.step isSteam) state) := by
  induction events generalizing view state with
  | nil => exact mirrors
  | cons event events ih => exact ih (mirrors.step event)

theorem uplayWw_region_iff (bitfield : UInt32) (isSteam : Bool) :
    GameId.uplayWw.toUnderlying = region bitfield isSteam ↔
      isSteam = false ∧ sku bitfield = .worldwide := by
  unfold region sku
  cases isSteam <;> cases has bitfield .russian <;>
    cases has bitfield .korean && has bitfield .chineseTrad <;> decide

theorem Mirrors.answer_iff {isSteam : Bool} {view : LoaderView} {state : LanguageUnlock}
    (mirrors : Mirrors isSteam view state) (regs : Registers) :
    (∀ given, answer regs state = some given → ∀ bitfield, view.lastWrite = some bitfield →
      given = (region bitfield isSteam).toUInt64) ↔ view.Agrees isSteam := by
  have given : answer regs state = some state.realGameId.toUnderlying.toUInt64 := by
    simp [answer, mirrors.gameIdHooked, getGameIdGuard]
  simp only [given, Option.some.injEq, forall_eq']
  apply forall₂_congr
  intro bitfield _
  rw [UInt16.toUInt64_inj, mirrors.realGameId]
  cases view.classified with
  | none => exact uplayWw_region_iff bitfield isSteam
  | some seen =>
      rw [classify_toUnderlying, region_eq_iff]
      cases seen with
      | none =>
          rw [Option.getD_none, sku_kAllMenu]
          exact eq_comm
      | some seen => exact Iff.rfl

theorem runEvents_unguarded {isSteam : Bool} {start : LanguageUnlock} {before : List UInt32}
    {input : InstallInput}
    (unguarded : (runEvents isSteam start before input []).gameIdHooked = false)
    (events : List Event) : (runEvents isSteam start before input events).gameIdHooked = false :=
  TransitionRun.foldl_invariant (fun state : LanguageUnlock => state.gameIdHooked = false) unguarded
    fun state held event _ => (step_same isSteam state event).gameIdHooked.trans held

section Fidelity

variable (isSteam : Bool) (menuBf audioBf langIdx uiLang : UInt32) (before : List UInt32)
variable (input : InstallInput)

theorem runEvents_mirrors (guards : input.Guards) (events : List Event) :
    Mirrors isSteam (loaderView before events)
      (runEvents isSteam (initial menuBf audioBf langIdx uiLang) before input events) := by
  have spec := install_spec input (before.getLast?.getD menuBf) audioBf langIdx uiLang
  unfold runEvents loaderView
  rw [loaderWrites_initial]
  apply Mirrors.run
  constructor
  · exact spec.langBfHooked.mpr guards.1
  · exact spec.gameIdHooked.mpr guards
  · exact spec.menuBf guards.1
  · exact spec.realGameId

/-- Every answer of a run is the region of the loader's last write if and only if, with the guard
placed, the loader's view agrees at every query. -/
theorem answers_region_iff (events : List Event) :
    (∀ done regs rest, events = done ++ .query regs :: rest → ∀ given,
      answer regs (runEvents isSteam (initial menuBf audioBf langIdx uiLang) before input done) =
        some given →
      ∀ bitfield, (loaderView before done).lastWrite = some bitfield →
        given = (region bitfield isSteam).toUInt64) ↔
    (input.Guards → ∀ done regs rest, events = done ++ .query regs :: rest →
      (loaderView before done).Agrees isSteam) := by
  by_cases guards : input.Guards
  · rw [forall_prop_of_true guards]
    apply forall₄_congr
    intro done regs rest _
    exact (runEvents_mirrors isSteam menuBf audioBf langIdx uiLang before input guards
      done).answer_iff regs
  · have spec := install_spec input (before.getLast?.getD menuBf) audioBf langIdx uiLang
    have unguarded : (runEvents isSteam (initial menuBf audioBf langIdx uiLang) before input
        []).gameIdHooked = false := by
      rw [runEvents, loaderWrites_initial, ← Bool.not_eq_true]
      exact fun hooked => guards (spec.gameIdHooked.mp hooked)
    refine iff_of_true ?_ fun impossible => absurd impossible guards
    intro done regs rest _ given answered
    rw [answer, runEvents_unguarded unguarded done] at answered
    cases answered

end Fidelity

def unlockInput : InstallInput where
  unlockAll := true
  uiLanguage := .none
  getLanguage := true
  locInit := true
  getLangBranch := true
  reloadBranch := true
  isSteamBranch := true
  langBfHook := .created
  nop := true
  gameIdHook := .created
  ret := true

def noRegisters : Registers where
  rax := 0
  rcx := 0
  rdi := 0
  r8 := 0

/-- A second `setup` takes the plugin's own bitfield of a worldwide copy for a Russian one. -/
theorem secondSetup_answers_russian :
    ¬∀ done regs rest,
      [.loaderWrite 0x2E, .setup, .setup, .query noRegisters] = done ++ .query regs :: rest →
      ∀ given, answer regs (runEvents false (initial 0 0 0 0) [] unlockInput done) = some given →
      ∀ bitfield, (loaderView [] done).lastWrite = some bitfield →
        given = (region bitfield false).toUInt64 := by
  intro claim
  have answered := claim [.loaderWrite 0x2E, .setup, .setup] noRegisters [] rfl 0x4A2 (by decide)
    0x2E rfl
  exact absurd answered (by decide)

end PatchFix.Rogue.LanguageUnlock
