import PatchFix.MakeHook
import PatchFix.Registry
import PatchFix.Rogue.Language

/-!
Rogue's `LanguageUnlockHook`: its install, `on_reload`, the callbacks `LangBitfieldPatch` and
`GetGameIdGuard`, and the writes of the game's own language loader between them.
-/

namespace PatchFix.Rogue

/-- The globals of language_unlock.cpp with the game variables they point at. A pointer is kept as
whether it was resolved; `stringReloads` are the calls of `s_reload_lang_fn`. -/
structure LanguageUnlock where
  menuBf : UInt32
  audioBf : UInt32
  langIdx : UInt32
  uiLang : UInt32
  langIdxResolved : Bool
  uiLangResolved : Bool
  locMgrResolved : Bool
  reloadLangResolved : Bool
  uiLanguage : Language
  realGameId : GameId
  currentLanguage : Language
  langBfHooked : Bool
  gameIdHooked : Bool
  stringReloads : List (UInt64 × UInt32 × UInt32)

namespace LanguageUnlock

def initial (menuBf audioBf langIdx uiLang : UInt32) : LanguageUnlock where
  menuBf := menuBf
  audioBf := audioBf
  langIdx := langIdx
  uiLang := uiLang
  langIdxResolved := false
  uiLangResolved := false
  locMgrResolved := false
  reloadLangResolved := false
  uiLanguage := .none
  realGameId := .uplayWw
  currentLanguage := .none
  langBfHooked := false
  gameIdHooked := false
  stringReloads := []

def writeLanguage (language : Language) (state : LanguageUnlock) : LanguageUnlock :=
  { state with
    langIdx := if state.langIdxResolved then language.toUnderlying else state.langIdx
    uiLang := if state.uiLangResolved then language.toUnderlying else state.uiLang }

def classify (orig : UInt32) (isSteam : Bool) : GameId :=
  if has orig .russian then if isSteam then .steamRu else .uplayRu
  else if has orig .korean && has orig .chineseTrad then
    if isSteam then .steamAsia else .uplayAsia
  else if isSteam then .steamWw else .uplayWw

def langBitfieldPatch (isSteam : Bool) (state : LanguageUnlock) : LanguageUnlock :=
  let patched :=
    { state with
      realGameId := classify state.menuBf isSteam
      menuBf := kAllMenu
      audioBf := kAllAudio }
  if patched.uiLanguage ≠ .none then writeLanguage patched.uiLanguage patched else patched

def getGameIdGuard (regs : Registers) (state : LanguageUnlock) : Registers :=
  { regs with rax := state.realGameId.toUnderlying.toUInt64 }

/-- `on_reload`; `locMgr` is the value found through `s_loc_mgr_ptr`. -/
def onReload (newLang : Language) (locMgr : UInt64) (state : LanguageUnlock) : LanguageUnlock :=
  if newLang = state.currentLanguage then state
  else if newLang = .none then state
  else
    let written := writeLanguage newLang state
    let reloads :=
      if written.locMgrResolved && written.reloadLangResolved && locMgr != 0 then
        [(locMgr, 0, newLang.toUnderlying), (locMgr, 2, newLang.toUnderlying)]
      else []
    { written with
      stringReloads := written.stringReloads ++ reloads
      currentLanguage := newLang }

/-- What `install` meets: the configuration, the optional patterns, the `branch_target` calls that
resolve, and the ends of its hook and write calls. -/
structure InstallInput where
  unlockAll : Bool
  uiLanguage : Language
  getLanguage : Bool
  locInit : Bool
  getLangBranch : Bool
  reloadBranch : Bool
  isSteamBranch : Bool
  langBfHook : HookCreation
  nop : Bool
  gameIdHook : HookCreation
  ret : Bool

def installUiLanguage (input : InstallInput) (state : LanguageUnlock) : LanguageUnlock :=
  let indexed := if input.getLanguage then
    { state with langIdxResolved := true, langIdx := input.uiLanguage.toUnderlying } else state
  let resolved := if input.getLangBranch then
    { indexed with uiLangResolved := true, uiLang := input.uiLanguage.toUnderlying } else indexed
  let located := if input.locInit then
    { resolved with
      locMgrResolved := input.reloadBranch
      reloadLangResolved := resolved.reloadLangResolved || input.reloadBranch } else resolved
  { located with currentLanguage := input.uiLanguage }

def installUnlock (input : InstallInput) (state : LanguageUnlock) :
    InstallOutcome × LanguageUnlock :=
  if !input.isSteamBranch then (.failed, state)
  else
    let prePatched := { state with menuBf := kAllMenu, audioBf := kAllAudio }
    match input.langBfHook with
    | .refused => (.failed, prePatched)
    | .raised => (.faulted, prePatched)
    | .created =>
        let hooked := { prePatched with langBfHooked := true }
        if !input.nop then (.failed, hooked)
        else
          match input.gameIdHook with
          | .refused => (.failed, hooked)
          | .raised => (.faulted, hooked)
          | .created =>
              let guarded := { hooked with gameIdHooked := true }
              if !input.ret then (.failed, guarded) else (.succeeded, guarded)

def localise (input : InstallInput) (state : LanguageUnlock) : LanguageUnlock :=
  let configured := { state with uiLanguage := input.uiLanguage }
  if input.uiLanguage ≠ .none then installUiLanguage input configured else configured

def install (input : InstallInput) (state : LanguageUnlock) : InstallOutcome × LanguageUnlock :=
  if !input.unlockAll && input.uiLanguage = .none then
    (.succeeded, { state with uiLanguage := input.uiLanguage })
  else if !input.unlockAll then (.succeeded, localise input state)
  else installUnlock input (localise input state)

/-- What happens after the install. `setup` and `query` are the game reaching the hooked sites. -/
inductive Event where
  | loaderWrite (menuBf : UInt32)
  | setup
  | query (regs : Registers)
  | reload (newLang : Language) (locMgr : UInt64)

def step (isSteam : Bool) (state : LanguageUnlock) : Event → LanguageUnlock
  | .loaderWrite menuBf => { state with menuBf }
  | .setup => if state.langBfHooked then langBitfieldPatch isSteam state else state
  | .query _ => state
  | .reload newLang locMgr => onReload newLang locMgr state

def answer (regs : Registers) (state : LanguageUnlock) : Option UInt64 :=
  if state.gameIdHooked then some (getGameIdGuard regs state).rax else none

theorem classify_toUnderlying (orig : UInt32) (isSteam : Bool) :
    (classify orig isSteam).toUnderlying = region orig isSteam := by
  unfold classify region
  cases isSteam <;> cases has orig .russian <;>
    cases has orig .korean && has orig .chineseTrad <;> rfl

structure SameInstall (before after : LanguageUnlock) : Prop where
  uiLanguage : after.uiLanguage = before.uiLanguage
  langIdxResolved : after.langIdxResolved = before.langIdxResolved
  uiLangResolved : after.uiLangResolved = before.uiLangResolved
  langBfHooked : after.langBfHooked = before.langBfHooked
  gameIdHooked : after.gameIdHooked = before.gameIdHooked

theorem SameInstall.refl (state : LanguageUnlock) : SameInstall state state :=
  ⟨rfl, rfl, rfl, rfl, rfl⟩

theorem SameInstall.trans {first second third : LanguageUnlock} (left : SameInstall first second)
    (right : SameInstall second third) : SameInstall first third :=
  ⟨right.uiLanguage.trans left.uiLanguage, right.langIdxResolved.trans left.langIdxResolved,
    right.uiLangResolved.trans left.uiLangResolved, right.langBfHooked.trans left.langBfHooked,
    right.gameIdHooked.trans left.gameIdHooked⟩

theorem langBitfieldPatch_same (isSteam : Bool) (state : LanguageUnlock) :
    SameInstall state (langBitfieldPatch isSteam state) := by
  unfold langBitfieldPatch
  dsimp only
  split
  · exact ⟨rfl, rfl, rfl, rfl, rfl⟩
  · exact ⟨rfl, rfl, rfl, rfl, rfl⟩

theorem langBitfieldPatch_effect (isSteam : Bool) (state : LanguageUnlock) :
    (langBitfieldPatch isSteam state).realGameId = classify state.menuBf isSteam ∧
      (langBitfieldPatch isSteam state).menuBf = kAllMenu ∧
      (langBitfieldPatch isSteam state).currentLanguage = state.currentLanguage := by
  unfold langBitfieldPatch
  dsimp only
  split
  · exact ⟨rfl, rfl, rfl⟩
  · exact ⟨rfl, rfl, rfl⟩

theorem onReload_same (newLang : Language) (locMgr : UInt64) (state : LanguageUnlock) :
    SameInstall state (onReload newLang locMgr state) := by
  unfold onReload
  split
  · exact SameInstall.refl state
  · split
    · exact SameInstall.refl state
    · exact ⟨rfl, rfl, rfl, rfl, rfl⟩

theorem onReload_bitfield (newLang : Language) (locMgr : UInt64) (state : LanguageUnlock) :
    (onReload newLang locMgr state).menuBf = state.menuBf ∧
      (onReload newLang locMgr state).realGameId = state.realGameId := by
  unfold onReload
  split
  · exact ⟨rfl, rfl⟩
  · split
    · exact ⟨rfl, rfl⟩
    · exact ⟨rfl, rfl⟩

theorem step_same (isSteam : Bool) (state : LanguageUnlock) (event : Event) :
    SameInstall state (step isSteam state event) := by
  cases event with
  | loaderWrite menuBf => exact ⟨rfl, rfl, rfl, rfl, rfl⟩
  | setup =>
      simp only [step]
      split
      · exact langBitfieldPatch_same isSteam state
      · exact SameInstall.refl state
  | query regs => exact SameInstall.refl state
  | reload newLang locMgr => exact onReload_same newLang locMgr state

def InstallInput.Unlocks (input : InstallInput) : Prop :=
  input.unlockAll = true ∧ input.isSteamBranch = true ∧ input.langBfHook = .created

def InstallInput.Guards (input : InstallInput) : Prop :=
  input.Unlocks ∧ input.nop = true ∧ input.gameIdHook = .created

def Holds (language : Language) (state : LanguageUnlock) : Prop :=
  (state.langIdxResolved = true → state.langIdx = language.toUnderlying) ∧
    (state.uiLangResolved = true → state.uiLang = language.toUnderlying)

theorem writeLanguage_holds (language : Language) (state : LanguageUnlock) :
    Holds language (writeLanguage language state) := by
  constructor
  · intro resolved
    exact if_pos resolved
  · intro resolved
    exact if_pos resolved

structure Installed (input : InstallInput) (state : LanguageUnlock) : Prop where
  langBfHooked : state.langBfHooked = true ↔ input.Unlocks
  gameIdHooked : state.gameIdHooked = true ↔ input.Guards
  menuBf : input.Unlocks → state.menuBf = kAllMenu
  realGameId : state.realGameId = .uplayWw
  uiLanguage : state.uiLanguage = input.uiLanguage
  currentLanguage : state.currentLanguage = input.uiLanguage
  langIdxResolved : state.langIdxResolved = true ↔
    input.uiLanguage ≠ .none ∧ input.getLanguage = true
  uiLangResolved : state.uiLangResolved = true ↔
    input.uiLanguage ≠ .none ∧ input.getLangBranch = true
  holds : Holds input.uiLanguage state

structure Localised (input : InstallInput) (state : LanguageUnlock) : Prop where
  unhooked : state.langBfHooked = false ∧ state.gameIdHooked = false
  realGameId : state.realGameId = .uplayWw
  uiLanguage : state.uiLanguage = input.uiLanguage
  currentLanguage : state.currentLanguage = input.uiLanguage
  langIdxResolved : state.langIdxResolved = true ↔
    input.uiLanguage ≠ .none ∧ input.getLanguage = true
  uiLangResolved : state.uiLangResolved = true ↔
    input.uiLanguage ≠ .none ∧ input.getLangBranch = true
  holds : Holds input.uiLanguage state

theorem localised_initial (input : InstallInput) (menuBf audioBf langIdx uiLang : UInt32) :
    Localised input (localise input (initial menuBf audioBf langIdx uiLang)) := by
  unfold localise
  by_cases configured : input.uiLanguage = .none
  · constructor <;> simp [configured, initial, Holds]
  · simp only [configured, ne_eq, not_false_eq_true, if_true]
    cases index : input.getLanguage <;> cases branch : input.getLangBranch <;>
      cases loc : input.locInit <;> constructor <;>
      simp [installUiLanguage, index, branch, loc, initial, Holds, configured]

structure Unlocked (input : InstallInput) (before after : LanguageUnlock) : Prop where
  frame : after = { before with
    menuBf := after.menuBf
    audioBf := after.audioBf
    langBfHooked := after.langBfHooked
    gameIdHooked := after.gameIdHooked }
  langBfHooked : after.langBfHooked = true ↔
    input.isSteamBranch = true ∧ input.langBfHook = .created
  gameIdHooked : after.gameIdHooked = true ↔
    (input.isSteamBranch = true ∧ input.langBfHook = .created) ∧ input.nop = true ∧
      input.gameIdHook = .created
  menuBf : input.isSteamBranch = true → after.menuBf = kAllMenu

theorem installUnlock_unlocked (input : InstallInput) {state : LanguageUnlock}
    (noBf : state.langBfHooked = false) (noGuard : state.gameIdHooked = false) :
    Unlocked input state (installUnlock input state).2 := by
  unfold installUnlock
  cases steam : input.isSteamBranch with
  | false =>
      refine ⟨rfl, ?_, ?_, ?_⟩
      · simp [noBf, steam]
      · simp [noGuard, steam]
      · simp [steam]
  | true =>
      cases bf : input.langBfHook with
      | refused => constructor <;> simp [noBf, noGuard, steam, bf]
      | raised => constructor <;> simp [noBf, noGuard, steam, bf]
      | created =>
          cases nop : input.nop with
          | false => constructor <;> simp [noGuard, steam, bf, nop]
          | true =>
              cases guard : input.gameIdHook with
              | refused => constructor <;> simp [noGuard, steam, bf, nop, guard]
              | raised => constructor <;> simp [noGuard, steam, bf, nop, guard]
              | created =>
                  cases ret : input.ret <;> constructor <;> simp [steam, bf, nop, guard]

theorem install_unlocking {input : InstallInput} (unlockAll : input.unlockAll = true)
    (state : LanguageUnlock) :
    (install input state).2 = (installUnlock input (localise input state)).2 := by
  simp [install, unlockAll]

theorem install_localising {input : InstallInput} (unlockAll : input.unlockAll = false)
    (state : LanguageUnlock) : (install input state).2 = localise input state := by
  by_cases configured : input.uiLanguage = .none
  · simp [install, localise, unlockAll, configured]
  · simp [install, unlockAll, configured]

theorem install_spec (input : InstallInput) (menuBf audioBf langIdx uiLang : UInt32) :
    Installed input (install input (initial menuBf audioBf langIdx uiLang)).2 := by
  have localised := localised_initial input menuBf audioBf langIdx uiLang
  cases unlockAll : input.unlockAll with
  | false =>
      have never : ¬input.Unlocks := by simp [InstallInput.Unlocks, unlockAll]
      rw [install_localising unlockAll]
      constructor
      · simp [localised.unhooked.1, never]
      · simp [localised.unhooked.2, InstallInput.Guards, never]
      · exact fun unlocks => absurd unlocks never
      · exact localised.realGameId
      · exact localised.uiLanguage
      · exact localised.currentLanguage
      · exact localised.langIdxResolved
      · exact localised.uiLangResolved
      · exact localised.holds
  | true =>
      rw [install_unlocking unlockAll]
      have unlocked := installUnlock_unlocked input localised.unhooked.1 localised.unhooked.2
      generalize localise input (initial menuBf audioBf langIdx uiLang) = state at *
      generalize (installUnlock input state).2 = after at unlocked
      obtain ⟨frame, langBf, gameId, menu⟩ := unlocked
      constructor
      · simp [langBf, InstallInput.Unlocks, unlockAll]
      · simp [gameId, InstallInput.Guards, InstallInput.Unlocks, unlockAll]
      · exact fun unlocks => menu unlocks.2.1
      · rw [frame]
        exact localised.realGameId
      · rw [frame]
        exact localised.uiLanguage
      · rw [frame]
        exact localised.currentLanguage
      · rw [frame]
        exact localised.langIdxResolved
      · rw [frame]
        exact localised.uiLangResolved
      · rw [frame]
        exact localised.holds

end LanguageUnlock

end PatchFix.Rogue
