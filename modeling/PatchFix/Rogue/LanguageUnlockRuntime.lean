import PatchFix.Library.TransitionRun
import PatchFix.Rogue.LanguageUnlock

/-! The language the plugin has recorded against the one the game's globals hold. -/

namespace PatchFix.Rogue.LanguageUnlock

/-- A recorded language is the one the game has, through at least one resolved global. -/
def Agreement (state : LanguageUnlock) : Prop :=
  state.currentLanguage ≠ .none →
    (state.langIdxResolved = true ∨ state.uiLangResolved = true) ∧
      Holds state.currentLanguage state

theorem holds_unique {first second : Language} {state : LanguageUnlock}
    (resolved : state.langIdxResolved = true ∨ state.uiLangResolved = true)
    (left : Holds first state) (right : Holds second state) : first = second := by
  rw [← Language.toUnderlying_inj]
  rcases resolved with index | ui
  · rw [← left.1 index, ← right.1 index]
  · rw [← left.2 ui, ← right.2 ui]

def requested (language : Language) (events : List Event) : Language :=
  events.foldl (fun current event =>
    match event with
    | .reload newLang _ => if newLang = .none then current else newLang
    | _ => current) language

theorem onReload_current (newLang : Language) (locMgr : UInt64) (state : LanguageUnlock) :
    (onReload newLang locMgr state).currentLanguage =
      if newLang = .none then state.currentLanguage else newLang := by
  unfold onReload
  split
  · next same =>
      split
      · rfl
      · exact same.symm
  · split
    · rfl
    · rfl

theorem onReload_holds {newLang : Language} {locMgr : UInt64} {state : LanguageUnlock}
    (holds : Holds state.currentLanguage state) :
    Holds (onReload newLang locMgr state).currentLanguage (onReload newLang locMgr state) := by
  unfold onReload
  split
  · exact holds
  · split
    · exact holds
    · exact writeLanguage_holds newLang state

theorem langBitfieldPatch_holds (isSteam : Bool) {state : LanguageUnlock}
    (configured : state.uiLanguage ≠ .none) :
    Holds state.uiLanguage (langBitfieldPatch isSteam state) := by
  simp only [langBitfieldPatch, configured, ne_eq, not_false_eq_true, if_true]
  exact writeLanguage_holds state.uiLanguage _

theorem step_current (isSteam : Bool) (state : LanguageUnlock) (event : Event) :
    (step isSteam state event).currentLanguage = requested state.currentLanguage [event] := by
  cases event with
  | loaderWrite menuBf => rfl
  | setup =>
      simp only [step]
      split
      · exact (langBitfieldPatch_effect isSteam state).2.2
      · rfl
  | query regs => rfl
  | reload newLang locMgr => exact onReload_current newLang locMgr state

theorem run_current (isSteam : Bool) (state : LanguageUnlock) (events : List Event) :
    (events.foldl (step isSteam) state).currentLanguage =
      requested state.currentLanguage events := by
  induction events generalizing state with
  | nil => rfl
  | cons event events ih => rw [List.foldl_cons, ih, step_current]; rfl

theorem run_same (isSteam : Bool) (state : LanguageUnlock) (events : List Event) :
    SameInstall state (events.foldl (step isSteam) state) := by
  induction events generalizing state with
  | nil => exact SameInstall.refl state
  | cons event events ih => exact (step_same isSteam state event).trans (ih _)

theorem requested_ne_none {language : Language} (configured : language ≠ .none)
    (events : List Event) : requested language events ≠ .none := by
  unfold requested
  apply TransitionRun.foldl_invariant (fun language : Language => language ≠ .none) configured
  intro current held event _
  cases event with
  | reload newLang locMgr =>
      dsimp only
      split
      · exact held
      · next asked => exact asked
  | _ => exact held

def NoRequest (events : List Event) : Prop :=
  ∀ newLang locMgr, .reload newLang locMgr ∈ events → newLang = .none

theorem requested_none_iff (events : List Event) :
    requested .none events = .none ↔ NoRequest events := by
  induction events with
  | nil => simp [requested, NoRequest]
  | cons event events ih =>
      have later : requested .none (event :: events) =
          requested (requested .none [event]) events := rfl
      by_cases asks : ∃ newLang locMgr, event = .reload newLang locMgr ∧ newLang ≠ .none
      · obtain ⟨newLang, locMgr, rfl, asked⟩ := asks
        have taken : requested .none [.reload newLang locMgr] = newLang := if_neg asked
        rw [later, taken]
        refine iff_of_false (requested_ne_none asked events) fun none => ?_
        exact asked (none newLang locMgr List.mem_cons_self)
      · have silent : ∀ newLang locMgr, .reload newLang locMgr = event → newLang = .none := by
          intro newLang locMgr same
          by_contra asked
          exact asks ⟨newLang, locMgr, same.symm, asked⟩
        have kept : requested .none [event] = .none := by
          cases event with
          | reload newLang locMgr =>
              rw [silent newLang locMgr rfl]
              rfl
          | _ => rfl
        rw [later, kept, ih]
        simp only [NoRequest, List.mem_cons]
        constructor
        · rintro none newLang locMgr (first | member)
          · exact silent newLang locMgr first
          · exact none newLang locMgr member
        · exact fun none newLang locMgr member => none newLang locMgr (Or.inr member)

/-- Every `setup` comes while the language of the install is the one last asked for. -/
def SetupsKeepRequest (language : Language) (events : List Event) : Prop :=
  ∀ done rest, events = done ++ .setup :: rest → requested language done = language

section Runs

variable {isSteam : Bool} {input : InstallInput} {start : LanguageUnlock} {events : List Event}

theorem agreement_unconfigured (installed : Installed input start)
    (unconfigured : input.uiLanguage = .none) :
    (∀ state ∈ TransitionRun.states (step isSteam) start events, state.Agreement) ↔
      NoRequest events := by
  have noIdx : start.langIdxResolved = false := by
    simpa [unconfigured] using installed.langIdxResolved
  have noUi : start.uiLangResolved = false := by
    simpa [unconfigured] using installed.uiLangResolved
  have unrecorded : start.currentLanguage = .none := installed.currentLanguage.trans unconfigured
  have agrees : ∀ done, (done.foldl (step isSteam) start).Agreement ↔
      requested .none done = .none := by
    intro done
    have same := run_same isSteam start done
    have current := run_current isSteam start done
    rw [unrecorded] at current
    rw [Agreement, same.langIdxResolved, same.uiLangResolved, noIdx, noUi, current]
    simp
  rw [← requested_none_iff]
  constructor
  · intro all
    exact (agrees events).mp (all _ (TransitionRun.mem_states.mpr ⟨events, [], by simp, rfl⟩))
  · intro none state member
    obtain ⟨done, rest, rfl, rfl⟩ := TransitionRun.mem_states.mp member
    rw [agrees, requested_none_iff]
    have quiet := (requested_none_iff (done ++ rest)).mp none
    exact fun newLang locMgr inside => quiet newLang locMgr (List.mem_append_left rest inside)

def KeepsRequest (state : LanguageUnlock) (event : Event) : Prop :=
  event = .setup → state.langBfHooked = true → state.currentLanguage = state.uiLanguage

theorem step_agreement_iff {state : LanguageUnlock} (configured : state.uiLanguage ≠ .none)
    (resolved : state.langIdxResolved = true ∨ state.uiLangResolved = true)
    (recorded : state.currentLanguage ≠ .none) (agrees : state.Agreement) (event : Event) :
    (step isSteam state event).Agreement ↔ KeepsRequest state event := by
  have same := step_same isSteam state event
  cases event with
  | loaderWrite menuBf => exact iff_of_true agrees nofun
  | query regs => exact iff_of_true agrees nofun
  | reload newLang locMgr =>
      refine iff_of_true (fun _ => ⟨?_, onReload_holds (agrees recorded).2⟩) nofun
      rw [same.langIdxResolved, same.uiLangResolved]
      exact resolved
  | setup =>
      by_cases hooked : state.langBfHooked = true
      · have written := langBitfieldPatch_holds isSteam configured
        have current := (langBitfieldPatch_effect isSteam state).2.2
        simp only [step, hooked, if_true] at same ⊢
        rw [Agreement, same.langIdxResolved, same.uiLangResolved, current]
        constructor
        · intro agreement _ _
          obtain ⟨_, holds⟩ := agreement recorded
          rw [← same.langIdxResolved, ← same.uiLangResolved] at resolved
          exact holds_unique resolved holds written
        · intro kept _
          exact ⟨resolved, kept rfl hooked ▸ written⟩
      · simp only [step, hooked]
        exact iff_of_true agrees fun _ live => absurd live hooked

theorem agreement_configured (installed : Installed input start)
    (configured : input.uiLanguage ≠ .none) :
    (∀ state ∈ TransitionRun.states (step isSteam) start events, state.Agreement) ↔
      (input.getLanguage = true ∨ input.getLangBranch = true) ∧
        (input.Unlocks → SetupsKeepRequest input.uiLanguage events) := by
  have resolved : (start.langIdxResolved = true ∨ start.uiLangResolved = true) ↔
      input.getLanguage = true ∨ input.getLangBranch = true := by
    rw [installed.langIdxResolved, installed.uiLangResolved]
    simp [configured]
  have recorded : start.currentLanguage ≠ .none := installed.currentLanguage ▸ configured
  by_cases some : input.getLanguage = true ∨ input.getLangBranch = true
  · rw [and_iff_right some]
    refine (TransitionRun.forall_states_iff_allowed
      (fun state => SameInstall start state ∧ state.currentLanguage ≠ .none) KeepsRequest
      ⟨SameInstall.refl start, recorded⟩ ?_ ?_ ?_).trans ?_
    · exact fun _ => ⟨resolved.mpr some, installed.currentLanguage ▸ installed.holds⟩
    · rintro state event ⟨same, present⟩
      refine ⟨same.trans (step_same isSteam state event), ?_⟩
      rw [step_current]
      exact requested_ne_none present [event]
    · rintro state event ⟨same, present⟩ agrees
      refine step_agreement_iff ?_ ?_ present agrees event
      · rw [same.uiLanguage, installed.uiLanguage]
        exact configured
      · rw [same.langIdxResolved, same.uiLangResolved]
        exact resolved.mpr some
    · have hooked (done : List Event) :
          (done.foldl (step isSteam) start).langBfHooked = true ↔ input.Unlocks := by
        rw [(run_same isSteam start done).langBfHooked]
        exact installed.langBfHooked
      have kept (done : List Event) : (done.foldl (step isSteam) start).currentLanguage =
            (done.foldl (step isSteam) start).uiLanguage ↔
          requested input.uiLanguage done = input.uiLanguage := by
        rw [run_current, installed.currentLanguage, (run_same isSteam start done).uiLanguage,
          installed.uiLanguage]
      constructor
      · intro all unlocks done rest split
        exact (kept done).mp (all done .setup rest split rfl ((hooked done).mpr unlocks))
      · rintro keeps done event rest split rfl live
        exact (kept done).mpr (keeps ((hooked done).mp live) done rest split)
  · refine iff_of_false (fun all => some ?_) fun both => some both.1
    have first := all start (TransitionRun.mem_states.mpr ⟨[], events, rfl, rfl⟩)
    exact resolved.mp (first recorded).1

/-- Over every install and all events after it, a recorded language is the one in the game if and
only if no reload asks for a language that the install could not prepare and no live `setup` comes
while another language than the install's is the one last asked for. -/
theorem agreement_iff (isSteam : Bool) (input : InstallInput)
    (menuBf audioBf langIdx uiLang : UInt32) (events : List Event) :
    (∀ state ∈ TransitionRun.states (step isSteam)
        (install input (initial menuBf audioBf langIdx uiLang)).2 events, state.Agreement) ↔
      (input.uiLanguage = .none ∧ NoRequest events) ∨
        (input.uiLanguage ≠ .none ∧ (input.getLanguage = true ∨ input.getLangBranch = true) ∧
          (input.Unlocks → SetupsKeepRequest input.uiLanguage events)) := by
  have installed := install_spec input menuBf audioBf langIdx uiLang
  by_cases configured : input.uiLanguage = .none
  · rw [agreement_unconfigured installed configured]
    simp [configured]
  · rw [agreement_configured installed configured]
    simp [configured]

end Runs

def englishInput : InstallInput where
  unlockAll := true
  uiLanguage := .english
  getLanguage := true
  locInit := true
  getLangBranch := true
  reloadBranch := true
  isSteamBranch := true
  langBfHook := .created
  nop := true
  gameIdHook := .created
  ret := true

/-- A reload to German that a later `setup` reverts to English. -/
theorem setup_reverts_reload :
    ¬∀ state ∈ TransitionRun.states (step false) (install englishInput (initial 0 0 0 0)).2
        [.reload .german 0x3000000, .setup], state.Agreement := by
  intro claim
  have last := claim (step false (step false (install englishInput (initial 0 0 0 0)).2
    (.reload .german 0x3000000)) .setup) (by simp [TransitionRun.states])
  exact absurd ((last (by decide)).2.1 rfl) (by decide)

end PatchFix.Rogue.LanguageUnlock
