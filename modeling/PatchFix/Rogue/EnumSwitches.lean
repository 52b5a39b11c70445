import PatchFix.ConfigStores
import PatchFix.Rogue.Configuration

/-! The callbacks of Rogue that switch over a configured enumeration. -/

namespace PatchFix.Rogue

def defaultAspectFloat : Binary32 := Binary32.ofRat (16 / 9)
def tripleScreenThreshold : Binary32 := Binary32.ofRat 4

/-! A callback is `none` where the source has `std::unreachable()`. -/

def applyHorPlus (currentAspect : Binary32) : EnumValue FovMode → Option Bool
  | .named .auto => some (currentAspect.lt defaultAspectFloat)
  | .named .vertPlus => some false
  | .named .horPlus => some true
  | .unnamed _ => none

def fovConfig (registry : Registry configuredHooks) : Option (EnumValue FovMode × Binary32) :=
  match (registry Hook.fovCorrectionHook.index).config with
  | [.fovMode mode, .number multiplier] => some (mode, multiplier)
  | _ => none

/-- The stored field of view; `correction` is the result of `compute_hor_plus_correction`. -/
def fovCorrectionFunctor (registry : Registry configuredHooks)
    (currentAspect correction xmm6 : Binary32) : Option Binary32 :=
  if !(registry Hook.fovCorrectionHook.index).enabled then some xmm6
  else do
    let (mode, multiplier) ← fovConfig registry
    let horPlus ← applyHorPlus currentAspect mode
    let fov := if horPlus then xmm6.mul correction else xmm6
    some (fov.mul multiplier)

structure DisplayRegisters where
  rdx : UInt64
  rsi : UInt64
  xmm0 : Binary32
  xmm1 : Binary32

structure DisplaySettings where
  width : Binary32
  height : Binary32

structure DisplayCallback where
  cachedWidth : Binary32
  cachedHeight : Binary32
  registers : DisplayRegisters

def multiMonitorFlag (display : DisplaySettings) : EnumValue MultiMonitor → Option UInt64
  | .named .forceSingle => some 0
  | .named .forceMulti => some 1
  | .named .auto =>
      if Binary32.lt 0 display.height &&
          tripleScreenThreshold.le (display.width.div display.height) then
        some 1
      else some 0
  | .unnamed _ => none

def multiMonitorConfig (registry : Registry configuredHooks) : Option (EnumValue MultiMonitor) :=
  match (registry Hook.displayDetectionHook.index).config with
  | [.multiMonitor mode] => some mode
  | _ => none

def displayFlagHook (registry : Registry configuredHooks) (display : DisplaySettings)
    (registers : DisplayRegisters) : Option DisplayCallback := do
  let rdx ←
    if !(registry Hook.displayDetectionHook.index).enabled then
      some (if registers.xmm1.lt registers.xmm0 then registers.rsi else registers.rdx)
    else do
      let mode ← multiMonitorConfig registry
      multiMonitorFlag display mode
  some
    { cachedWidth := display.width
      cachedHeight := display.height
      registers := { registers with rdx } }

def uiLanguage (registry : Registry configuredHooks) : Option (EnumValue Language) :=
  match (registry Hook.languageUnlockHook.index).config with
  | [.switch _, .language language] => some language
  | _ => none

structure EnumsDeclared (registry : Registry configuredHooks) : Prop where
  fovMode : ∃ mode multiplier, fovConfig registry = some (.named mode, multiplier)
  multiMonitor : ∃ mode, multiMonitorConfig registry = some (.named mode)
  uiLanguage : ∃ language, uiLanguage registry = some (.named language)
  fovCorrection : ∀ currentAspect correction xmm6,
    (fovCorrectionFunctor registry currentAspect correction xmm6).isSome = true
  displayFlag : ∀ display registers, (displayFlagHook registry display registers).isSome = true

theorem applyHorPlus_isSome (currentAspect : Binary32) (mode : FovMode) :
    (applyHorPlus currentAspect (.named mode)).isSome = true := by
  cases mode with
  | auto => rfl
  | vertPlus => rfl
  | horPlus => rfl

theorem multiMonitorFlag_isSome (display : DisplaySettings) (mode : MultiMonitor) :
    (multiMonitorFlag display (.named mode)).isSome = true := by
  cases mode with
  | auto =>
      rw [multiMonitorFlag]
      split
      · rfl
      · rfl
  | forceSingle => rfl
  | forceMulti => rfl

/-- A field of an enumeration never holds anything but its enumerators. -/
theorem iniField_canHold {Enum : Type} {enumeration : CountedEnum Enum}
    {setting : EnumValue Enum → Setting} {sec key : String} {default : Enum} {value : Setting}
    (holds : (iniField setting sec key (.named default) enumeration.parser).CanHold value) :
    ∃ declared, value = setting (.named declared) := by
  rcases holds with rfl | ⟨text, rfl⟩
  · exact ⟨default, rfl⟩
  · obtain ⟨declared, parsed⟩ := enumeration.parser_named text
    exact ⟨declared, congrArg setting parsed⟩

theorem iniField_canHold_setting {Value : Type} {setting : Value → Setting} {sec key : String}
    {default : Value} {parser : Text → Value} {value : Setting}
    (holds : (iniField setting sec key default parser).CanHold value) :
    ∃ held, value = setting held := by
  rcases holds with rfl | ⟨text, rfl⟩
  · exact ⟨default, rfl⟩
  · exact ⟨parser text, rfl⟩

section Reached

variable {registry : Registry configuredHooks} (reached : registry.Reached)

include reached

theorem fovConfig_named :
    ∃ mode multiplier, fovConfig registry = some (.named mode, multiplier) := by
  obtain ⟨first, others, firstHolds, othersHold, config⟩ :=
    List.forall₂_cons_left_iff.mp (reached.canHold Hook.fovCorrectionHook.index)
  obtain ⟨second, rest, secondHolds, restHold, rfl⟩ := List.forall₂_cons_left_iff.mp othersHold
  obtain rfl := List.forall₂_nil_left_iff.mp restHold
  obtain ⟨mode, rfl⟩ := iniField_canHold firstHolds
  obtain ⟨multiplier, rfl⟩ := iniField_canHold_setting secondHolds
  refine ⟨mode, multiplier, ?_⟩
  rw [fovConfig, config]

theorem multiMonitorConfig_named : ∃ mode, multiMonitorConfig registry = some (.named mode) := by
  obtain ⟨first, others, firstHolds, othersHold, config⟩ :=
    List.forall₂_cons_left_iff.mp (reached.canHold Hook.displayDetectionHook.index)
  obtain rfl := List.forall₂_nil_left_iff.mp othersHold
  obtain ⟨mode, rfl⟩ := iniField_canHold firstHolds
  refine ⟨mode, ?_⟩
  rw [multiMonitorConfig, config]

theorem uiLanguage_named : ∃ language, uiLanguage registry = some (.named language) := by
  obtain ⟨first, others, firstHolds, othersHold, config⟩ :=
    List.forall₂_cons_left_iff.mp (reached.canHold Hook.languageUnlockHook.index)
  obtain ⟨second, rest, secondHolds, restHold, rfl⟩ := List.forall₂_cons_left_iff.mp othersHold
  obtain rfl := List.forall₂_nil_left_iff.mp restHold
  obtain ⟨unlockAll, rfl⟩ := iniField_canHold_setting firstHolds
  obtain ⟨language, rfl⟩ := iniField_canHold secondHolds
  refine ⟨language, ?_⟩
  rw [uiLanguage, config]

theorem enumsDeclared : EnumsDeclared registry := by
  obtain ⟨fovMode, multiplier, fov⟩ := fovConfig_named reached
  obtain ⟨multiMonitor, monitors⟩ := multiMonitorConfig_named reached
  refine ⟨⟨fovMode, multiplier, fov⟩, ⟨multiMonitor, monitors⟩, uiLanguage_named reached, ?_, ?_⟩
  · intro currentAspect correction xmm6
    obtain ⟨horPlus, chosen⟩ :=
      Option.isSome_iff_exists.mp (applyHorPlus_isSome currentAspect fovMode)
    rw [fovCorrectionFunctor]
    split
    · rfl
    · simp [fov, chosen]
  · intro display registers
    obtain ⟨flag, chosen⟩ :=
      Option.isSome_iff_exists.mp (multiMonitorFlag_isSome display multiMonitor)
    rw [displayFlagHook]
    split
    · rfl
    · simp [monitors, chosen]

end Reached

theorem counted_enumerators :
    (∀ {Enum : Type} (count : Int32) (cast : Int → Enum) (table : List (Text × Enum))
      (fallback : Enum) (text : Text), CountedGrammar count cast table fallback text) ∧
    (∀ registry : Registry configuredHooks, registry.Reached → EnumsDeclared registry) ∧
    ∀ history : History configuredHooks, EnumsDeclared history.registry :=
  ⟨fun _ _ _ _ _ => countedGrammar, fun _ => enumsDeclared,
    fun history => enumsDeclared history.registry_reached⟩

theorem countedValue_declared :
    EnumsDeclared ((Registry.initial configuredHooks).afterReload
      ⟨fun _ => some fun _ => some "3".toList⟩) :=
  counted_enumerators.2.1 _ (Registry.Reached.initial.afterReload _)

end PatchFix.Rogue
