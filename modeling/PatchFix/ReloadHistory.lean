import PatchFix.RegistryReload

/-!
What a reload leaves does not depend on the history before it. `load_all` is modelled here store by
store, over whatever values the fields hold.
-/

namespace PatchFix

open Relation

variable {Pattern Value : Type} {hooks : HookList Pattern Value}

def loadAll (ini : INIStructure) (fields : List (IniField Value)) (config : List Value) :
    List Value :=
  fields.zipIdx.foldl (fun config entry => config.set entry.2 (entry.1.loadFrom ini)) config

theorem loadAll_append (ini : INIStructure) (fields : List (IniField Value))
    (stored remaining : List Value) (fits : remaining.length = fields.length) :
    (fields.zipIdx stored.length).foldl
        (fun config entry => config.set entry.2 (entry.1.loadFrom ini)) (stored ++ remaining) =
      stored ++ fields.map (IniField.loadFrom ini) := by
  induction fields generalizing stored remaining with
  | nil => simpa using fits
  | cons field fields ih =>
      obtain ⟨previous, remaining, rfl⟩ :=
        List.exists_cons_of_length_eq_add_one (by simpa using fits)
      have next := ih (stored ++ [field.loadFrom ini]) remaining (by simpa using fits)
      simpa [List.set_append] using next

theorem loadAll_eq (ini : INIStructure) {fields : List (IniField Value)} {config : List Value}
    (fits : config.length = fields.length) :
    loadAll ini fields config = fields.map (IniField.loadFrom ini) :=
  loadAll_append ini fields [] config fits

def Registry.Shaped (registry : Registry hooks) : Prop :=
  ∀ index, (registry index).config.length = (hooks.traits index).fields.length

@[simp] theorem afterReload_config (registry : Registry hooks) (ini : INIStructure)
    (index : Fin hooks.count) :
    (registry.afterReload ini index).config =
      (hooks.traits index).fields.map (IniField.loadFrom ini) := by
  simp only [Registry.afterReload, Registry.reload, applyEnabledFlags_eq, loadConfigs_eq]

theorem afterReload_shaped (registry : Registry hooks) (ini : INIStructure) :
    (registry.afterReload ini).Shaped := by
  intro index
  rw [afterReload_config, List.length_map]

theorem setEnabled_config (registry : Registry hooks) (index other : Fin hooks.count)
    (value : Bool) :
    (registry.setEnabled index value other).config = (registry other).config := by
  by_cases same : other = index
  · simp [Registry.setEnabled, same]
  · simp [Registry.setEnabled, same]

theorem setInstalled_config (registry : Registry hooks) (index other : Fin hooks.count)
    (value : Bool) :
    (registry.setInstalled index value other).config = (registry other).config := by
  by_cases same : other = index
  · simp [Registry.setInstalled, same]
  · simp [Registry.setInstalled, same]

theorem turn_config (addrs : Pattern → Option UInt64) (outcome : Fin hooks.count → InstallOutcome)
    (run : InstallRun hooks) (index other : Fin hooks.count) :
    ((run.turn addrs outcome index).registry other).config = (run.registry other).config := by
  have turned : InstallRun.Turned addrs outcome run index (run.turn addrs outcome index) :=
    InstallRun.turn_cases run index
  generalize run.turn addrs outcome index = after at turned
  cases turned with
  | skipped _ => exact setEnabled_config run.registry index other false
  | failed _ _ => exact setEnabled_config run.registry index other false
  | installed _ _ => exact setInstalled_config run.registry index other true

structure History (hooks : HookList Pattern Value) where
  order : List (Fin hooks.count)
  addrs : Pattern → Option UInt64
  outcome : Fin hooks.count → InstallOutcome
  installIni : INIStructure
  journal : Journal
  reloads : List INIStructure

namespace History

def install (history : History hooks) : InstallRun hooks :=
  (Registry.initial hooks).installAll history.order history.addrs history.outcome
    history.installIni history.journal

def registry (history : History hooks) : Registry hooks :=
  history.reloads.foldl Registry.afterReload history.install.registry

theorem install_shaped (history : History hooks) : history.install.registry.Shaped := by
  apply TransitionRun.foldl_invariant fun run : InstallRun hooks => run.registry.Shaped
  · exact afterReload_shaped (Registry.initial hooks) history.installIni
  · intro run shaped index _ other
    rw [turn_config]
    exact shaped other

theorem registry_shaped (history : History hooks) : history.registry.Shaped := by
  apply TransitionRun.foldl_invariant Registry.Shaped history.install_shaped
  intro registry _ ini _
  exact afterReload_shaped registry ini

/-- The last reload stores over the values that the history left. -/
theorem afterReload_stores (history : History hooks) (latest : INIStructure)
    (index : Fin hooks.count) :
    (history.registry.afterReload latest index).config =
      loadAll latest (hooks.traits index).fields (history.registry index).config := by
  rw [loadAll_eq latest (history.registry_shaped index), afterReload_config]

end History

structure IniField.ReadFrom (ini : INIStructure) (field : IniField Value) (value : Value) :
    Prop where
  parsed : ∀ text, ini.find field.sec field.key = some text → value = field.parser text
  restored : ini.find field.sec field.key = none → value = field.defaultValue

theorem IniField.loadFrom_readFrom (ini : INIStructure) (field : IniField Value) :
    field.ReadFrom ini (field.loadFrom ini) where
  parsed := fun text present => by rw [loadFrom, present]
  restored := fun absent => by rw [loadFrom, absent]

structure DeterminedBy (latest : INIStructure) (registry : Registry hooks) : Prop where
  configs : ∀ index,
    List.Forall₂ (IniField.ReadFrom latest) (hooks.traits index).fields (registry index).config
  enabled : ∀ index, (registry index).enabled = true ↔
    ∀ dep, ReflTransGen hooks.HardDep index dep → hooks.iniEnabled latest dep = true

theorem afterReload_determinedBy (registry : Registry hooks) (latest : INIStructure) :
    DeterminedBy latest (registry.afterReload latest) where
  configs := fun index => by
    rw [afterReload_config, List.forall₂_map_right_iff, List.forall₂_same]
    exact fun field _ => field.loadFrom_readFrom latest
  enabled := afterReload_enabled registry latest

structure HistoryIndependent (latest : INIStructure) (first second : Registry hooks) : Prop where
  firstDetermined : DeterminedBy latest first
  secondDetermined : DeterminedBy latest second
  configs : ∀ index, (first index).config = (second index).config
  enabled : ∀ index, (first index).enabled = (second index).enabled

theorem reload_historyIndependent (first second : History hooks) (latest : INIStructure) :
    HistoryIndependent latest (first.registry.afterReload latest)
      (second.registry.afterReload latest) where
  firstDetermined := afterReload_determinedBy first.registry latest
  secondDetermined := afterReload_determinedBy second.registry latest
  configs := fun index => by rw [afterReload_config, afterReload_config]
  enabled := fun index => by rw [Bool.eq_iff_iff, afterReload_enabled, afterReload_enabled]

end PatchFix
