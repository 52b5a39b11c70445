import PatchFix.RegistryReload

/-!
The stores to the enabled flags that one reload makes, one after the other, and what a callback on
another thread can read between two of them.
-/

namespace PatchFix

open DependencyGraph Relation

variable {Pattern Value : Type} {hooks : HookList Pattern Value}

def Registry.store (registry : Registry hooks) (write : Fin hooks.count × Bool) :
    Registry hooks :=
  registry.setEnabled write.1 write.2

def HookList.loadStores (hooks : HookList Pattern Value) (ini : INIStructure) :
    List (Fin hooks.count × Bool) :=
  (List.finRange hooks.count).map fun index => (index, hooks.iniEnabled ini index)

def Registry.cascadeStores (registry : Registry hooks) : List (Fin hooks.count × Bool) :=
  let enabledFlags := cascadeDisable hooks.hardDeps fun index => (registry index).enabled
  (List.finRange hooks.count).map fun index => (index, enabledFlags index)

def Registry.enabledStores (registry : Registry hooks) (ini : INIStructure) :
    List (Fin hooks.count × Bool) :=
  hooks.loadStores ini ++
    Registry.cascadeStores ((hooks.loadStores ini).foldl Registry.store registry)

theorem applyEnabledFlags_stores (ini : INIStructure) (registry : Registry hooks) :
    registry.applyEnabledFlags ini =
      (registry.enabledStores ini).foldl Registry.store registry := by
  unfold Registry.applyEnabledFlags Registry.enabledStores Registry.cascadeStores
    HookList.loadStores
  rw [List.foldl_append, List.foldl_map, List.foldl_map]
  rfl

theorem loadStores_eq (ini : INIStructure) (registry : Registry hooks) :
    (hooks.loadStores ini).foldl Registry.store registry = fun index =>
      { registry index with enabled := hooks.iniEnabled ini index } := by
  rw [HookList.loadStores, List.foldl_map]
  exact foldl_update_each (fun index (state : HookState Value) =>
    { state with enabled := hooks.iniEnabled ini index }) registry

theorem mem_enabledStores {ini : INIStructure} {registry : Registry hooks}
    {write : Fin hooks.count × Bool} (member : write ∈ registry.enabledStores ini) :
    write.2 = hooks.iniEnabled ini write.1 ∨ (write.2 = true ↔ hooks.EnabledBy ini write.1) := by
  rcases List.mem_append.mp member with load | final
  · obtain ⟨index, _, rfl⟩ := List.mem_map.mp load
    exact Or.inl rfl
  · rw [loadStores_eq] at final
    obtain ⟨index, _, rfl⟩ := List.mem_map.mp final
    exact Or.inr (cascadeDisable_iff hooks.hardDeps _ index)

/-- The flags as a callback reads them at every point of a reload that repeats the one before. -/
def Registry.FlagsSteady (before : Registry hooks) (ini : INIStructure) : Prop :=
  let loaded := before.loadConfigs ini
  ∀ seen ∈ TransitionRun.states Registry.store loaded (loaded.enabledStores ini),
    ∀ index, (seen index).enabled = (before index).enabled

theorem loadConfigs_enabled (ini : INIStructure) (registry : Registry hooks)
    (index : Fin hooks.count) :
    (registry.loadConfigs ini index).enabled = (registry index).enabled := by
  rw [loadConfigs_eq]

/-- The flags that the load stores are those of the registry before it. -/
theorem FlagsSteady.closed {registry : Registry hooks} {ini : INIStructure}
    (steady : (registry.afterReload ini).FlagsSteady ini) {index dep : Fin hooks.count}
    (on : hooks.iniEnabled ini index = true) (needs : ReflTransGen hooks.HardDep index dep) :
    hooks.iniEnabled ini dep = true := by
  have flags := afterReload_enabled registry ini
  generalize registry.afterReload ini = before at flags steady
  have loaded := steady _ (TransitionRun.mem_states.mpr ⟨hooks.loadStores ini, _, rfl, rfl⟩) index
  simp only [loadStores_eq] at loaded
  exact (flags index).mp (loaded ▸ on) dep needs

theorem flagsSteady_iff (registry : Registry hooks) (ini : INIStructure) :
    (registry.afterReload ini).FlagsSteady ini ↔
      ∀ index dep, hooks.iniEnabled ini index = true → ReflTransGen hooks.HardDep index dep →
        hooks.iniEnabled ini dep = true := by
  constructor
  · exact fun steady _ _ => FlagsSteady.closed steady
  · intro closed
    have flags := afterReload_enabled registry ini
    generalize registry.afterReload ini = before at flags
    have published : ∀ index, hooks.iniEnabled ini index = (before index).enabled := by
      intro index
      rw [Bool.eq_iff_iff, flags]
      constructor
      · exact fun on dep => closed index dep on
      · exact Throughout.self
    apply TransitionRun.states_invariant fun (seen : Registry hooks) =>
      ∀ index, (seen index).enabled = (before index).enabled
    · exact loadConfigs_enabled ini before
    · intro seen same write member index
      unfold Registry.store Registry.setEnabled
      by_cases here : index = write.1
      · subst here
        rw [Function.update_self]
        rcases mem_enabledStores member with load | final
        · exact load.trans (published write.1)
        · rw [Bool.eq_iff_iff, flags]
          exact final
      · rw [Function.update_of_ne here]
        exact same index

def Rogue.gameStateOff : INIStructure where
  entriesOf := fun sec =>
    if sec = "Hooks".toList then
      some fun key => if key = "GameState".toList then some "false".toList else none
    else none

theorem flagsSteady_fails :
    ¬ (Rogue.faultyInstall.registry.afterReload Rogue.gameStateOff).FlagsSteady
        Rogue.gameStateOff := by
  intro steady
  have dependency : Rogue.bareHooks.HardDep Rogue.Hook.mouseSmoothingHook.index
      Rogue.Hook.gameStateHook.index := List.mem_singleton.mpr rfl
  exact absurd (FlagsSteady.closed steady (by decide) (ReflTransGen.single dependency)) (by decide)

end PatchFix
