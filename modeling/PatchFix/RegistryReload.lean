import PatchFix.Library.TransitionRun
import PatchFix.RegistryInstall

/-! Runs of one `install_all` and any number of reloads. -/

namespace PatchFix

open DependencyGraph Relation

variable {Pattern Value : Type} {hooks : HookList Pattern Value}

def Registry.afterReload (registry : Registry hooks) (ini : INIStructure) : Registry hooks :=
  (registry.reload ini).registry

def ReloadResult.called (result : ReloadResult hooks) : List (Fin hooks.count) :=
  result.calls.map Prod.fst

@[simp] theorem afterReload_installed (registry : Registry hooks) (ini : INIStructure)
    (index : Fin hooks.count) :
    (registry.afterReload ini index).installed = (registry index).installed :=
  applyConfiguration_installed ini registry index

@[simp] theorem afterReload_enabled (registry : Registry hooks) (ini : INIStructure)
    (index : Fin hooks.count) :
    (registry.afterReload ini index).enabled = true ↔ hooks.EnabledBy ini index :=
  applyConfiguration_enabled ini registry index

theorem afterReloads_installed (registry : Registry hooks) (inis : List INIStructure)
    (index : Fin hooks.count) :
    (inis.foldl Registry.afterReload registry index).installed = (registry index).installed := by
  induction inis generalizing registry with
  | nil => rfl
  | cons ini inis ih => rw [List.foldl_cons, ih, afterReload_installed]

theorem reload_called (registry : Registry hooks) (ini : INIStructure) :
    (registry.reload ini).called = (List.finRange hooks.count).filter fun index =>
      (registry.afterReload ini index).installed && (registry.afterReload ini index).enabled &&
        (hooks.traits index).hasOnReload := by
  simp only [ReloadResult.called, Registry.reload, List.map_map, Function.comp_def, List.map_id']
  rfl

theorem mem_reload_called {registry : Registry hooks} {ini : INIStructure}
    {index : Fin hooks.count} :
    index ∈ (registry.reload ini).called ↔ (hooks.traits index).hasOnReload = true ∧
      (registry index).installed = true ∧ hooks.EnabledBy ini index := by
  simp only [reload_called, List.mem_filter, List.mem_finRange, true_and, Bool.and_eq_true,
    afterReload_installed, afterReload_enabled]
  exact and_comm

structure ReloadSpec (first before : Registry hooks) (ini : INIStructure) : Prop where
  installedKept : ∀ index, (before index).installed = (first index).installed
  depsInstalled : ∀ index dep, ReflTransGen hooks.HardDep index dep →
    (before index).installed = true → (before dep).installed = true
  called : ∀ index, index ∈ (before.reload ini).called ↔
    (hooks.traits index).hasOnReload = true ∧ (before index).installed = true ∧
      Throughout hooks.HardDep (fun dep => hooks.iniEnabled ini dep = true) index
  calledOnce : (before.reload ini).called.Nodup
  calledOverDeps : ∀ index ∈ (before.reload ini).called, ∀ dep,
    ReflTransGen hooks.HardDep index dep →
      (before dep).installed = true ∧ hooks.iniEnabled ini dep = true ∧
        (before.afterReload ini dep).enabled = true

section Runs

variable (addrs : Pattern → Option UInt64) (outcome : Fin hooks.count → InstallOutcome)
variable (ini : INIStructure) (journal : Journal) {order : List (Fin hooks.count)} {sorted : Nat}

theorem reload_correct (acyclic : Acyclic (AnyDep hooks.hardDeps hooks.softDeps))
    (completed : hooks.sortedResult = some (order, sorted)) (earlier : List INIStructure)
    (latest : INIStructure) :
    ReloadSpec ((Registry.initial hooks).installAll order addrs outcome ini journal).registry
      (earlier.foldl Registry.afterReload
        ((Registry.initial hooks).installAll order addrs outcome ini journal).registry) latest := by
  have isSorted := HookList.sorted_of_acyclic acyclic completed
  have installed := installAll_installed addrs outcome ini journal isSorted
  generalize ((Registry.initial hooks).installAll order addrs outcome ini journal).registry = first
    at installed
  have kept := afterReloads_installed first earlier
  generalize earlier.foldl Registry.afterReload first = before at kept
  have depsInstalled : ∀ index dep, ReflTransGen hooks.HardDep index dep →
      (before index).installed = true → (before dep).installed = true := by
    intro index dep path on
    rw [kept, installed] at on ⊢
    exact Throughout.reached on path
  refine ⟨kept, depsInstalled, fun index => mem_reload_called, ?_, ?_⟩
  · rw [reload_called]
    exact (List.nodup_finRange _).filter _
  · intro index member dep path
    obtain ⟨_, on, all⟩ := mem_reload_called.mp member
    exact ⟨depsInstalled index dep path on, all dep path,
      (afterReload_enabled before latest dep).mpr (all.reached path)⟩

theorem reload_correct_rogue :
    ReloadSpec Rogue.faultyInstall.registry
      (List.foldl Registry.afterReload Rogue.faultyInstall.registry [INIStructure.empty])
      INIStructure.empty :=
  reload_correct _ _ _ _ (HookList.sorted_of_count (Rogue.allHooks_sorted _)).acyclic
    (Rogue.allHooks_sorted _) _ _

/-- A hook reads as enabled without being installed exactly when the INI of some reload leaves
enabled a hook that `install_all` did not install. -/
theorem enabled_installed_iff (acyclic : Acyclic (AnyDep hooks.hardDeps hooks.softDeps))
    (completed : hooks.sortedResult = some (order, sorted)) (reloads : List INIStructure) :
    (∀ registry ∈ TransitionRun.states Registry.afterReload
        ((Registry.initial hooks).installAll order addrs outcome ini journal).registry reloads,
      ∀ index, (registry index).enabled = true → (registry index).installed = true) ↔
    ∀ latest ∈ reloads, ∀ index,
      Throughout hooks.HardDep (fun dep => hooks.iniEnabled latest dep = true) index →
        Throughout hooks.HardDep (fun dep => hooks.iniEnabled ini dep = true ∧
          hooks.checkRequired addrs dep = true ∧ outcome dep = .succeeded) index := by
  have isSorted := HookList.sorted_of_acyclic acyclic completed
  have installed := installAll_installed addrs outcome ini journal isSorted
  have synced := installAll_synced addrs outcome ini journal isSorted
  generalize ((Registry.initial hooks).installAll order addrs outcome ini journal).registry = first
    at installed synced
  rw [TransitionRun.forall_states_iff]
  constructor
  · rintro ⟨_, later⟩ latest member index enabled
    obtain ⟨done, rest, split⟩ := List.append_of_mem member
    have implied := later done latest rest split index
      ((afterReload_enabled _ latest index).mpr enabled)
    rw [afterReload_installed, afterReloads_installed] at implied
    exact (installed index).mp implied
  · intro covered
    refine ⟨fun index enabled => synced index ▸ enabled, ?_⟩
    intro done latest rest split index enabled
    rw [afterReload_installed, afterReloads_installed, installed]
    exact covered latest (by simp [split]) index ((afterReload_enabled _ latest index).mp enabled)

end Runs

theorem enabled_installed_iff_rogue :
    (∀ registry ∈ TransitionRun.states Registry.afterReload Rogue.faultyInstall.registry
        [INIStructure.empty],
      ∀ index, (registry index).enabled = true → (registry index).installed = true) ↔
    ∀ latest ∈ [INIStructure.empty], ∀ index,
      Throughout Rogue.bareHooks.HardDep (fun dep => Rogue.bareHooks.iniEnabled latest dep = true)
        index →
      Throughout Rogue.bareHooks.HardDep (fun dep =>
        Rogue.bareHooks.iniEnabled INIStructure.empty dep = true ∧
          Rogue.bareHooks.checkRequired (fun _ => some 0) dep = true ∧
          Rogue.viewportFittingFaults dep = .succeeded) index :=
  enabled_installed_iff _ _ _ _ (HookList.sorted_of_count (Rogue.allHooks_sorted _)).acyclic
    (Rogue.allHooks_sorted _) _

/-- `ViewportFitting` faults while it installs; a reload of an empty INI enables it again. -/
theorem viewportFitting_enabled_not_installed :
    ¬∀ registry ∈ TransitionRun.states Registry.afterReload Rogue.faultyInstall.registry
        [INIStructure.empty],
      ∀ index, (registry index).enabled = true → (registry index).installed = true := by
  intro claimed
  have stuck := claimed _ (TransitionRun.mem_states.mpr ⟨[INIStructure.empty], [], rfl, rfl⟩)
    (2 : Fin 11) rfl
  exact absurd stuck (by decide)

end PatchFix
