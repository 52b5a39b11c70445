import Mathlib.Data.Fintype.Basic
import Mathlib.Logic.Function.Basic
import PatchFix.HookList
import PatchFix.TopoSort

/-!
`Registry`: the enabled and installed flags of every hook, `install_all` and `reload`. Installs
and reload callbacks are opaque; their outcomes are inputs.
-/

namespace PatchFix

/-! The cascade over an array of flags and the hard dependencies of each entry. -/

section Cascade

variable {count : Nat}

def cascadeEntry (hardDeps : Fin count → List (Fin count)) (state : (Fin count → Bool) × Bool)
    (index : Fin count) : (Fin count → Bool) × Bool :=
  if state.1 index && (hardDeps index).any fun dep => !state.1 dep then
    (Function.update state.1 index false, true)
  else state

def cascadePass (hardDeps : Fin count → List (Fin count)) (enabled : Fin count → Bool) :
    (Fin count → Bool) × Bool :=
  (List.finRange count).foldl (cascadeEntry hardDeps) (enabled, false)

def cascadeLoop (hardDeps : Fin count → List (Fin count)) :
    Nat → (Fin count → Bool) → Option (Fin count → Bool)
  | 0, _ => none
  | fuel + 1, enabled =>
      let (enabled', changed) := cascadePass hardDeps enabled
      if changed then cascadeLoop hardDeps fuel enabled' else some enabled'

/-- `cascade_disable`; `cascadeLoop_terminates` shows that the fuel is enough. -/
def cascadeDisable (hardDeps : Fin count → List (Fin count)) (enabled : Fin count → Bool) :
    Fin count → Bool :=
  (cascadeLoop hardDeps (count + 1) enabled).getD enabled

end Cascade

structure HookState (Value : Type) where
  config : List Value
  enabled : Bool
  installed : Bool

inductive InstallOutcome where
  | succeeded
  | failed
  | faulted
  deriving DecidableEq, Repr

def guardedInstall : InstallOutcome → Bool
  | .succeeded => true
  | .failed => false
  | .faulted => false

/-- What can be seen of one iteration of the install loop: the call of `install`, its success, and
the end of the iteration. -/
inductive InstallEvent (count : Nat) where
  | attempt (index : Fin count)
  | installed (index : Fin count)
  | turn (index : Fin count)
  deriving DecidableEq, Repr

variable {Pattern Value : Type} {hooks : HookList Pattern Value}

abbrev Registry (hooks : HookList Pattern Value) := Fin hooks.count → HookState Value

namespace Registry

def initial (hooks : HookList Pattern Value) : Registry hooks := fun index =>
  { config := (hooks.traits index).fields.map IniField.defaultValue
    enabled := true
    installed := false }

def setEnabled (registry : Registry hooks) (index : Fin hooks.count) (value : Bool) :
    Registry hooks :=
  Function.update registry index { registry index with enabled := value }

def setInstalled (registry : Registry hooks) (index : Fin hooks.count) (value : Bool) :
    Registry hooks :=
  Function.update registry index { registry index with installed := value }

def loadConfig (ini : INIStructure) (registry : Registry hooks) (index : Fin hooks.count) :
    Registry hooks :=
  Function.update registry index
    { registry index with config := (hooks.traits index).fields.map (IniField.loadFrom ini) }

def loadConfigs (ini : INIStructure) (registry : Registry hooks) : Registry hooks :=
  (List.finRange hooks.count).foldl (loadConfig ini) registry

def loadEnabled (ini : INIStructure) (registry : Registry hooks) (index : Fin hooks.count) :
    Registry hooks :=
  registry.setEnabled index (hooks.iniEnabled ini index)

def applyEnabledFlags (ini : INIStructure) (registry : Registry hooks) : Registry hooks :=
  let registry := (List.finRange hooks.count).foldl (loadEnabled ini) registry
  let enabledFlags := cascadeDisable hooks.hardDeps fun index => (registry index).enabled
  (List.finRange hooks.count).foldl
    (fun registry index => registry.setEnabled index (enabledFlags index)) registry

def firstUnmetHardDep (registry : Registry hooks) (index : Fin hooks.count) :
    Option (Fin hooks.count) :=
  (hooks.hardDeps index).find? fun dep => !(registry dep).installed

end Registry

/-- `sorted_result`: the order and the number of hooks in it, when the constant evaluation
completes. -/
def HookList.sortedResult (hooks : HookList Pattern Value) :
    Option (List (Fin hooks.count) × Nat) :=
  topoSort hooks.hardDeps hooks.softDeps

def HookList.checkRequired (hooks : HookList Pattern Value) (addrs : Pattern → Option UInt64)
    (index : Fin hooks.count) : Bool :=
  (hooks.traits index).requiredPatterns.all fun pattern => (addrs pattern).isSome

structure InstallRun (hooks : HookList Pattern Value) where
  registry : Registry hooks
  journal : Journal
  trace : List (InstallEvent hooks.count)

def InstallRun.log (run : InstallRun hooks) (event : InstallEvent hooks.count) :
    InstallRun hooks :=
  { run with trace := run.trace ++ [event] }

def InstallRun.disable (run : InstallRun hooks) (index : Fin hooks.count) : InstallRun hooks :=
  { run with registry := run.registry.setEnabled index false }

def InstallRun.install (outcome : Fin hooks.count → InstallOutcome) (run : InstallRun hooks)
    (index : Fin hooks.count) : InstallRun hooks :=
  let run := run.log (.attempt index)
  if guardedInstall (outcome index) then
    InstallRun.log
      { run with
        registry := run.registry.setInstalled index true
        journal := run.journal.writeHookInstalled (hooks.traits index).name }
      (.installed index)
  else run.disable index

def InstallRun.turn (addrs : Pattern → Option UInt64) (outcome : Fin hooks.count → InstallOutcome)
    (run : InstallRun hooks) (index : Fin hooks.count) : InstallRun hooks :=
  if !(run.registry index).enabled then run.log (.turn index)
  else if (run.registry.firstUnmetHardDep index).isSome then
    (run.disable index).log (.turn index)
  else if !hooks.checkRequired addrs index then (run.disable index).log (.turn index)
  else (run.install outcome index).log (.turn index)

def Registry.installAll (registry : Registry hooks) (installOrder : List (Fin hooks.count))
    (addrs : Pattern → Option UInt64) (outcome : Fin hooks.count → InstallOutcome)
    (ini : INIStructure) (journal : Journal) : InstallRun hooks :=
  installOrder.foldl (InstallRun.turn addrs outcome)
    { registry := (registry.loadConfigs ini).applyEnabledFlags ini, journal, trace := [] }

structure ReloadResult (hooks : HookList Pattern Value) where
  registry : Registry hooks
  calls : List (Fin hooks.count × List Value)

/-- `reload` with the `on_reload` calls it makes and the configuration each one receives. -/
def Registry.reload (registry : Registry hooks) (ini : INIStructure) : ReloadResult hooks :=
  let registry := (registry.loadConfigs ini).applyEnabledFlags ini
  let called := (List.finRange hooks.count).filter fun index =>
    (registry index).installed && (registry index).enabled && (hooks.traits index).hasOnReload
  { registry, calls := called.map fun index => (index, (registry index).config) }

end PatchFix
