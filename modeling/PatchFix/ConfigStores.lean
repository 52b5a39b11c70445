import PatchFix.ReloadHistory

/-!
The configuration fields as they are stored one at a time: what a callback can read from them while
`install_all` or a reload is under way.
-/

namespace PatchFix

variable {Pattern Value : Type} {hooks : HookList Pattern Value}

def Registry.setConfig (registry : Registry hooks) (index : Fin hooks.count)
    (config : List Value) : Registry hooks :=
  Function.update registry index { registry index with config }

def Registry.storeField (registry : Registry hooks) (index : Fin hooks.count) (position : Nat)
    (value : Value) : Registry hooks :=
  registry.setConfig index ((registry index).config.set position value)

/-- The registries that stores of single fields, from any INI files, and of flags lead to. -/
inductive Registry.Reached : Registry hooks → Prop
  | initial : Reached (Registry.initial hooks)
  | stored {registry : Registry hooks} {index : Fin hooks.count} {position : Nat}
      {field : IniField Value} (ini : INIStructure) : Reached registry →
      (hooks.traits index).fields[position]? = some field →
      Reached (registry.storeField index position (field.loadFrom ini))
  | flagged {registry after : Registry hooks} : Reached registry →
      (∀ index, (after index).config = (registry index).config) → Reached after

def IniField.CanHold (field : IniField Value) (value : Value) : Prop :=
  value = field.defaultValue ∨ ∃ text, value = field.parser text

theorem IniField.loadFrom_canHold (ini : INIStructure) (field : IniField Value) :
    field.CanHold (field.loadFrom ini) := by
  unfold IniField.loadFrom
  cases ini.find field.sec field.key with
  | none => exact Or.inl rfl
  | some text => exact Or.inr ⟨text, rfl⟩

namespace Registry

theorem forall₂_set {fields : List (IniField Value)} {config : List Value} {position : Nat}
    {field : IniField Value} {value : Value} (holds : List.Forall₂ IniField.CanHold fields config)
    (found : fields[position]? = some field) (canHold : field.CanHold value) :
    List.Forall₂ IniField.CanHold fields (config.set position value) := by
  induction holds generalizing position with
  | nil => simp at found
  | cons head tail ih =>
      cases position with
      | zero =>
          obtain rfl := Option.some.inj found
          exact .cons canHold tail
      | succ position => exact .cons head (ih found)

theorem Reached.canHold {registry : Registry hooks} (reached : registry.Reached)
    (index : Fin hooks.count) :
    List.Forall₂ IniField.CanHold (hooks.traits index).fields (registry index).config := by
  induction reached with
  | initial =>
      rw [Registry.initial, List.forall₂_map_right_iff, List.forall₂_same]
      exact fun field _ => Or.inl rfl
  | @stored registry stored position field ini _ found ih =>
      unfold storeField setConfig
      by_cases same : index = stored
      · subst same
        rw [Function.update_self]
        exact forall₂_set ih found (field.loadFrom_canHold ini)
      · rw [Function.update_of_ne same]
        exact ih
  | flagged _ same ih =>
      rw [same]
      exact ih

/-! Every registry of a history is one of these. -/

theorem Reached.loadConfig {registry : Registry hooks} (reached : registry.Reached)
    (ini : INIStructure) (index : Fin hooks.count) : (registry.loadConfig ini index).Reached := by
  have fits := (reached.canHold index).length_eq.symm
  have stores : (registry.setConfig index
      (loadAll ini (hooks.traits index).fields (registry index).config)).Reached := by
    apply TransitionRun.foldl_invariant fun config => (registry.setConfig index config).Reached
    · simpa [setConfig] using reached
    · intro config stored entry member
      have next := Reached.stored ini stored (List.mem_zipIdx_iff_getElem?.mp member)
      simpa [storeField, setConfig] using next
  rwa [loadAll_eq ini fits] at stores

theorem Reached.loadConfigs {registry : Registry hooks} (reached : registry.Reached)
    (ini : INIStructure) : (registry.loadConfigs ini).Reached :=
  TransitionRun.foldl_invariant Registry.Reached reached
    fun _ reached index _ => reached.loadConfig ini index

theorem Reached.afterReload {registry : Registry hooks} (reached : registry.Reached)
    (ini : INIStructure) : (registry.afterReload ini).Reached :=
  (reached.loadConfigs ini).flagged fun index => by
    rw [Registry.afterReload, Registry.reload, applyEnabledFlags_eq]

end Registry

namespace History

theorem install_reached (history : History hooks) : history.install.registry.Reached := by
  apply TransitionRun.foldl_invariant fun run : InstallRun hooks => run.registry.Reached
  · exact Registry.Reached.initial.afterReload history.installIni
  · exact fun run reached index _ =>
      reached.flagged (turn_config history.addrs history.outcome run index)

theorem registry_reached (history : History hooks) : history.registry.Reached :=
  TransitionRun.foldl_invariant Registry.Reached history.install_reached
    fun _ reached ini _ => reached.afterReload ini

end History

end PatchFix
