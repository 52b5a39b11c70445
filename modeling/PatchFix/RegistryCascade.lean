import Mathlib.Order.Bounds.Defs
import PatchFix.Registry

/-! The cascade keeps the greatest enabled set closed under hard dependencies, so the flags that
`apply_enabled_flags` stores are a function of the INI file. -/

namespace PatchFix

open DependencyGraph

section Cascade

variable {count : Nat} (hardDeps : Fin count → List (Fin count))

def ClosedFlags (enabled : Fin count → Bool) : Prop :=
  ∀ index, enabled index = true → ∀ dep ∈ hardDeps index, enabled dep = true

structure PassInvariant (start : Fin count → Bool)
    (done : List (Fin count)) (state : (Fin count → Bool) × Bool) : Prop where
  shrinks : ∀ index, state.1 index = true → start index = true
  keeps : ∀ kept : Fin count → Bool, ClosedFlags hardDeps kept →
    (∀ index, kept index = true → start index = true) →
      ∀ index, kept index = true → state.1 index = true
  unchanged : state.2 = false → state.1 = start ∧
    ∀ index ∈ done, start index = true → ∀ dep ∈ hardDeps index, start dep = true
  changed : state.2 = true → ∃ index, start index = true ∧ state.1 index = false

variable {hardDeps} in
theorem PassInvariant.entry {start : Fin count → Bool} {done : List (Fin count)}
    {state : (Fin count → Bool) × Bool} (invariant : PassInvariant hardDeps start done state)
    (index : Fin count) :
    PassInvariant hardDeps start (done ++ [index]) (cascadeEntry hardDeps state index) := by
  unfold cascadeEntry
  split
  next drops =>
    simp only [Bool.and_eq_true, List.any_eq_true, Bool.not_eq_true'] at drops
    obtain ⟨here, dep, edge, off⟩ := drops
    constructor
    · intro other on
      by_cases same : other = index
      · simp [same] at on
      · exact invariant.shrinks other (by simpa [same] using on)
    · intro kept closed below other on
      have onBefore := invariant.keeps kept closed below
      have different : other ≠ index := by
        rintro rfl
        have depOn := onBefore dep (closed other on dep edge)
        simp [off] at depOn
      simpa [different] using onBefore other on
    · intro impossible
      simp at impossible
    · intro _
      exact ⟨index, invariant.shrinks index here, by simp⟩
  next stays =>
    refine ⟨invariant.shrinks, invariant.keeps, ?_, invariant.changed⟩
    intro quiet
    obtain ⟨same, closed⟩ := invariant.unchanged quiet
    refine ⟨same, ?_⟩
    intro other member on dep edge
    rcases List.mem_append.mp member with earlier | current
    · exact closed other earlier on dep edge
    · obtain rfl := List.mem_singleton.mp current
      rw [same] at stays
      simp only [on, Bool.true_and, List.any_eq_true, Bool.not_eq_true', not_exists, not_and,
        Bool.not_eq_false] at stays
      exact stays dep edge

theorem cascadePass_spec (start : Fin count → Bool) :
    PassInvariant hardDeps start (List.finRange count) (cascadePass hardDeps start) := by
  apply PartialFold.foldl_invariant (PassInvariant hardDeps start)
  · exact ⟨fun _ on => on, fun _ _ below => below, fun _ => ⟨rfl, by simp⟩, by simp⟩
  · intro done index rest state _ invariant
    exact invariant.entry index

def enabledCount (enabled : Fin count → Bool) : Nat :=
  (Finset.univ.filter fun index => enabled index = true).card

theorem cascadePass_decreases (start : Fin count → Bool)
    (changed : (cascadePass hardDeps start).2 = true) :
    enabledCount (cascadePass hardDeps start).1 < enabledCount start := by
  have spec := cascadePass_spec hardDeps start
  obtain ⟨index, before, after⟩ := spec.changed changed
  apply Finset.card_lt_card
  constructor
  · intro other member
    simpa using spec.shrinks other (by simpa using member)
  · intro subset
    have on := subset (show index ∈ Finset.univ.filter fun index => start index = true by
      simpa using before)
    simp [after] at on

/-- The loop ends after at most one round more than there are enabled flags, in the greatest
closed set of flags below the ones it started with. -/
theorem cascadeLoop_terminates {fuel : Nat} {start : Fin count → Bool}
    (enough : enabledCount start < fuel) :
    ∃ finish, cascadeLoop hardDeps fuel start = some finish ∧
      ∀ index, finish index = true ↔
        Throughout (fun index dep => dep ∈ hardDeps index) (fun index => start index = true)
          index := by
  induction fuel generalizing start with
  | zero => omega
  | succ fuel ih =>
      have spec := cascadePass_spec hardDeps start
      simp only [cascadeLoop]
      by_cases changed : (cascadePass hardDeps start).2 = true
      · have decreases := cascadePass_decreases hardDeps start changed
        obtain ⟨finish, looped, closedForm⟩ :=
          ih (show enabledCount (cascadePass hardDeps start).1 < fuel by omega)
        refine ⟨finish, by simpa [changed] using looped, fun index => ?_⟩
        rw [closedForm]
        constructor
        · intro all
          exact all.mono spec.shrinks
        · intro all
          classical
          have kept := spec.keeps (fun index => decide (Throughout (fun index dep =>
              dep ∈ hardDeps index) (fun index => start index = true) index))
            (fun index on dep edge => by
              simp only [decide_eq_true_eq] at on ⊢
              exact (throughout_iff.mp on).2 dep edge)
            (fun index on => (of_decide_eq_true on).self)
          exact fun target path => kept target (decide_eq_true (all.reached path))
      · simp only [Bool.not_eq_true] at changed
        obtain ⟨same, closed⟩ := spec.unchanged changed
        refine ⟨(cascadePass hardDeps start).1, by simp [changed], fun index => ?_⟩
        rw [same]
        constructor
        · exact throughout_of_closed (fun _ on => on)
            fun vertex target on edge => closed vertex (List.mem_finRange _) on target edge
        · exact Throughout.self

theorem enabledCount_le (start : Fin count → Bool) : enabledCount start ≤ count := by
  have card := Finset.card_filter_le Finset.univ fun index : Fin count => start index = true
  rwa [Finset.card_univ, Fintype.card_fin] at card

theorem cascadeDisable_iff (start : Fin count → Bool) (index : Fin count) :
    cascadeDisable hardDeps start index = true ↔
      Throughout (fun index dep => dep ∈ hardDeps index) (fun index => start index = true)
        index := by
  have bound := Nat.lt_succ_of_le (enabledCount_le start)
  obtain ⟨finish, looped, closedForm⟩ := cascadeLoop_terminates hardDeps bound
  rw [cascadeDisable, looped]
  exact closedForm index

theorem cascadeLoop_eq {fuel : Nat} (start : Fin count → Bool) (enough : count < fuel) :
    cascadeLoop hardDeps fuel start = some (cascadeDisable hardDeps start) := by
  obtain ⟨finish, looped, closedForm⟩ :=
    cascadeLoop_terminates hardDeps ((enabledCount_le start).trans_lt enough)
  rw [looped, Option.some.injEq]
  funext index
  rw [Bool.eq_iff_iff, closedForm, cascadeDisable_iff]

theorem cascadeDisable_isGreatest (start : Fin count → Bool) :
    IsGreatest {kept | ClosedFlags hardDeps kept ∧ kept ≤ start}
      (cascadeDisable hardDeps start) := by
  constructor
  · constructor
    · intro index on dep edge
      rw [cascadeDisable_iff] at on ⊢
      exact on.reached (Relation.ReflTransGen.single edge)
    · intro index
      rw [Bool.le_iff_imp, cascadeDisable_iff]
      exact Throughout.self
  · rintro kept ⟨closed, below⟩ index
    rw [Bool.le_iff_imp, cascadeDisable_iff]
    exact throughout_of_closed (fun vertex => Bool.le_iff_imp.mp (below vertex))
      fun vertex target on edge => closed vertex on target edge

theorem cascadeDisable_relabel (start : Fin count → Bool) (label : Equiv.Perm (Fin count)) :
    cascadeDisable (fun index => (hardDeps (label index)).map label.symm) (start ∘ label) =
      cascadeDisable hardDeps start ∘ label := by
  funext index
  rw [Bool.eq_iff_iff, Function.comp_apply, cascadeDisable_iff, cascadeDisable_iff,
    ← throughout_relabel label]
  refine iff_of_eq (congrArg (fun edges => Throughout edges _ index) ?_)
  funext first second
  simp [Equiv.symm_apply_eq]

structure CascadeSpec (start finish : Fin count → Bool) : Prop where
  terminates : ∀ fuel, count < fuel → cascadeLoop hardDeps fuel start = some finish
  greatest : IsGreatest {kept | ClosedFlags hardDeps kept ∧ kept ≤ start} finish
  reachable : ∀ index, finish index = true ↔
    ∀ dep, Relation.ReflTransGen (fun index dep => dep ∈ hardDeps index) index dep →
      start dep = true
  orderFree : ∀ label : Equiv.Perm (Fin count),
    cascadeDisable (fun index => (hardDeps (label index)).map label.symm) (start ∘ label) =
      finish ∘ label

theorem cascadeDisable_spec (start : Fin count → Bool) :
    CascadeSpec hardDeps start (cascadeDisable hardDeps start) where
  terminates := fun _ enough => cascadeLoop_eq hardDeps start enough
  greatest := cascadeDisable_isGreatest hardDeps start
  reachable := cascadeDisable_iff hardDeps start
  orderFree := cascadeDisable_relabel hardDeps start

end Cascade

variable {Pattern Value : Type} {hooks : HookList Pattern Value}

theorem foldl_update_each {count : Nat} {State : Type} (change : Fin count → State → State)
    (start : Fin count → State) :
    (List.finRange count).foldl
      (fun state index => Function.update state index (change index (state index))) start =
        fun index => change index (start index) := by
  have pointwise : ∀ index, (List.finRange count).foldl
      (fun state index => Function.update state index (change index (state index))) start index =
        if index ∈ List.finRange count then change index (start index) else start index := by
    apply PartialFold.foldl_invariant (fun (done : List (Fin count)) (state : Fin count → State) =>
      ∀ index, state index = if index ∈ done then change index (start index) else start index)
    · simp
    · intro done index rest state split held other
      have fresh : index ∉ done := PartialFold.notMem_done (List.nodup_finRange count) split
      by_cases same : other = index
      · subst same
        simp [held other, fresh]
      · simp [same, held other]
  funext index
  rw [pointwise index, if_pos (List.mem_finRange index)]

def HookList.EnabledBy (hooks : HookList Pattern Value) (ini : INIStructure)
    (index : Fin hooks.count) : Prop :=
  Throughout hooks.HardDep (fun index => hooks.iniEnabled ini index = true) index

theorem loadConfigs_eq (ini : INIStructure) (registry : Registry hooks) :
    registry.loadConfigs ini = fun index =>
      { registry index with
        config := (hooks.traits index).fields.map (IniField.loadFrom ini) } :=
  foldl_update_each (fun index (state : HookState Value) =>
    { state with config := (hooks.traits index).fields.map (IniField.loadFrom ini) }) registry

theorem applyEnabledFlags_eq (ini : INIStructure) (registry : Registry hooks) :
    registry.applyEnabledFlags ini = fun index =>
      { registry index with
        enabled := cascadeDisable hooks.hardDeps (hooks.iniEnabled ini) index } := by
  have loaded : (List.finRange hooks.count).foldl (Registry.loadEnabled ini) registry =
      fun index => { registry index with enabled := hooks.iniEnabled ini index } :=
    foldl_update_each (fun index (state : HookState Value) =>
      { state with enabled := hooks.iniEnabled ini index }) registry
  unfold Registry.applyEnabledFlags
  rw [loaded]
  exact foldl_update_each (fun index (state : HookState Value) =>
    { state with enabled := cascadeDisable hooks.hardDeps (hooks.iniEnabled ini) index }) _

@[simp] theorem applyConfiguration_enabled (ini : INIStructure) (registry : Registry hooks)
    (index : Fin hooks.count) :
    (((registry.loadConfigs ini).applyEnabledFlags ini) index).enabled = true ↔
      hooks.EnabledBy ini index := by
  rw [applyEnabledFlags_eq]
  exact cascadeDisable_iff hooks.hardDeps _ index

@[simp] theorem applyConfiguration_installed (ini : INIStructure) (registry : Registry hooks)
    (index : Fin hooks.count) :
    (((registry.loadConfigs ini).applyEnabledFlags ini) index).installed =
      (registry index).installed := by
  rw [applyEnabledFlags_eq, loadConfigs_eq]

end PatchFix
