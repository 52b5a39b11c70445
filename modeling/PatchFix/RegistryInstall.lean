import PatchFix.RegistryCascade
import PatchFix.Rogue.AllHooks

/-! `install_all` over an install order that puts every dependency first. -/

namespace PatchFix

open DependencyGraph

variable {Pattern Value : Type} {hooks : HookList Pattern Value}
variable {addrs : Pattern → Option UInt64} {outcome : Fin hooks.count → InstallOutcome}

theorem guardedInstall_eq_true {outcome : InstallOutcome} :
    guardedInstall outcome = true ↔ outcome = .succeeded := by
  cases outcome <;> simp [guardedInstall]

namespace Registry

@[simp] theorem setEnabled_installed (registry : Registry hooks) (index other : Fin hooks.count)
    (value : Bool) : (registry.setEnabled index value other).installed =
      (registry other).installed := by
  by_cases same : other = index
  · simp [setEnabled, same]
  · simp [setEnabled, same]

theorem setEnabled_enabled (registry : Registry hooks) (index other : Fin hooks.count)
    (value : Bool) : (registry.setEnabled index value other).enabled =
      if other = index then value else (registry other).enabled := by
  by_cases same : other = index
  · simp [setEnabled, same]
  · simp [setEnabled, same]

@[simp] theorem setInstalled_enabled (registry : Registry hooks) (index other : Fin hooks.count)
    (value : Bool) : (registry.setInstalled index value other).enabled =
      (registry other).enabled := by
  by_cases same : other = index
  · simp [setInstalled, same]
  · simp [setInstalled, same]

theorem setInstalled_installed (registry : Registry hooks) (index other : Fin hooks.count)
    (value : Bool) : (registry.setInstalled index value other).installed =
      if other = index then value else (registry other).installed := by
  by_cases same : other = index
  · simp [setInstalled, same]
  · simp [setInstalled, same]

theorem setEnabled_eq_self {registry : Registry hooks} {index : Fin hooks.count}
    (off : (registry index).enabled = false) : registry.setEnabled index false = registry := by
  have same : { registry index with enabled := false } = registry index := by rw [← off]
  rw [setEnabled, same, Function.update_eq_self]

def DepsInstalled (registry : Registry hooks) (index : Fin hooks.count) : Prop :=
  ∀ dep ∈ hooks.hardDeps index, (registry dep).installed = true

theorem firstUnmetHardDep_isSome (registry : Registry hooks) (index : Fin hooks.count) :
    (registry.firstUnmetHardDep index).isSome = true ↔ ¬registry.DepsInstalled index := by
  simp [firstUnmetHardDep, DepsInstalled, List.find?_isSome]

end Registry

def HookList.Installable (hooks : HookList Pattern Value) (addrs : Pattern → Option UInt64)
    (outcome : Fin hooks.count → InstallOutcome) (index : Fin hooks.count) : Prop :=
  hooks.checkRequired addrs index = true ∧ outcome index = .succeeded

def InstallRun.Ready (addrs : Pattern → Option UInt64) (run : InstallRun hooks)
    (index : Fin hooks.count) : Prop :=
  (run.registry index).enabled = true ∧ run.registry.DepsInstalled index ∧
    hooks.checkRequired addrs index = true

inductive InstallRun.Turned (addrs : Pattern → Option UInt64)
    (outcome : Fin hooks.count → InstallOutcome) (run : InstallRun hooks)
    (index : Fin hooks.count) : InstallRun hooks → Prop
  | skipped :
      ¬run.Ready addrs index →
      Turned addrs outcome run index
        { run with
          registry := run.registry.setEnabled index false
          trace := run.trace ++ [.turn index] }
  | failed :
      run.Ready addrs index → outcome index ≠ .succeeded →
      Turned addrs outcome run index
        { run with
          registry := run.registry.setEnabled index false
          trace := run.trace ++ [.attempt index, .turn index] }
  | installed :
      run.Ready addrs index → outcome index = .succeeded →
      Turned addrs outcome run index
        { registry := run.registry.setInstalled index true
          journal := run.journal.writeHookInstalled (hooks.traits index).name
          trace := run.trace ++ [.attempt index, .installed index, .turn index] }

theorem InstallRun.turn_cases (run : InstallRun hooks) (index : Fin hooks.count) :
    InstallRun.Turned addrs outcome run index (run.turn addrs outcome index) := by
  unfold InstallRun.turn
  by_cases enabled : (run.registry index).enabled = true
  · by_cases met : run.registry.DepsInstalled index
    · have noUnmet : (run.registry.firstUnmetHardDep index).isSome = false := by
        rw [← Bool.not_eq_true, Registry.firstUnmetHardDep_isSome]
        exact fun unmet => unmet met
      by_cases required : hooks.checkRequired addrs index = true
      · by_cases succeeds : outcome index = .succeeded
        · have taken := InstallRun.Turned.installed ⟨enabled, met, required⟩ succeeds
          simpa [enabled, noUnmet, required, InstallRun.install, InstallRun.log, guardedInstall,
            succeeds] using taken
        · have refused : guardedInstall (outcome index) = false := by
            rw [← Bool.not_eq_true, guardedInstall_eq_true]
            exact succeeds
          have taken := InstallRun.Turned.failed ⟨enabled, met, required⟩ succeeds
          simpa [enabled, noUnmet, required, InstallRun.install, InstallRun.log,
            InstallRun.disable, refused] using taken
      · have taken : InstallRun.Turned addrs outcome run index _ :=
          .skipped fun ready => required ready.2.2
        simpa [enabled, noUnmet, required, InstallRun.log, InstallRun.disable] using taken
    · have unmet := (Registry.firstUnmetHardDep_isSome run.registry index).mpr met
      have taken : InstallRun.Turned addrs outcome run index _ :=
        .skipped fun ready => met ready.2.1
      simpa [enabled, unmet, InstallRun.log, InstallRun.disable] using taken
  · have taken : InstallRun.Turned addrs outcome run index _ :=
      .skipped fun ready => enabled ready.1
    rw [Registry.setEnabled_eq_self (by simpa using enabled)] at taken
    simpa [enabled, InstallRun.log] using taken

def attemptsOf {count : Nat} (trace : List (InstallEvent count)) : List (Fin count) :=
  trace.filterMap fun
    | .attempt index => some index
    | _ => none

def installsOf {count : Nat} (trace : List (InstallEvent count)) : List (Fin count) :=
  trace.filterMap fun
    | .installed index => some index
    | _ => none

theorem mem_installsOf {count : Nat} {trace : List (InstallEvent count)} {index : Fin count} :
    index ∈ installsOf trace ↔ .installed index ∈ trace := by
  simp only [installsOf, List.mem_filterMap]
  constructor
  · rintro ⟨event, member, found⟩
    cases event <;> simp_all
  · intro member
    exact ⟨_, member, rfl⟩

theorem mem_attemptsOf {count : Nat} {trace : List (InstallEvent count)} {index : Fin count} :
    index ∈ attemptsOf trace ↔ .attempt index ∈ trace := by
  simp only [attemptsOf, List.mem_filterMap]
  constructor
  · rintro ⟨event, member, found⟩
    cases event <;> simp_all
  · intro member
    exact ⟨_, member, rfl⟩

@[simp] theorem installsOf_append {count : Nat} (first second : List (InstallEvent count)) :
    installsOf (first ++ second) = installsOf first ++ installsOf second :=
  List.filterMap_append

@[simp] theorem attemptsOf_append {count : Nat} (first second : List (InstallEvent count)) :
    attemptsOf (first ++ second) = attemptsOf first ++ attemptsOf second :=
  List.filterMap_append

theorem attempts_append {count : Nat} {first second : List (InstallEvent count)}
    {precedes : List (InstallEvent count) → Fin count → Prop}
    (old : ∀ before index after, first = before ++ .attempt index :: after → precedes before index)
    (new : ∀ before index after, second = before ++ .attempt index :: after →
      precedes (first ++ before) index) :
    ∀ before index after, first ++ second = before ++ .attempt index :: after →
      precedes before index := by
  intro before index after split
  rcases List.append_eq_append_iff.mp split with ⟨middle, rfl, tail⟩ | ⟨middle, firstSplit, tail⟩
  · exact new middle index after tail
  · cases middle with
    | nil =>
        obtain rfl : first = before := by simpa using firstSplit
        simpa using new [] index after tail.symm
    | cons event middle =>
        simp only [List.cons_append, List.cons.injEq] at tail
        obtain ⟨rfl, _⟩ := tail
        exact old before index middle firstSplit

structure InstallRun.TurnEffect (addrs : Pattern → Option UInt64)
    (outcome : Fin hooks.count → InstallOutcome) (run : InstallRun hooks)
    (index : Fin hooks.count) (run' : InstallRun hooks) : Prop where
  frame : ∀ other, other ≠ index → run'.registry other = run.registry other
  installed : (run'.registry index).installed = true ↔
    (run.registry index).enabled = true ∧ hooks.Installable addrs outcome index ∧
      run.registry.DepsInstalled index
  synced : (run'.registry index).enabled = (run'.registry index).installed
  trace : ∃ attempted, run'.trace = run.trace ++ (attempted ++
      ((if (run'.registry index).installed then [.installed index] else []) ++ [.turn index])) ∧
    (attempted = [] ∧ ¬run.Ready addrs index ∨ attempted = [.attempt index] ∧ run.Ready addrs index)
  journal : run'.journal = if (run'.registry index).installed then
    run.journal.writeHookInstalled (hooks.traits index).name else run.journal

theorem InstallRun.turn_effect {run : InstallRun hooks} {index : Fin hooks.count}
    (fresh : (run.registry index).installed = false) :
    run.TurnEffect addrs outcome index (run.turn addrs outcome index) := by
  have turned : InstallRun.Turned addrs outcome run index (run.turn addrs outcome index) :=
    run.turn_cases index
  generalize run.turn addrs outcome index = run' at turned
  cases turned with
  | skipped notReady =>
      constructor
      · intro other different
        simp [Registry.setEnabled, different]
      · simp only [Registry.setEnabled_installed, fresh, Bool.false_eq_true, false_iff]
        exact fun ready => notReady ⟨ready.1, ready.2.2, ready.2.1.1⟩
      · simp [Registry.setEnabled_enabled, fresh]
      · exact ⟨[], by simp [fresh], Or.inl ⟨rfl, notReady⟩⟩
      · simp [fresh]
  | failed ready refused =>
      constructor
      · intro other different
        simp [Registry.setEnabled, different]
      · simp only [Registry.setEnabled_installed, fresh, Bool.false_eq_true, false_iff]
        exact fun installable => refused installable.2.1.2
      · simp [Registry.setEnabled_enabled, fresh]
      · exact ⟨[.attempt index], by simp [fresh], Or.inr ⟨rfl, ready⟩⟩
      · simp [fresh]
  | installed ready succeeds =>
      constructor
      · intro other different
        simp [Registry.setInstalled, different]
      · simp only [Registry.setInstalled_installed, if_true, true_iff]
        exact ⟨ready.1, ⟨ready.2.2, succeeds⟩, ready.2.1⟩
      · simp [Registry.setInstalled_installed, ready.1]
      · exact ⟨[.attempt index], by simp [Registry.setInstalled_installed], Or.inr ⟨rfl, ready⟩⟩
      · simp [Registry.setInstalled_installed]

section TurnEffect

variable {run run' : InstallRun hooks} {index : Fin hooks.count}

theorem InstallRun.TurnEffect.installsOf_trace (effect : run.TurnEffect addrs outcome index run') :
    installsOf run'.trace =
      installsOf run.trace ++ if (run'.registry index).installed then [index] else [] := by
  obtain ⟨attempted, trace, cases⟩ := effect.trace
  have none : installsOf attempted = [] := by
    rcases cases with ⟨rfl, _⟩ | ⟨rfl, _⟩ <;> rfl
  rw [trace, installsOf_append, installsOf_append, none, List.nil_append, installsOf_append]
  by_cases installed : (run'.registry index).installed = true <;> simp [installed, installsOf]

theorem InstallRun.TurnEffect.mem_turn (effect : run.TurnEffect addrs outcome index run')
    (other : Fin hooks.count) :
    .turn other ∈ run'.trace ↔ .turn other ∈ run.trace ∨ other = index := by
  obtain ⟨attempted, trace, cases⟩ := effect.trace
  rw [trace, List.mem_append, List.mem_append, List.mem_append]
  rcases cases with ⟨rfl, _⟩ | ⟨rfl, _⟩ <;>
    by_cases installed : (run'.registry index).installed = true <;>
    simp [installed]

theorem InstallRun.TurnEffect.mem_attempt (effect : run.TurnEffect addrs outcome index run')
    (other : Fin hooks.count) :
    .attempt other ∈ run'.trace ↔
      .attempt other ∈ run.trace ∨ (other = index ∧ run.Ready addrs index) := by
  obtain ⟨attempted, trace, cases⟩ := effect.trace
  rw [trace, List.mem_append, List.mem_append, List.mem_append]
  rcases cases with ⟨rfl, notReady⟩ | ⟨rfl, ready⟩ <;>
    by_cases installed : (run'.registry index).installed = true <;>
    simp [*]

theorem InstallRun.TurnEffect.attemptsOf_sublist (effect : run.TurnEffect addrs outcome index run')
    {done : List (Fin hooks.count)} (before : (attemptsOf run.trace).Sublist done) :
    (attemptsOf run'.trace).Sublist (done ++ [index]) := by
  obtain ⟨attempted, trace, cases⟩ := effect.trace
  rw [trace, attemptsOf_append]
  refine before.append ?_
  rcases cases with ⟨rfl, _⟩ | ⟨rfl, _⟩ <;>
    by_cases installed : (run'.registry index).installed = true <;>
    simp [installed, attemptsOf]

/-- The only attempt that an iteration can add comes right after the earlier trace. -/
theorem InstallRun.TurnEffect.attempts_justified
    {precedes : List (InstallEvent hooks.count) → Fin hooks.count → Prop}
    (effect : run.TurnEffect addrs outcome index run')
    (old : ∀ before other after, run.trace = before ++ .attempt other :: after →
      precedes before other)
    (new : run.Ready addrs index → precedes run.trace index) :
    ∀ before other after, run'.trace = before ++ .attempt other :: after →
      precedes before other := by
  obtain ⟨attempted, trace, cases⟩ := effect.trace
  rw [trace]
  refine attempts_append old ?_
  intro before other after split
  have isFirst : before = [] ∧ other = index ∧ run.Ready addrs index := by
    rcases cases with ⟨rfl, _⟩ | ⟨rfl, ready⟩ <;>
      by_cases installed : (run'.registry index).installed = true <;>
      simp only [installed, if_true, Bool.false_eq_true, if_false, List.nil_append,
        List.cons_append] at split <;>
      rcases before with _ | ⟨_, _ | ⟨_, _ | ⟨_, before⟩⟩⟩ <;>
      simp_all
  obtain ⟨rfl, rfl, ready⟩ := isFirst
  rw [List.append_nil]
  exact new ready

end TurnEffect

def InstallRun.journalWith (journal : Journal) (installs : List (Fin hooks.count)) : Journal :=
  installs.foldl (fun journal index => journal.writeHookInstalled (hooks.traits index).name) journal

theorem InstallRun.journalWith_append (journal : Journal)
    (first second : List (Fin hooks.count)) :
    InstallRun.journalWith journal (first ++ second) =
      InstallRun.journalWith (InstallRun.journalWith journal first) second :=
  List.foldl_append

structure InstallInvariant (addrs : Pattern → Option UInt64)
    (outcome : Fin hooks.count → InstallOutcome) (start : InstallRun hooks)
    (done : List (Fin hooks.count)) (run : InstallRun hooks) : Prop where
  untouched : ∀ index, index ∉ done → run.registry index = start.registry index
  settled : ∀ index ∈ done, ((run.registry index).installed = true ↔
    (start.registry index).enabled = true ∧ hooks.Installable addrs outcome index ∧
      run.registry.DepsInstalled index)
  synced : ∀ index ∈ done, (run.registry index).enabled = (run.registry index).installed
  turns : ∀ index, .turn index ∈ run.trace ↔ index ∈ done
  installs : installsOf run.trace = done.filter fun index => (run.registry index).installed
  attempts : (attemptsOf run.trace).Sublist done
  attempted : ∀ index ∈ done, (.attempt index ∈ run.trace ↔
    (start.registry index).enabled = true ∧ run.registry.DepsInstalled index ∧
      hooks.checkRequired addrs index = true)
  justified : ∀ before index after, run.trace = before ++ .attempt index :: after →
    (∀ dep ∈ hooks.hardDeps index, .installed dep ∈ before) ∧
      ∀ dep ∈ hooks.softDeps index, .turn dep ∈ before
  journal : run.journal = InstallRun.journalWith start.journal (installsOf run.trace)

theorem InstallInvariant.turn {start run : InstallRun hooks}
    {order done rest : List (Fin hooks.count)} {index : Fin hooks.count}
    (invariant : InstallInvariant addrs outcome start done run)
    (notInstalled : ∀ index, (start.registry index).installed = false)
    (unique : order.Nodup)
    (ordered : DependenciesFirst (AnyDep hooks.hardDeps hooks.softDeps) order)
    (split : order = done ++ index :: rest) :
    InstallInvariant addrs outcome start (done ++ [index]) (run.turn addrs outcome index) := by
  have fresh : index ∉ done := PartialFold.notMem_done unique split
  have here := invariant.untouched index fresh
  have effect : run.TurnEffect addrs outcome index (run.turn addrs outcome index) :=
    InstallRun.turn_effect (by rw [here]; exact notInstalled index)
  generalize run.turn addrs outcome index = run' at effect
  have depsDone : ∀ other ∈ done ++ [index], ∀ dep, AnyDep hooks.hardDeps hooks.softDeps other dep →
      dep ∈ done := fun other member dep edge => ordered.mem_done split member edge
  have sameDone : ∀ other ∈ done, run'.registry other = run.registry other := fun other member =>
    effect.frame other fun same => fresh (same ▸ member)
  have sameMet : ∀ other ∈ done ++ [index],
      (run'.registry.DepsInstalled other ↔ run.registry.DepsInstalled other) := by
    intro other member
    apply forall₂_congr
    intro dep edge
    rw [sameDone dep (depsDone other member dep (Or.inl edge))]
  constructor
  · intro other outside
    simp only [List.mem_append, List.mem_singleton, not_or] at outside
    rw [effect.frame other outside.2, invariant.untouched other outside.1]
  · intro other member
    rw [sameMet other member]
    rcases List.mem_append.mp member with earlier | current
    · rw [sameDone other earlier]
      exact invariant.settled other earlier
    · obtain rfl := List.mem_singleton.mp current
      rw [effect.installed, here]
  · intro other member
    rcases List.mem_append.mp member with earlier | current
    · rw [sameDone other earlier]
      exact invariant.synced other earlier
    · obtain rfl := List.mem_singleton.mp current
      exact effect.synced
  · intro other
    rw [effect.mem_turn, invariant.turns, List.mem_append, List.mem_singleton]
  · rw [effect.installsOf_trace, invariant.installs, List.filter_append]
    congr 1
    · exact List.filter_congr fun other member => by rw [sameDone other member]
    · by_cases installed : (run'.registry index).installed = true <;> simp [installed]
  · exact effect.attemptsOf_sublist invariant.attempts
  · intro other member
    rw [effect.mem_attempt, sameMet other member]
    rcases List.mem_append.mp member with earlier | current
    · have different : other ≠ index := fun same => fresh (same ▸ earlier)
      rw [← invariant.attempted other earlier]
      simp [different]
    · obtain rfl := List.mem_singleton.mp current
      have notBefore : .attempt other ∉ run.trace := fun before =>
        fresh (invariant.attempts.subset (mem_attemptsOf.mpr before))
      rw [← here]
      simp [notBefore, InstallRun.Ready]
  · refine effect.attempts_justified invariant.justified fun ready => ⟨?_, ?_⟩
    · intro dep edge
      rw [← mem_installsOf, invariant.installs, List.mem_filter]
      exact ⟨depsDone index (by simp) dep (Or.inl edge), ready.2.1 dep edge⟩
    · intro dep edge
      exact (invariant.turns dep).mpr (depsDone index (by simp) dep (Or.inr edge))
  · rw [effect.journal, effect.installsOf_trace, InstallRun.journalWith_append, ← invariant.journal]
    by_cases installed : (run'.registry index).installed = true <;>
      simp [installed, InstallRun.journalWith]

/-- A hook list that compiles: the sort completes and its `static_assert` on the count holds. -/
structure HookList.Sorted (hooks : HookList Pattern Value) (order : List (Fin hooks.count)) :
    Prop where
  unique : order.Nodup
  complete : ∀ index, index ∈ order
  ordered : DependenciesFirst (AnyDep hooks.hardDeps hooks.softDeps) order

theorem HookList.sorted_of_count {order : List (Fin hooks.count)}
    (completed : hooks.sortedResult = some (order, hooks.count)) : hooks.Sorted order := by
  obtain ⟨length, unique, ordered, _⟩ := topoSort_spec completed
  refine ⟨unique, fun index => ?_, ordered⟩
  have everything : order.toFinset = Finset.univ := by
    rw [← Finset.card_eq_iff_eq_univ, List.toFinset_card_of_nodup unique, Fintype.card_fin]
    exact length.symm
  exact List.mem_toFinset.mp (everything ▸ Finset.mem_univ index)

theorem HookList.Sorted.acyclic {order : List (Fin hooks.count)} (sorted : hooks.Sorted order) :
    Acyclic (AnyDep hooks.hardDeps hooks.softDeps) :=
  sorted.ordered.acyclic sorted.complete

theorem HookList.sorted_of_acyclic {order : List (Fin hooks.count)} {sorted : Nat}
    (acyclic : Acyclic (AnyDep hooks.hardDeps hooks.softDeps))
    (completed : hooks.sortedResult = some (order, sorted)) : hooks.Sorted order :=
  ⟨(topoSort_spec completed).2.1, topoSort_complete completed acyclic,
    (topoSort_spec completed).2.2.1⟩

def HookList.InstalledBy (hooks : HookList Pattern Value) (addrs : Pattern → Option UInt64)
    (outcome : Fin hooks.count → InstallOutcome) (ini : INIStructure)
    (index : Fin hooks.count) : Prop :=
  Throughout hooks.HardDep (fun index => hooks.iniEnabled ini index = true ∧
    hooks.Installable addrs outcome index) index

section InstallAll

variable (addrs : Pattern → Option UInt64) (outcome : Fin hooks.count → InstallOutcome)
variable (ini : INIStructure) (journal : Journal) {order : List (Fin hooks.count)}

theorem installAll_invariant (sorted : hooks.Sorted order) :
    InstallInvariant addrs outcome
      { registry := ((Registry.initial hooks).loadConfigs ini).applyEnabledFlags ini
        journal
        trace := [] } order
      ((Registry.initial hooks).installAll order addrs outcome ini journal) := by
  apply PartialFold.foldl_invariant
  · constructor <;> simp [installsOf, attemptsOf, InstallRun.journalWith]
  · intro done index rest run split invariant
    exact invariant.turn (fun other => by simp [Registry.initial]) sorted.unique sorted.ordered
      split

theorem installAll_synced (sorted : hooks.Sorted order) (index : Fin hooks.count) :
    (((Registry.initial hooks).installAll order addrs outcome ini journal).registry
        index).enabled =
      (((Registry.initial hooks).installAll order addrs outcome ini journal).registry
        index).installed :=
  (installAll_invariant addrs outcome ini journal sorted).synced index (sorted.complete index)

theorem installAll_installed (sorted : hooks.Sorted order) (index : Fin hooks.count) :
    (((Registry.initial hooks).installAll order addrs outcome ini journal).registry
        index).installed = true ↔ hooks.InstalledBy addrs outcome ini index := by
  have invariant := installAll_invariant addrs outcome ini journal sorted
  have acyclic : Acyclic hooks.HardDep := sorted.acyclic.mono fun _ _ edge => Or.inl edge
  have closedForm := acyclic.iff_throughout fun index =>
    (invariant.settled index (sorted.complete index)).trans and_assoc.symm
  rw [closedForm, throughout_and, HookList.InstalledBy, throughout_and]
  simp only [applyConfiguration_enabled]
  rw [show hooks.EnabledBy ini = Throughout hooks.HardDep _ from rfl, throughout_throughout]

theorem installAll_attempted (sorted : hooks.Sorted order) (index : Fin hooks.count) :
    .attempt index ∈ ((Registry.initial hooks).installAll order addrs outcome ini journal).trace ↔
      hooks.EnabledBy ini index ∧
        (∀ dep ∈ hooks.hardDeps index, hooks.InstalledBy addrs outcome ini dep) ∧
        hooks.checkRequired addrs index = true := by
  have invariant := installAll_invariant addrs outcome ini journal sorted
  rw [invariant.attempted index (sorted.complete index), applyConfiguration_enabled]
  simp only [Registry.DepsInstalled, installAll_installed addrs outcome ini journal sorted]

structure InstallAllSpec (run : InstallRun hooks) : Prop where
  installed : ∀ index, (run.registry index).installed = true ↔
    Throughout hooks.HardDep (fun dep => hooks.iniEnabled ini dep = true ∧
      hooks.checkRequired addrs dep = true ∧ outcome dep = .succeeded) index
  attemptedOnce : (attemptsOf run.trace).Nodup
  attemptedAfterDeps : ∀ before index after, run.trace = before ++ .attempt index :: after →
    (∀ dep ∈ hooks.hardDeps index, .installed dep ∈ before) ∧
      ∀ dep ∈ hooks.softDeps index, .turn dep ∈ before
  enabled : ∀ index, (run.registry index).enabled = (run.registry index).installed
  installsOnce : (installsOf run.trace).Nodup
  installs : ∀ index, index ∈ installsOf run.trace ↔ (run.registry index).installed = true
  records : ∀ content, journal.At content → run.journal.At (content ++ LineText.unlines
    ((installsOf run.trace).map fun index => Journal.hookInstalledLine (hooks.traits index).name))
  noRecords : journal.handle = none → run.journal = journal

theorem InstallRun.journalWith_at (installs : List (Fin hooks.count)) {journal : Journal}
    {content : Text} (ended : journal.At content) :
    (InstallRun.journalWith journal installs).At (content ++ LineText.unlines
      (installs.map fun index => Journal.hookInstalledLine (hooks.traits index).name)) := by
  induction installs generalizing journal content with
  | nil => simpa [InstallRun.journalWith] using ended
  | cons index installs ih =>
      have first := ended.writeLine (Journal.hookInstalledLine (hooks.traits index).name)
      simpa [InstallRun.journalWith, Journal.writeHookInstalled] using ih first

theorem InstallRun.journalWith_closed (installs : List (Fin hooks.count)) {journal : Journal}
    (closed : journal.handle = none) : InstallRun.journalWith journal installs = journal := by
  induction installs with
  | nil => rfl
  | cons index installs ih =>
      rw [InstallRun.journalWith, List.foldl_cons, Journal.writeHookInstalled,
        Journal.writeLine_closed closed]
      exact ih

/-- Every hook list with acyclic dependencies whose sort completes installs exactly the hooks whose
hard dependencies are all enabled, resolved and installing. -/
theorem installAll_correct (acyclic : Acyclic (AnyDep hooks.hardDeps hooks.softDeps))
    {sorted : Nat} (completed : hooks.sortedResult = some (order, sorted)) :
    InstallAllSpec addrs outcome ini journal
      ((Registry.initial hooks).installAll order addrs outcome ini journal) := by
  have isSorted := HookList.sorted_of_acyclic acyclic completed
  have invariant := installAll_invariant addrs outcome ini journal isSorted
  constructor
  · exact installAll_installed addrs outcome ini journal isSorted
  · exact isSorted.unique.sublist invariant.attempts
  · exact invariant.justified
  · exact installAll_synced addrs outcome ini journal isSorted
  · rw [invariant.installs]
    exact isSorted.unique.filter _
  · intro index
    rw [invariant.installs, List.mem_filter]
    exact and_iff_right (isSorted.complete index)
  · intro content ended
    rw [invariant.journal]
    exact InstallRun.journalWith_at _ ended
  · intro closed
    rw [invariant.journal]
    exact InstallRun.journalWith_closed _ closed

end InstallAll

theorem Rogue.allHooks_sorted {Value : Type} (fields : Rogue.Hook → List (IniField Value)) :
    (Rogue.allHooks fields).sortedResult = some (Rogue.installOrder, 11) := by
  have sorted : topoSort (fun index => (Rogue.hookAt index).hardDeps.map Rogue.Hook.index)
      (fun index => (Rogue.hookAt index).softDeps.map Rogue.Hook.index) =
        some (Rogue.installOrder, 11) := by
    decide +kernel
  exact sorted

def Rogue.viewportFittingFaults (index : Fin 11) : InstallOutcome :=
  if Rogue.hookAt index = .viewportFittingHook then .faulted else .succeeded

def Rogue.faultyInstall : InstallRun Rogue.bareHooks :=
  (Registry.initial Rogue.bareHooks).installAll Rogue.installOrder (fun _ => some 0)
    Rogue.viewportFittingFaults INIStructure.empty (Journal.atLoad none)

theorem installAll_correct_rogue :
    InstallAllSpec (fun _ => some 0) Rogue.viewportFittingFaults INIStructure.empty
      (Journal.atLoad none) Rogue.faultyInstall :=
  installAll_correct _ _ _ _ (HookList.sorted_of_count (Rogue.allHooks_sorted _)).acyclic
    (Rogue.allHooks_sorted _)

end PatchFix
