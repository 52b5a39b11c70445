import PatchFix.MakeHook
import PatchFix.RegistryReload

/-!
Whom the patch registry names: `install_all` and `reload` over hooks whose `install` and
`on_reload` are programs that patch memory, with the hook name set around each of them.
-/

namespace PatchFix

/-- What `install` or `on_reload` does to the process: it looks at memory, calls the functions of
`mem` and goes on with their answers. It returns, or a hardware fault or an exception ends it. -/
inductive HookBody where
  | done (success : Bool)
  | fault
  | throw
  | look (next : ByteImage.Image → HookBody)
  | patch (call : WriteCall) (next : Bool → HookBody)
  | hook (address endAddress : UInt64) (next : Except Text (List UInt8) → HookBody)

/-- An exception passes the handler of `guarded_install`, which takes hardware faults only. -/
inductive BodyEnd where
  | ended (outcome : InstallOutcome)
  | threw
  deriving DecidableEq, Repr

abbrev HookLibrary := UInt64 → ByteImage.Image → Protections →
  Except MidHookError (List UInt8 × ByteImage.Image × Protections)

def HookLibrary.service (library : HookLibrary) : HookService := fun address process =>
  (library address process.image process.protections).map fun created =>
    (created.1, { process with image := created.2.1, protections := created.2.2 })

structure PatchWork (count : Nat) where
  process : Process
  touches : List (UInt64 × Fin count)

namespace PatchWork

variable {count : Nat} (system : System) (library : HookLibrary)

def setName (name : Text) (work : PatchWork count) : PatchWork count :=
  { work with process := { work.process with currentHookName := name } }

def patch (index : Fin count) (call : WriteCall) (work : PatchWork count) :
    Bool × PatchWork count :=
  let result := call.perform system work.process
  (result.1,
    { process := result.2
      touches := work.touches ++ if result.1 then [(call.address, index)] else [] })

def create (index : Fin count) (address : UInt64) (work : PatchWork count) :
    Except Text (List UInt8) × PatchWork count :=
  let result := Mem.makeHook library.service address work.process
  (result.1,
    { process := result.2
      touches := work.touches ++ if result.1.isOk then [(address, index)] else [] })

def hook (index : Fin count) (address endAddress : UInt64) (work : PatchWork count) :
    Except Text (List UInt8) × PatchWork count :=
  if address < endAddress then
    match patch system index (.nop address (endAddress - address)) work with
    | (false, refused) => (.error Mem.eraseFailed, refused)
    | (true, erased) => create library index address erased
  else create library index address work

theorem hook_eq_makeHookErasing (index : Fin count) (address endAddress : UInt64)
    (work : PatchWork count) :
    ((hook system library index address endAddress work).1,
        (hook system library index address endAddress work).2.process) =
      Mem.makeHookErasing system library.service address endAddress work.process := by
  unfold hook Mem.makeHookErasing
  by_cases erases : address < endAddress
  · simp only [if_pos erases, patch, WriteCall.perform]
    obtain ⟨written, after, run⟩ : ∃ written after,
        Mem.nop system address (endAddress - address) work.process = (written, after) :=
      ⟨_, _, rfl⟩
    cases written with
    | false => simp only [run]
    | true =>
        simp only [run]
        rfl
  · simp only [if_neg erases]
    rfl

end PatchWork

def HookBody.run {count : Nat} (system : System) (library : HookLibrary) (index : Fin count) :
    HookBody → PatchWork count → BodyEnd × PatchWork count
  | done success, work => (.ended (if success then .succeeded else .failed), work)
  | fault, work => (.ended .faulted, work)
  | throw, work => (.threw, work)
  | look next, work => (next work.process.image).run system library index work
  | patch call next, work =>
      let result := work.patch system index call
      (next result.1).run system library index result.2
  | hook address endAddress next, work =>
      let result := work.hook system library index address endAddress
      (next result.1).run system library index result.2

def firstToucher {count : Nat} (touches : List (UInt64 × Fin count)) (base : UInt64) :
    Option (Fin count) :=
  (touches.find? fun touch => touch.1 = base).map Prod.snd

def Attributed {count : Nat} (name : Fin count → Text) (table : PatchTable)
    (touches : List (UInt64 × Fin count)) : Prop :=
  ∀ base hookName, (∃ entry ∈ table.entries, entry.base = base ∧ entry.hookName = hookName) ↔
    (firstToucher touches base).map name = some hookName

section Attribution

variable {count : Nat} {name : Fin count → Text} {table : PatchTable}
variable {touches : List (UInt64 × Fin count)} {work : PatchWork count} {index : Fin count}
variable {system : System} {library : HookLibrary} {owner : Fin count → Prop}

theorem firstToucher_concat (base other : UInt64) :
    firstToucher (touches ++ [(other, index)]) base =
      (firstToucher touches base).or (if other = base then some index else none) := by
  unfold firstToucher
  rw [List.find?_append]
  cases touches.find? fun touch => touch.1 = base with
  | some touch => rfl
  | none =>
      by_cases same : other = base
      · simp [same]
      · simp [same]

theorem Attributed.present_iff (held : Attributed name table touches) (base : UInt64) :
    (∃ entry ∈ table.entries, entry.base = base) ↔ (firstToucher touches base).isSome = true := by
  constructor
  · rintro ⟨entry, member, same⟩
    have found := (held base entry.hookName).mp ⟨entry, member, same, rfl⟩
    obtain ⟨first, present, _⟩ := Option.map_eq_some_iff.mp found
    rw [present]
    rfl
  · intro present
    obtain ⟨first, found⟩ := Option.isSome_iff_exists.mp present
    obtain ⟨entry, member, same, _⟩ := (held base (name first)).mpr (by rw [found]; rfl)
    exact ⟨entry, member, same⟩

theorem Attributed.register (held : Attributed name table touches) (base size : UInt64)
    (original : List UInt8) (type : PatchType) (index : Fin count) :
    Attributed name (table.registerPatch base size original (name index) type)
      (touches ++ [(base, index)]) := by
  intro other hookName
  rw [firstToucher_concat]
  simp only [PatchTable.mem_registerPatch]
  cases found : firstToucher touches other with
  | some first =>
      have earlier := held other hookName
      rw [found] at earlier
      rw [Option.some_or, ← earlier]
      constructor
      · rintro ⟨entry, old | ⟨rfl, free⟩, same, named⟩
        · exact ⟨entry, old, same, named⟩
        · obtain ⟨taken, member, here⟩ := (held.present_iff other).mpr (by rw [found]; rfl)
          exact absurd (here.trans same.symm) (free taken member)
      · rintro ⟨entry, member, same, named⟩
        exact ⟨entry, Or.inl member, same, named⟩
  | none =>
      have absent : ∀ entry ∈ table.entries, entry.base ≠ other := by
        intro entry member same
        have present := (held.present_iff other).mp ⟨entry, member, same⟩
        rw [found] at present
        exact absurd present Bool.false_ne_true
      rw [Option.none_or]
      by_cases same : base = other
      · subst same
        simp only [if_true, Option.map_some, Option.some.injEq]
        constructor
        · rintro ⟨entry, old | ⟨rfl, _⟩, here, named⟩
          · exact absurd here (absent entry old)
          · exact named
        · intro named
          exact ⟨_, Or.inr ⟨rfl, absent⟩, rfl, named⟩
      · simp only [if_neg same, Option.map_none, reduceCtorEq, iff_false]
        rintro ⟨entry, old | ⟨rfl, _⟩, here, _⟩
        · exact absent entry old here
        · exact same here

structure PatchWork.Kept (name : Fin count → Text) (owner : Fin count → Prop) (current : Text)
    (work : PatchWork count) : Prop where
  attributed : Attributed name work.process.patches work.touches
  owners : ∀ touch ∈ work.touches, owner touch.2
  current : work.process.currentHookName = current

theorem Mem.patch_currentHookName {address size : UInt64}
    {stores : ByteImage.Image → ByteImage.Image} {process after : Process}
    (run : Mem.patch system address size stores process = (true, after)) :
    after.currentHookName = process.currentHookName := by
  obtain ⟨old, writable, granted, rfl⟩ := Mem.patch_granted system run
  obtain ⟨protections, rfl⟩ := Mem.protect_changes system granted
  obtain ⟨_, restored⟩ := Mem.unprotect_changes system address size old
    { Mem.recordOriginal address size { process with protections := protections } with
      image := stores process.image }
  rw [restored]
  unfold Mem.recordOriginal
  split
  · rfl
  · rfl

theorem owners_concat (owners : ∀ touch ∈ touches, owner touch.2) (owned : owner index)
    (base : UInt64) : ∀ touch ∈ touches ++ [(base, index)], owner touch.2 := by
  intro touch member
  rcases List.mem_append.mp member with earlier | last
  · exact owners touch earlier
  · obtain rfl := List.mem_singleton.mp last
    exact owned

theorem PatchWork.Kept.patch (held : work.Kept name owner (name index)) (owned : owner index)
    (named : name index ≠ []) (call : WriteCall) :
    (work.patch system index call).2.Kept name owner (name index) := by
  have current := held.current
  rcases run : call.perform system work.process with ⟨written, after⟩
  cases written with
  | false =>
      have refused := run
      rw [WriteCall.perform_eq_patch] at refused
      obtain ⟨_, rfl⟩ := Mem.patch_refused system refused
      simpa [PatchWork.patch, run] using held
  | true =>
      have effect := WriteCall.perform_success (by rwa [current]) run
      have kept : after.currentHookName = name index := by
        rw [WriteCall.perform_eq_patch] at run
        rw [Mem.patch_currentHookName run, current]
      simp only [PatchWork.patch, run, if_true]
      refine ⟨?_, owners_concat held.owners owned _, kept⟩
      rw [effect.2, current]
      exact held.attributed.register _ _ _ _ index

theorem PatchWork.Kept.create (held : work.Kept name owner (name index)) (owned : owner index)
    (address : UInt64) : (work.create library index address).2.Kept name owner (name index) := by
  cases answer : library address work.process.image work.process.protections with
  | error error =>
      have refused : library.service address work.process = .error error := by
        simp [HookLibrary.service, answer, Except.map]
      simpa [PatchWork.create, Mem.makeHook_refused refused, Except.isOk, Except.toBool] using held
  | ok created =>
      have granted : library.service address work.process = .ok (created.1,
          { work.process with image := created.2.1, protections := created.2.2 }) := by
        simp [HookLibrary.service, answer, Except.map]
      have made : Mem.makeHook library.service address work.process = (.ok created.1,
          { work.process with
            image := created.2.1
            protections := created.2.2
            patches := work.process.patches.registerPatch address
              (UInt64.ofNat created.1.length) created.1 work.process.currentHookName
              .midHook }) := by
        simp [Mem.makeHook, Mem.createMidHook, granted, Except.mapError]
      simp only [PatchWork.create, made, Except.isOk, Except.toBool, if_true]
      refine ⟨?_, owners_concat held.owners owned _, held.current⟩
      simp only [held.current]
      exact held.attributed.register _ _ _ _ index

theorem PatchWork.Kept.hook (held : work.Kept name owner (name index)) (owned : owner index)
    (named : name index ≠ []) (address endAddress : UInt64) :
    (work.hook system library index address endAddress).2.Kept name owner (name index) := by
  unfold PatchWork.hook
  by_cases erases : address < endAddress
  · rw [if_pos erases]
    have erased : (work.patch system index
        (.nop address (endAddress - address))).2.Kept name owner (name index) :=
      held.patch owned named _
    rcases run : work.patch system index (.nop address (endAddress - address))
      with ⟨written, after⟩
    rw [run] at erased
    cases written with
    | false => exact erased
    | true => exact erased.create owned address
  · rw [if_neg erases]
    exact held.create owned address

theorem HookBody.run_kept (body : HookBody) (named : name index ≠ []) (owned : owner index)
    (held : work.Kept name owner (name index)) :
    (body.run system library index work).2.Kept name owner (name index) := by
  induction body generalizing work with
  | done success => exact held
  | fault => exact held
  | throw => exact held
  | look next ih => exact ih _ held
  | patch call next ih => exact ih _ (held.patch owned named call)
  | hook address endAddress next ih => exact ih _ (held.hook owned named address endAddress)

theorem PatchWork.Kept.setName {before : Text} (held : work.Kept name owner before)
    (current : Text) : (work.setName current).Kept name owner current :=
  ⟨held.attributed, held.owners, rfl⟩

theorem PatchWork.Kept.mono {current : Text} {other : Fin count → Prop}
    (held : work.Kept name owner current) (weaker : ∀ index, owner index → other index) :
    work.Kept name other current :=
  ⟨held.attributed, fun touch member => weaker touch.2 (held.owners touch member), held.current⟩

end Attribution

variable {Pattern Value : Type} {hooks : HookList Pattern Value}

def hookName (hooks : HookList Pattern Value) (index : Fin hooks.count) : Text :=
  (hooks.traits index).name

structure HookPrograms (hooks : HookList Pattern Value) where
  install : (Pattern → Option UInt64) → Fin hooks.count → HookBody
  onReload : Fin hooks.count → List Value → HookBody

def InstallRun.reaches (addrs : Pattern → Option UInt64) (run : InstallRun hooks)
    (index : Fin hooks.count) : Bool :=
  (run.registry index).enabled && !(run.registry.firstUnmetHardDep index).isSome &&
    hooks.checkRequired addrs index

/-- `outcome` records what the calls of `install` did, and `thrower` the hook whose exception left
`install_all`. -/
structure InstallWork (hooks : HookList Pattern Value) where
  run : InstallRun hooks
  patched : PatchWork hooks.count
  outcome : Fin hooks.count → InstallOutcome
  thrower : Option (Fin hooks.count)

/-- `stopped` says that no `on_reload` will be called any more: `init_game` caught an exception and
started no watcher, or an `on_reload` faulted or threw, which nothing catches. -/
structure ReloadWork (hooks : HookList Pattern Value) where
  registry : Registry hooks
  patched : PatchWork hooks.count
  stopped : Bool

def InstallWork.finish (addrs : Pattern → Option UInt64) (index : Fin hooks.count)
    (outcome : InstallOutcome) (after : PatchWork hooks.count) (work : InstallWork hooks) :
    InstallWork hooks :=
  { work with
    run := work.run.turn addrs (fun _ => outcome) index
    patched := after.setName []
    outcome := Function.update work.outcome index outcome }

namespace HookPrograms

variable (system : System) (library : HookLibrary) (programs : HookPrograms hooks)
variable (addrs : Pattern → Option UInt64)

def turn (work : InstallWork hooks) (index : Fin hooks.count) : InstallWork hooks :=
  if work.thrower.isSome then work
  else if work.run.reaches addrs index then
    let result := (programs.install addrs index).run system library index
      (work.patched.setName (hookName hooks index))
    match result.1 with
    | .threw => { work with patched := result.2, thrower := some index }
    | .ended outcome => work.finish addrs index outcome result.2
  else { work with run := work.run.turn addrs work.outcome index }

def installAll (order : List (Fin hooks.count)) (ini : INIStructure) (journal : Journal)
    (process : Process) : InstallWork hooks :=
  order.foldl (turn system library programs addrs)
    { run :=
        { registry := ((Registry.initial hooks).loadConfigs ini).applyEnabledFlags ini
          journal, trace := [] }
      patched := ⟨process, []⟩
      outcome := fun _ => .failed
      thrower := none }

def callOnReload (work : ReloadWork hooks) (call : Fin hooks.count × List Value) :
    ReloadWork hooks :=
  if work.stopped then work
  else
    let result := (programs.onReload call.1 call.2).run system library call.1
      (work.patched.setName (hookName hooks call.1))
    if result.1 = .threw ∨ result.1 = .ended .faulted then
      { work with patched := result.2, stopped := true }
    else { work with patched := result.2.setName [] }

def reload (work : ReloadWork hooks) (ini : INIStructure) : ReloadWork hooks :=
  if work.stopped then work
  else
    let result := work.registry.reload ini
    result.calls.foldl (callOnReload system library programs)
      { work with registry := result.registry }

def session (order : List (Fin hooks.count)) (ini : INIStructure) (journal : Journal)
    (process : Process) (inis : List INIStructure) : ReloadWork hooks :=
  let installed := installAll system library programs addrs order ini journal process
  inis.foldl (reload system library programs)
    { registry := installed.run.registry
      patched := installed.patched
      stopped := installed.thrower.isSome }

end HookPrograms

section Sessions

variable {system : System} {library : HookLibrary} {programs : HookPrograms hooks}
variable {addrs : Pattern → Option UInt64}

theorem InstallRun.turn_congr {first second : Fin hooks.count → InstallOutcome}
    (run : InstallRun hooks) (index : Fin hooks.count)
    (same : run.reaches addrs index = true → first index = second index) :
    run.turn addrs first index = run.turn addrs second index := by
  unfold InstallRun.turn
  by_cases enabled : (run.registry index).enabled = true
  · by_cases unmet : (run.registry.firstUnmetHardDep index).isSome = true
    · simp [enabled, unmet]
    · by_cases required : hooks.checkRequired addrs index = true
      · have agree := same (by simp [InstallRun.reaches, enabled, unmet, required])
        simp [enabled, unmet, required, InstallRun.install, agree]
      · simp [enabled, unmet, required]
  · simp [enabled]

theorem reaches_iff (run : InstallRun hooks) (index : Fin hooks.count) :
    run.reaches addrs index = true ↔ run.Ready addrs index := by
  simp only [InstallRun.reaches, Bool.and_eq_true, Bool.not_eq_true', ← Bool.not_eq_true,
    Registry.firstUnmetHardDep_isSome, not_not, InstallRun.Ready, and_assoc]

inductive HookPrograms.Turned (programs : HookPrograms hooks) (system : System)
    (library : HookLibrary) (addrs : Pattern → Option UInt64) (work : InstallWork hooks)
    (index : Fin hooks.count) : InstallWork hooks → Prop
  | stopped (thrown : work.thrower.isSome = true) :
      Turned programs system library addrs work index work
  | skipped (going : work.thrower = none) (skips : work.run.reaches addrs index = false) :
      Turned programs system library addrs work index
        { work with run := work.run.turn addrs work.outcome index }
  | threw (after : PatchWork hooks.count) (going : work.thrower = none)
      (reached : work.run.reaches addrs index = true)
      (run : (programs.install addrs index).run system library index
        (work.patched.setName (hookName hooks index)) = (.threw, after)) :
      Turned programs system library addrs work index
        { work with patched := after, thrower := some index }
  | ended (outcome : InstallOutcome) (after : PatchWork hooks.count) (going : work.thrower = none)
      (reached : work.run.reaches addrs index = true)
      (run : (programs.install addrs index).run system library index
        (work.patched.setName (hookName hooks index)) = (.ended outcome, after)) :
      Turned programs system library addrs work index (work.finish addrs index outcome after)

theorem HookPrograms.turn_cases (work : InstallWork hooks) (index : Fin hooks.count) :
    programs.Turned system library addrs work index
      (programs.turn system library addrs work index) := by
  unfold HookPrograms.turn
  split
  · next thrown => exact .stopped thrown
  · next quiet =>
      have going : work.thrower = none := by simpa using quiet
      split
      · next reached =>
          rcases run : (programs.install addrs index).run system library index
            (work.patched.setName (hookName hooks index)) with ⟨bodyEnd, after⟩
          cases bodyEnd with
          | threw => exact .threw after going reached run
          | ended outcome => exact .ended outcome after going reached run
      · next skips => exact .skipped going (by simpa using skips)

theorem foldl_turn_stopped {work : InstallWork hooks} (thrown : work.thrower.isSome = true)
    (order : List (Fin hooks.count)) :
    order.foldl (programs.turn system library addrs) work = work := by
  induction order with
  | nil => rfl
  | cons first rest ih =>
      have stays : programs.turn system library addrs work first = work := if_pos thrown
      rw [List.foldl_cons, stays, ih]

theorem foldl_turn_outcome {order : List (Fin hooks.count)} {index : Fin hooks.count}
    (absent : index ∉ order) (work : InstallWork hooks) :
    (order.foldl (programs.turn system library addrs) work).outcome index =
      work.outcome index := by
  induction order generalizing work with
  | nil => rfl
  | cons first rest ih =>
      rw [List.foldl_cons, ih (fun member => absent (List.mem_cons_of_mem _ member))]
      have other : index ≠ first := fun same => absent (same ▸ List.mem_cons_self)
      have turned : programs.Turned system library addrs work first
          (programs.turn system library addrs work first) := HookPrograms.turn_cases work first
      generalize programs.turn system library addrs work first = after at turned
      cases turned with
      | stopped _ => rfl
      | skipped _ _ => rfl
      | threw _ _ _ _ => rfl
      | ended outcome _ _ _ _ => exact Function.update_of_ne other _ _

/-- The hooks whose turns were completed: all of them, or those before the one that threw. -/
def InstallWork.Completed (addrs : Pattern → Option UInt64) (work : InstallWork hooks)
    (order done : List (Fin hooks.count)) : Prop :=
  match work.thrower with
  | none => done = order
  | some index => work.run.Ready addrs index ∧ ∃ later, order = done ++ index :: later

theorem InstallWork.Completed.cons {work : InstallWork hooks}
    {order done : List (Fin hooks.count)} (completed : work.Completed addrs order done)
    (first : Fin hooks.count) : work.Completed addrs (first :: order) (first :: done) := by
  unfold InstallWork.Completed at completed ⊢
  cases thrower : work.thrower with
  | none =>
      rw [thrower] at completed
      exact congrArg (first :: ·) completed
  | some index =>
      rw [thrower] at completed
      obtain ⟨ready, later, split⟩ := completed
      exact ⟨ready, later, congrArg (first :: ·) split⟩

/-- A turn with its body is a turn with the outcome the body had, which stays recorded. -/
theorem foldl_turn_run {order : List (Fin hooks.count)} (unique : order.Nodup)
    {work : InstallWork hooks} (going : work.thrower = none) :
    ∃ done, (order.foldl (programs.turn system library addrs) work).Completed addrs order done ∧
      (order.foldl (programs.turn system library addrs) work).run =
        done.foldl (InstallRun.turn addrs
          (order.foldl (programs.turn system library addrs) work).outcome) work.run := by
  induction order generalizing work with
  | nil =>
      refine ⟨[], ?_, rfl⟩
      unfold InstallWork.Completed
      rw [List.foldl_nil, going]
  | cons index rest ih =>
      obtain ⟨fresh, restUnique⟩ := List.nodup_cons.mp unique
      rw [List.foldl_cons]
      have recorded : (rest.foldl (programs.turn system library addrs)
          (programs.turn system library addrs work index)).outcome index =
            (programs.turn system library addrs work index).outcome index :=
        foldl_turn_outcome fresh _
      have turned : programs.Turned system library addrs work index
          (programs.turn system library addrs work index) := HookPrograms.turn_cases work index
      generalize programs.turn system library addrs work index = after at turned recorded
      cases turned with
      | stopped thrown => simp [going] at thrown
      | skipped _ skips =>
          have stillGoing : InstallWork.thrower
              { work with run := work.run.turn addrs work.outcome index } = none := going
          obtain ⟨done, completed, run⟩ := ih restUnique stillGoing
          refine ⟨index :: done, completed.cons index, run.trans ?_⟩
          rw [List.foldl_cons]
          congr 1
          exact InstallRun.turn_congr _ _ fun reached =>
            absurd (skips.symm.trans reached) Bool.false_ne_true
      | threw after _ reached _ =>
          rw [foldl_turn_stopped rfl]
          exact ⟨[], ⟨(reaches_iff work.run index).mp reached, rest, rfl⟩, rfl⟩
      | ended outcome after _ reached _ =>
          have stillGoing : (work.finish addrs index outcome after).thrower = none := going
          obtain ⟨done, completed, run⟩ := ih restUnique stillGoing
          refine ⟨index :: done, completed.cons index, run.trans ?_⟩
          rw [List.foldl_cons]
          congr 1
          refine InstallRun.turn_congr _ _ fun _ => ?_
          rw [recorded]
          exact (Function.update_self index outcome work.outcome).symm

/-- Installing with the bodies is installing with the outcomes they have, up to the hook whose
exception ends it, the list of hooks being one that compiles. -/
theorem installAll_refines {order : List (Fin hooks.count)} (sorted : hooks.Sorted order)
    (ini : INIStructure) (journal : Journal) (process : Process) :
    ∃ done, (programs.installAll system library addrs order ini journal process).Completed addrs
        order done ∧
      (programs.installAll system library addrs order ini journal process).run =
        (Registry.initial hooks).installAll done addrs
          (programs.installAll system library addrs order ini journal process).outcome ini
          journal :=
  foldl_turn_run sorted.unique rfl

theorem turn_attempted {outcome : Fin hooks.count → InstallOutcome} (run : InstallRun hooks)
    (index other : Fin hooks.count)
    (attempted : .attempt other ∈ run.trace ∨ (other = index ∧ run.Ready addrs index)) :
    .attempt other ∈ (run.turn addrs outcome index).trace := by
  have turned : InstallRun.Turned addrs outcome run index (run.turn addrs outcome index) :=
    run.turn_cases index
  generalize run.turn addrs outcome index = after at turned
  cases turned with
  | skipped notReady =>
      rcases attempted with earlier | ⟨_, ready⟩
      · exact List.mem_append_left _ earlier
      · exact absurd ready notReady
  | failed _ _ =>
      rcases attempted with earlier | ⟨rfl, _⟩
      · exact List.mem_append_left _ earlier
      · simp
  | installed _ _ =>
      rcases attempted with earlier | ⟨rfl, _⟩
      · exact List.mem_append_left _ earlier
      · simp

theorem turn_installed {outcome : Fin hooks.count → InstallOutcome} (run : InstallRun hooks)
    (index other : Fin hooks.count)
    (installed : ((run.turn addrs outcome index).registry other).installed = true) :
    (run.registry other).installed = true ∨ (other = index ∧ run.Ready addrs index) := by
  have turned : InstallRun.Turned addrs outcome run index (run.turn addrs outcome index) :=
    run.turn_cases index
  generalize run.turn addrs outcome index = after at turned installed
  cases turned with
  | skipped _ => exact Or.inl (by simpa using installed)
  | failed _ _ => exact Or.inl (by simpa using installed)
  | installed ready _ =>
      rw [Registry.setInstalled_installed] at installed
      by_cases same : other = index
      · exact Or.inr ⟨same, ready⟩
      · exact Or.inl (by simpa [same] using installed)

def InstallWork.Attempted (work : InstallWork hooks) (index : Fin hooks.count) : Prop :=
  .attempt index ∈ work.run.trace ∨ work.thrower = some index

structure InstallAttributed (work : InstallWork hooks) : Prop where
  kept : work.patched.Kept (hookName hooks) work.Attempted
    (work.thrower.elim [] (hookName hooks))
  installed : ∀ index, (work.run.registry index).installed = true →
    .attempt index ∈ work.run.trace

theorem InstallAttributed.traced {work : InstallWork hooks} (held : InstallAttributed work)
    (outcome : Fin hooks.count → InstallOutcome) (index other : Fin hooks.count)
    (installed : ((work.run.turn addrs outcome index).registry other).installed = true) :
    .attempt other ∈ (work.run.turn addrs outcome index).trace := by
  apply turn_attempted
  rcases turn_installed work.run index other installed with earlier | now
  · exact Or.inl (held.installed other earlier)
  · exact Or.inr now

theorem InstallAttributed.turn {work : InstallWork hooks} (held : InstallAttributed work)
    (named : ∀ index, hookName hooks index ≠ []) (index : Fin hooks.count) :
    InstallAttributed (programs.turn system library addrs work index) := by
  have turned : programs.Turned system library addrs work index
      (programs.turn system library addrs work index) := HookPrograms.turn_cases work index
  generalize programs.turn system library addrs work index = after at turned
  -- before anything has thrown, the attempts are those of the trace
  have earlier (going : work.thrower = none) (other : Fin hooks.count)
      (attempted : work.Attempted other) : .attempt other ∈ work.run.trace :=
    attempted.resolve_right (by simp [going])
  cases turned with
  | stopped _ => exact held
  | skipped going _ =>
      refine ⟨held.kept.mono fun other attempted => Or.inl ?_, held.traced _ index⟩
      exact turn_attempted work.run index other (Or.inl (earlier going other attempted))
  | threw after going _ run =>
      have body : ((programs.install addrs index).run system library index
          (work.patched.setName (hookName hooks index))).2.Kept (hookName hooks)
            (fun other => .attempt other ∈ work.run.trace ∨ some index = some other)
            (hookName hooks index) :=
        HookBody.run_kept _ (named index) (Or.inr rfl)
          ((held.kept.setName _).mono fun other attempted => Or.inl (earlier going other attempted))
      rw [run] at body
      exact ⟨body, held.installed⟩
  | ended outcome after going reached run =>
      have ready := (reaches_iff work.run index).mp reached
      have body : ((programs.install addrs index).run system library index
          (work.patched.setName (hookName hooks index))).2.Kept (hookName hooks)
            (fun other => .attempt other ∈ (work.run.turn addrs (fun _ => outcome) index).trace)
            (hookName hooks index) :=
        HookBody.run_kept _ (named index)
          (turn_attempted work.run index index (Or.inr ⟨rfl, ready⟩))
          ((held.kept.setName _).mono fun other attempted =>
            turn_attempted work.run index other (Or.inl (earlier going other attempted)))
      rw [run] at body
      have unset :
          (work.finish addrs index outcome after).thrower.elim [] (hookName hooks) = [] := by
        rw [InstallWork.finish, going, Option.elim_none]
      refine ⟨?_, held.traced _ index⟩
      rw [unset]
      exact (body.setName []).mono fun other attempted => Or.inl attempted

theorem installAll_attributed {order : List (Fin hooks.count)} {ini : INIStructure}
    {journal : Journal} {process : Process} (named : ∀ index, hookName hooks index ≠ [])
    (fresh : process.patches = PatchTable.empty) (unnamed : process.currentHookName = []) :
    InstallAttributed (programs.installAll system library addrs order ini journal process) := by
  apply TransitionRun.foldl_invariant InstallAttributed
  · refine ⟨⟨?_, by simp, unnamed⟩, ?_⟩
    · intro base name
      simp [fresh, PatchTable.empty, firstToucher]
    · intro index installed
      rw [applyConfiguration_installed] at installed
      exact absurd installed Bool.false_ne_true
  · exact fun work held index _ => held.turn named index

/-- The registry names the first hook at each base, one whose `install` was called; a name is set
only where no hook comes to be called any more, and is then that of such a hook. -/
structure ReloadAttributed (attempted : Fin hooks.count → Prop) (work : ReloadWork hooks) :
    Prop where
  attributed : Attributed (hookName hooks) work.patched.process.patches work.patched.touches
  owners : ∀ touch ∈ work.patched.touches, attempted touch.2
  unnamed : work.stopped = false → work.patched.process.currentHookName = []
  named : work.stopped = true →
    ∃ index, attempted index ∧ work.patched.process.currentHookName = hookName hooks index
  installed : ∀ index, (work.registry index).installed = true → attempted index

theorem ReloadAttributed.callOnReload {attempted : Fin hooks.count → Prop}
    {work : ReloadWork hooks} (held : ReloadAttributed attempted work)
    (named : ∀ index, hookName hooks index ≠ []) {call : Fin hooks.count × List Value}
    (installed : attempted call.1) :
    ReloadAttributed attempted (programs.callOnReload system library work call) := by
  unfold HookPrograms.callOnReload
  split
  · exact held
  · next alive =>
      have before : work.patched.Kept (hookName hooks) attempted [] :=
        ⟨held.attributed, held.owners, held.unnamed (by simpa using alive)⟩
      have after : ((programs.onReload call.1 call.2).run system library call.1
          (work.patched.setName (hookName hooks call.1))).2.Kept (hookName hooks) attempted
            (hookName hooks call.1) :=
        HookBody.run_kept _ (named call.1) installed (before.setName _)
      simp only
      split
      · exact
          { attributed := after.attributed
            owners := after.owners
            unnamed := fun alive => by simp at alive
            named := fun _ => ⟨call.1, installed, after.current⟩
            installed := held.installed }
      · exact
          { attributed := after.attributed
            owners := after.owners
            unnamed := fun _ => rfl
            named := fun stopped => absurd stopped alive
            installed := held.installed }

theorem ReloadAttributed.reload {attempted : Fin hooks.count → Prop}
    {work : ReloadWork hooks} (held : ReloadAttributed attempted work)
    (named : ∀ index, hookName hooks index ≠ []) (ini : INIStructure) :
    ReloadAttributed attempted (programs.reload system library work ini) := by
  unfold HookPrograms.reload
  split
  · exact held
  · apply TransitionRun.foldl_invariant (ReloadAttributed attempted)
    · refine ⟨held.attributed, held.owners, held.unnamed, held.named, ?_⟩
      intro index installed
      exact held.installed index (by simpa using
        (afterReload_installed work.registry ini index).symm.trans installed)
    · intro later kept call member
      apply kept.callOnReload named
      have called : call.1 ∈ (work.registry.reload ini).called :=
        List.mem_map_of_mem member
      exact held.installed call.1 (mem_reload_called.mp called).2.1

theorem InstallAttributed.reloadable {work : InstallWork hooks} (held : InstallAttributed work) :
    ReloadAttributed work.Attempted
      { registry := work.run.registry, patched := work.patched, stopped := work.thrower.isSome } where
  attributed := held.kept.attributed
  owners := held.kept.owners
  unnamed := fun going => by
    have none : work.thrower = none := by simpa using going
    rw [held.kept.current, none, Option.elim_none]
  named := fun stopped => by
    obtain ⟨index, thrower⟩ := Option.isSome_iff_exists.mp stopped
    exact ⟨index, Or.inr thrower, by rw [held.kept.current, thrower, Option.elim_some]⟩
  installed := fun index installed => Or.inl (held.installed index installed)

theorem session_attributed {order : List (Fin hooks.count)} {ini : INIStructure}
    {journal : Journal} {process : Process} (named : ∀ index, hookName hooks index ≠ [])
    (fresh : process.patches = PatchTable.empty) (unnamed : process.currentHookName = [])
    (inis : List INIStructure) :
    ReloadAttributed
      (programs.installAll system library addrs order ini journal process).Attempted
      (programs.session system library addrs order ini journal process inis) := by
  have installed : InstallAttributed
      (programs.installAll system library addrs order ini journal process) :=
    installAll_attributed named fresh unnamed
  apply TransitionRun.foldl_invariant (ReloadAttributed _)
  · exact installed.reloadable
  · exact fun work held latest _ => held.reload named latest

end Sessions

def faultingPrograms : HookPrograms Rogue.bareHooks where
  install := fun _ index =>
    .patch (.nop (0x140001000 + 16 * UInt64.ofNat index.val) 5) fun _ =>
      if index.val = 3 then .throw else .fault
  onReload := fun _ _ => .done true

def noHooks : HookLibrary := fun _ _ _ => .error .badAllocation

theorem session_attributed_rogue :
    ReloadAttributed
      (faultingPrograms.installAll granting noHooks (fun _ => some 0) Rogue.installOrder
        INIStructure.empty (Journal.atLoad none) untouched).Attempted
      (faultingPrograms.session granting noHooks (fun _ => some 0) Rogue.installOrder
        INIStructure.empty (Journal.atLoad none) untouched [INIStructure.empty]) :=
  session_attributed (by decide) rfl rfl _

theorem installAll_refines_rogue :
    ∃ done, (faultingPrograms.installAll granting noHooks (fun _ => some 0) Rogue.installOrder
        INIStructure.empty (Journal.atLoad none) untouched).Completed (fun _ => some 0)
          Rogue.installOrder done ∧
      (faultingPrograms.installAll granting noHooks (fun _ => some 0) Rogue.installOrder
          INIStructure.empty (Journal.atLoad none) untouched).run =
        (Registry.initial Rogue.bareHooks).installAll done (fun _ => some 0)
          (faultingPrograms.installAll granting noHooks (fun _ => some 0) Rogue.installOrder
            INIStructure.empty (Journal.atLoad none) untouched).outcome
          INIStructure.empty (Journal.atLoad none) :=
  installAll_refines (HookList.sorted_of_count (Rogue.allHooks_sorted _)) _ _ _

end PatchFix
