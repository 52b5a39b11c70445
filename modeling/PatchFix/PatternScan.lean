import PatchFix.Library.PartialFold
import PatchFix.RegistryInstall
import PatchFix.Syndicate.AllHooks

/-!
The pattern scan of `init_game`: each signature of the game is looked up once in the scan range, and
the addresses that come out decide which hooks `install_all` installs.
-/

namespace PatchFix

open DependencyGraph

/-- `ScanEntry`; the offset is a `ptrdiff_t` in two's complement. -/
structure ScanEntry (Field : Type) where
  name : Text
  field : Field
  offset : UInt64
  bytes : Text

structure ScanTable (Field : Type) where
  entries : List (ScanEntry Field)
  distinct : (entries.map ScanEntry.field).Nodup

abbrev PatternSearch := Text → List UInt64

variable {Field : Type}

def decimal (number : Nat) : Text := Nat.toDigits 10 number

def findUnique (search : PatternSearch) (name bytes : Text) (offset : UInt64) :
    Except Text UInt64 :=
  match search bytes with
  | [found] => .ok (found + offset)
  | pattern =>
      .error ("Pattern ".toList ++ name ++ ": ".toList ++
        (if pattern.length = 0 then "NOT FOUND" else "AMBIGUOUS").toList ++
        " (found ".toList ++ decimal pattern.length ++ [')'])

def ScanEntry.find (search : PatternSearch) (entry : ScanEntry Field) : Except Text UInt64 :=
  findUnique search entry.name entry.bytes entry.offset

structure ScanResult (Field : Type) where
  addrs : Field → Option UInt64
  allFound : Bool
  warnings : List Text

section Scan

variable [DecidableEq Field] (search : PatternSearch) (table : ScanTable Field)

def scanEntry (result : ScanResult Field) (entry : ScanEntry Field) : ScanResult Field :=
  match entry.find search with
  | .ok address => { result with addrs := Function.update result.addrs entry.field (some address) }
  | .error message =>
      { result with allFound := false, warnings := result.warnings ++ [message] }

def ScanTable.scan : ScanResult Field :=
  table.entries.foldl (scanEntry search) ⟨fun _ => none, true, []⟩

def ScanTable.patternName (field : Field) : Text :=
  match table.entries.find? fun entry => entry.field = field with
  | some entry => entry.name
  | none => "<unscanned>".toList

def optionalWarning (hookName patternName : Text) : Text :=
  "Hook '".toList ++ hookName ++ "': optional pattern '".toList ++ patternName ++
    "' not found, part of this hook is inactive".toList

def ScanTable.reportOptional {count : Nat} {Value : Type} (addrs : Field → Option UInt64)
    (traits : HookTraits count Field Value) : List Text :=
  (traits.optionalPatterns.filter fun field => (addrs field).isNone).map fun field =>
    optionalWarning traits.name (table.patternName field)

end Scan

def ScanEntry.MatchedAt (search : PatternSearch) (entry : ScanEntry Field) (address : UInt64) :
    Prop :=
  ∃ found, search entry.bytes = [found] ∧ address = found + entry.offset

def ScanTable.Unique (search : PatternSearch) (table : ScanTable Field) (field : Field) : Prop :=
  ∃ entry ∈ table.entries, entry.field = field ∧ (search entry.bytes).length = 1

theorem ScanEntry.find_ok {search : PatternSearch} {entry : ScanEntry Field} {address : UInt64} :
    entry.find search = .ok address ↔ entry.MatchedAt search address := by
  unfold ScanEntry.find findUnique ScanEntry.MatchedAt
  split
  · next found single => simp [single, eq_comm]
  · next many =>
      constructor
      · rintro ⟨⟩
      · rintro ⟨found, single, _⟩
        exact absurd single (many found)

theorem ScanEntry.exists_matchedAt {search : PatternSearch} {entry : ScanEntry Field} :
    (∃ address, entry.MatchedAt search address) ↔ (search entry.bytes).length = 1 := by
  rw [List.length_eq_one_iff]
  constructor
  · rintro ⟨_, found, single, _⟩
    exact ⟨found, single⟩
  · rintro ⟨found, single⟩
    exact ⟨_, found, single, rfl⟩

def ScanEntry.failure (search : PatternSearch) (entry : ScanEntry Field) : Option Text :=
  match entry.find search with
  | .ok _ => none
  | .error message => some message

structure ScanResult.Scanned (search : PatternSearch) (scanned : List (ScanEntry Field))
    (result : ScanResult Field) : Prop where
  addrs : ∀ field address, result.addrs field = some address ↔
    ∃ entry ∈ scanned, entry.field = field ∧ entry.MatchedAt search address
  allFound : result.allFound = true ↔ ∀ entry ∈ scanned, (search entry.bytes).length = 1
  warnings : result.warnings = scanned.filterMap (ScanEntry.failure search)

section ScanLoop

variable [DecidableEq Field] {search : PatternSearch} {result : ScanResult Field}
variable {scanned : List (ScanEntry Field)} {entry : ScanEntry Field}

theorem ScanResult.Scanned.found (held : result.Scanned search scanned)
    (fresh : entry.field ∉ scanned.map ScanEntry.field) {address : UInt64}
    (found : entry.find search = .ok address) :
    (scanEntry search result entry).Scanned search (scanned ++ [entry]) := by
  have matched := ScanEntry.find_ok.mp found
  have once := ScanEntry.exists_matchedAt.mp ⟨address, matched⟩
  have silent : entry.failure search = none := by simp [ScanEntry.failure, found]
  simp only [scanEntry, found]
  refine ⟨fun field other => ?_, ?_, ?_⟩
  · by_cases same : entry.field = field
    · subst same
      have unfilled (other : ScanEntry Field) (member : other ∈ scanned) :
          other.field ≠ entry.field :=
        fun same => fresh (same ▸ List.mem_map_of_mem member)
      have unique : entry.MatchedAt search other ↔ address = other := by
        rw [← ScanEntry.find_ok, found, Except.ok.injEq]
      simp only [Function.update_self, Option.some.injEq, List.mem_append, List.mem_singleton,
        or_and_right, exists_or, exists_eq_left, true_and, unique]
      constructor
      · exact Or.inr
      · rintro (⟨earlier, member, same, _⟩ | equal)
        · exact absurd same (unfilled earlier member)
        · exact equal
    · show Function.update result.addrs entry.field (some address) field = some other ↔ _
      rw [Function.update_of_ne (Ne.symm same), held.addrs]
      simp [or_and_right, exists_or, same]
  · rw [held.allFound, List.forall_mem_append, List.forall_mem_singleton]
    exact ⟨fun all => ⟨all, once⟩, And.left⟩
  · simp [held.warnings, silent]

theorem ScanResult.Scanned.missed (held : result.Scanned search scanned) {message : Text}
    (missed : entry.find search = .error message) :
    (scanEntry search result entry).Scanned search (scanned ++ [entry]) := by
  have unmatched (address : UInt64) : ¬entry.MatchedAt search address := by
    rw [← ScanEntry.find_ok, missed]
    rintro ⟨⟩
  have repeated : (search entry.bytes).length ≠ 1 := fun once =>
    (ScanEntry.exists_matchedAt.mpr once).elim unmatched
  have reported : entry.failure search = some message := by simp [ScanEntry.failure, missed]
  simp only [scanEntry, missed]
  refine ⟨fun field address => ?_, ?_, ?_⟩
  · rw [held.addrs]
    simp [or_and_right, exists_or, unmatched]
  · simp [repeated]
  · simp [held.warnings, reported]

theorem ScanTable.scan_scanned (search : PatternSearch) (table : ScanTable Field) :
    (table.scan search).Scanned search table.entries := by
  apply PartialFold.foldl_invariant
  · exact ⟨by simp, by simp, rfl⟩
  · intro done entry rest result split held
    have fresh : entry.field ∉ done.map ScanEntry.field := by
      have distinct := table.distinct
      rw [split, List.map_append, List.map_cons, List.nodup_append] at distinct
      exact fun member => distinct.2.2 _ member _ (by simp) rfl
    cases found : entry.find search with
    | ok address => exact held.found fresh found
    | error message => exact held.missed found

theorem ScanTable.scan_isSome (search : PatternSearch) (table : ScanTable Field) (field : Field) :
    ((table.scan search).addrs field).isSome = true ↔ table.Unique search field := by
  simp only [Option.isSome_iff_exists, (table.scan_scanned search).addrs]
  constructor
  · rintro ⟨address, entry, member, same, matched⟩
    exact ⟨entry, member, same, ScanEntry.exists_matchedAt.mp ⟨address, matched⟩⟩
  · rintro ⟨entry, member, same, once⟩
    obtain ⟨address, matched⟩ := ScanEntry.exists_matchedAt.mpr once
    exact ⟨address, entry, member, same, matched⟩

omit [DecidableEq Field] in
theorem ScanTable.entry_unique (table : ScanTable Field) {first second : ScanEntry Field}
    (left : first ∈ table.entries) (right : second ∈ table.entries)
    (same : first.field = second.field) : first = second :=
  List.inj_on_of_nodup_map table.distinct left right same

theorem ScanTable.patternName_eq (table : ScanTable Field) (member : entry ∈ table.entries) :
    table.patternName entry.field = entry.name := by
  unfold patternName
  cases found : table.entries.find? fun other => other.field = entry.field with
  | none =>
      rw [List.find?_eq_none] at found
      exact absurd (found entry member) (by simp)
  | some other =>
      have same : other.field = entry.field := by simpa using List.find?_some found
      rw [table.entry_unique (List.mem_of_find?_eq_some found) member same]

omit [DecidableEq Field] in
theorem ScanTable.unique_iff (table : ScanTable Field) (member : entry ∈ table.entries) :
    table.Unique search entry.field ↔ (search entry.bytes).length = 1 := by
  constructor
  · rintro ⟨other, present, same, once⟩
    rwa [table.entry_unique present member same] at once
  · exact fun once => ⟨entry, member, rfl, once⟩

/-- Two fields that one signature fills lie as far apart as their offsets. -/
theorem ScanTable.scan_shared (search : PatternSearch) (table : ScanTable Field)
    {first second : ScanEntry Field} (left : first ∈ table.entries)
    (right : second ∈ table.entries) (shared : first.bytes = second.bytes) :
    (table.scan search).addrs second.field =
      ((table.scan search).addrs first.field).map fun address =>
        address - first.offset + second.offset := by
  have scanned := table.scan_scanned search
  ext address
  simp only [Option.map_eq_some_iff, scanned.addrs]
  constructor
  · rintro ⟨entry, member, same, found, single, rfl⟩
    obtain rfl := table.entry_unique member right same
    refine ⟨found + first.offset, ⟨first, left, rfl, found, shared ▸ single, rfl⟩, ?_⟩
    rw [UInt64.add_sub_cancel]
  · rintro ⟨_, ⟨entry, member, same, found, single, rfl⟩, rfl⟩
    obtain rfl := table.entry_unique member left same
    refine ⟨second, right, rfl, found, shared ▸ single, ?_⟩
    rw [UInt64.add_sub_cancel]

end ScanLoop

section ScannedInstall

variable [DecidableEq Field] {Value : Type} {hooks : HookList Field Value}
variable (search : PatternSearch) (table : ScanTable Field)
variable (outcome : Fin hooks.count → InstallOutcome) (ini : INIStructure)

def ScanTable.optionalWarnings (run : InstallRun hooks) : List Text :=
  (installsOf run.trace).flatMap fun index =>
    table.reportOptional (table.scan search).addrs (hooks.traits index)

structure ScannedInstall (run : InstallRun hooks) : Prop where
  installed : ∀ index, (run.registry index).installed = true ↔
    Throughout hooks.HardDep (fun dep => hooks.iniEnabled ini dep = true ∧
      (∀ field ∈ (hooks.traits dep).requiredPatterns, table.Unique search field) ∧
        outcome dep = .succeeded) index
  addrs : ∀ index, (run.registry index).installed = true →
    ∀ field ∈ (hooks.traits index).requiredPatterns, ∃ entry ∈ table.entries, entry.field = field ∧
      ∃ found, search entry.bytes = [found] ∧
        (table.scan search).addrs field = some (found + entry.offset)
  reported : ∀ line, line ∈ table.optionalWarnings search run ↔
    ∃ index, (run.registry index).installed = true ∧
      ∃ entry ∈ table.entries, entry.field ∈ (hooks.traits index).optionalPatterns ∧
        (search entry.bytes).length ≠ 1 ∧
          line = optionalWarning (hooks.traits index).name entry.name

def ScanTable.Covers (table : ScanTable Field) (hooks : HookList Field Value) : Prop :=
  ∀ index, ∀ field ∈ (hooks.traits index).requiredPatterns ++ (hooks.traits index).optionalPatterns,
    field ∈ table.entries.map ScanEntry.field

theorem ScanTable.checkRequired_iff (index : Fin hooks.count) :
    hooks.checkRequired (table.scan search).addrs index = true ↔
      ∀ field ∈ (hooks.traits index).requiredPatterns, table.Unique search field := by
  simp only [HookList.checkRequired, List.all_eq_true, table.scan_isSome search]

theorem ScanTable.mem_reportOptional {table : ScanTable Field} (covers : table.Covers hooks)
    (index : Fin hooks.count) (line : Text) :
    line ∈ table.reportOptional (table.scan search).addrs (hooks.traits index) ↔
      ∃ entry ∈ table.entries, entry.field ∈ (hooks.traits index).optionalPatterns ∧
        (search entry.bytes).length ≠ 1 ∧
          line = optionalWarning (hooks.traits index).name entry.name := by
  have missing (field : Field) : ((table.scan search).addrs field).isNone = true ↔
      ¬table.Unique search field := by
    rw [← table.scan_isSome search, Option.not_isSome_iff_eq_none, Option.isNone_iff_eq_none]
  simp only [reportOptional, List.mem_map, List.mem_filter, missing]
  constructor
  · rintro ⟨field, ⟨optional, absent⟩, rfl⟩
    obtain ⟨entry, member, rfl⟩ :=
      List.mem_map.mp (covers index field (List.mem_append_right _ optional))
    rw [table.unique_iff member] at absent
    exact ⟨entry, member, optional, absent, by rw [table.patternName_eq member]⟩
  · rintro ⟨entry, member, optional, absent, rfl⟩
    refine ⟨entry.field, ⟨optional, fun unique => absent ?_⟩, by rw [table.patternName_eq member]⟩
    exact (table.unique_iff member).mp unique

theorem ScanTable.scan_installs {table : ScanTable Field} {order : List (Fin hooks.count)}
    (covers : table.Covers hooks) (sorted : hooks.Sorted order) (journal : Journal) :
    ScannedInstall search table outcome ini
      ((Registry.initial hooks).installAll order (table.scan search).addrs outcome ini
        journal) := by
  have installed := installAll_installed (table.scan search).addrs outcome ini journal sorted
  have invariant := installAll_invariant (table.scan search).addrs outcome ini journal sorted
  refine ⟨fun index => ?_, fun index done field required => ?_, fun line => ?_⟩
  · rw [installed, HookList.InstalledBy]
    simp only [HookList.Installable, table.checkRequired_iff search]
  · have checked := ((installed index).mp done).self.2.1
    rw [table.checkRequired_iff search] at checked
    obtain ⟨entry, member, same, once⟩ := checked field required
    obtain ⟨found, single⟩ := List.length_eq_one_iff.mp once
    exact ⟨entry, member, same, found, single,
      ((table.scan_scanned search).addrs _ _).mpr ⟨entry, member, same, found, single, rfl⟩⟩
  · simp only [optionalWarnings, invariant.installs, List.mem_flatMap, List.mem_filter,
      sorted.complete, true_and, mem_reportOptional search covers]

end ScannedInstall

end PatchFix
