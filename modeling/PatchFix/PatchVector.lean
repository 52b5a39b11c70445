import Mathlib.Data.List.Induction
import PatchFix.PatchLookup

/-!
`diagnostics::patch_registry` over `g_patches` as the vector it is: nothing about its order is part
of the type, its searches halve, and an entry has the whole array of its bytes.
-/

namespace PatchFix

open SortedSearch

/-- `PatchEntry` with the array `original_bytes`, of which `original_size` bytes are recorded. -/
structure StoredPatch where
  base : UInt64
  size : UInt64
  originalBytes : List UInt8
  wholeArray : originalBytes.length = 64
  originalSize : UInt8
  hookName : Text
  type : PatchType
  deriving DecidableEq

structure RegisterCall where
  base : UInt64
  size : UInt64
  original : List UInt8
  hookName : Text
  type : PatchType

def copyN (source : List UInt8) (count : Nat) (target : List UInt8) : List UInt8 :=
  source.take count ++ target.drop count

namespace RegisterCall

def copySize (call : RegisterCall) : Nat := min call.original.length 64

theorem length_take_copySize (call : RegisterCall) :
    (call.original.take call.copySize).length = call.copySize := by
  rw [List.length_take, copySize]
  omega

def stored (call : RegisterCall) : StoredPatch where
  base := call.base
  size := call.size
  originalBytes := copyN call.original call.copySize (List.replicate 64 0)
  wholeArray := by
    rw [copyN, List.length_append, length_take_copySize, List.length_drop, List.length_replicate,
      copySize]
    omega
  originalSize := UInt8.ofNat call.copySize
  hookName := call.hookName
  type := call.type

end RegisterCall

structure StoredPatch.Records (patch : StoredPatch) (call : RegisterCall) : Prop where
  base : patch.base = call.base
  size : patch.size = call.size
  hookName : patch.hookName = call.hookName
  type : patch.type = call.type
  originalSize : patch.originalSize.toNat = min 64 call.original.length
  originalBytes : patch.originalBytes.take patch.originalSize.toNat =
    call.original.take (min 64 call.original.length)

theorem RegisterCall.stored_records (call : RegisterCall) : call.stored.Records call := by
  have counted : call.stored.originalSize.toNat = call.copySize := by
    show (UInt8.ofNat call.copySize).toNat = call.copySize
    rw [UInt8.toNat_ofNat', Nat.mod_eq_of_lt]
    exact (Nat.min_le_right _ 64).trans_lt (by decide)
  have same : call.copySize = min 64 call.original.length := Nat.min_comm _ _
  refine ⟨rfl, rfl, rfl, rfl, counted.trans same, ?_⟩
  rw [counted, ← same]
  show (copyN call.original call.copySize (List.replicate 64 0)).take call.copySize = _
  rw [copyN, List.take_left' call.length_take_copySize]

abbrev PatchVector := List StoredPatch

namespace PatchVector

def registerPatch (gPatches : PatchVector) (call : RegisterCall) : PatchVector :=
  let it := lowerBound (fun patch => decide (patch.base < call.base)) gPatches
  match gPatches[it]? with
  | none => gPatches.take it ++ call.stored :: gPatches.drop it
  | some found =>
      if found.base = call.base then gPatches
      else gPatches.take it ++ call.stored :: gPatches.drop it

def allPatches (gPatches : PatchVector) : List StoredPatch := gPatches

def findPatch (addr : UInt64) (gPatches : PatchVector) : Option StoredPatch :=
  match itemBefore gPatches (lowerBound (fun patch => decide (patch.base ≤ addr)) gPatches) with
  | none => none
  | some patch => if patch.base ≤ addr ∧ addr < patch.base + patch.size then some patch else none

/-- The first branch of `find_nearby`, with the `best_dist` it leaves. -/
def nearestPrev (addr threshold : UInt64) (gPatches : PatchVector) : Option StoredPatch × UInt64 :=
  match itemBefore gPatches (lowerBound (fun patch => decide (patch.base < addr)) gPatches) with
  | none => (none, threshold + 1)
  | some prev =>
      let pastEnd := prev.base + prev.size
      if pastEnd ≤ addr ∧ addr - pastEnd < threshold + 1 then (some prev, addr - pastEnd)
      else (none, threshold + 1)

def findNearby (addr threshold : UInt64) (gPatches : PatchVector) : Option StoredPatch :=
  let (best, bestDist) := gPatches.nearestPrev addr threshold
  match gPatches[lowerBound (fun patch => decide (patch.base < addr)) gPatches]? with
  | none => best
  | some next => if addr < next.base ∧ next.base - addr < bestDist then some next else best

def registered (calls : List RegisterCall) : PatchVector := calls.foldl registerPatch []

def Sorted (gPatches : PatchVector) : Prop :=
  Ascending (fun patch : StoredPatch => patch.base.toNat) gPatches

theorem places_stored (call : RegisterCall) :
    Places (fun patch : StoredPatch => patch.base.toNat)
      (fun patch => decide (patch.base < call.base))
      (fun patch => decide (patch.base = call.base)) call.stored :=
  places_toNat StoredPatch.base call.stored

theorem registerPatch_eq_insertNew {gPatches : PatchVector} (sorted : gPatches.Sorted)
    (call : RegisterCall) :
    gPatches.registerPatch call =
      insertNew (fun patch => decide (patch.base < call.base))
        (fun patch => decide (patch.base = call.base)) call.stored gPatches := by
  rw [insertNew_lowerBound (places_stored call) sorted]
  simp only [registerPatch, decide_eq_true_eq]
  cases gPatches[lowerBound (fun patch => decide (patch.base < call.base)) gPatches]? <;> rfl

theorem Sorted.registerPatch {gPatches : PatchVector} (sorted : gPatches.Sorted)
    (call : RegisterCall) : (gPatches.registerPatch call).Sorted := by
  rw [registerPatch_eq_insertNew sorted]
  exact ascending_insertNew (places_stored call) sorted

theorem registered_sorted (calls : List RegisterCall) : (registered calls).Sorted :=
  TransitionRun.foldl_invariant Sorted List.Pairwise.nil fun _ sorted call _ =>
    sorted.registerPatch call

theorem mem_registerPatch {gPatches : PatchVector} (sorted : gPatches.Sorted)
    {call : RegisterCall} {patch : StoredPatch} :
    patch ∈ gPatches.registerPatch call ↔
      patch ∈ gPatches ∨
        (patch = call.stored ∧ ∀ other ∈ gPatches, other.base ≠ call.base) := by
  rw [registerPatch_eq_insertNew sorted, mem_insertNew (places_stored call) sorted]
  simp only [ne_eq, UInt64.toNat_inj]
  rfl

theorem registered_concat (calls : List RegisterCall) (last : RegisterCall) :
    registered (calls ++ [last]) = (registered calls).registerPatch last := by
  rw [registered, List.foldl_append]
  rfl

def firstCall (base : UInt64) (calls : List RegisterCall) : Option RegisterCall :=
  calls.find? fun call => decide (call.base = base)

theorem firstCall_base {base : UInt64} {calls : List RegisterCall} {call : RegisterCall}
    (first : firstCall base calls = some call) : call.base = base := by
  simpa using List.find?_some first

theorem firstCall_append (base : UInt64) (calls more : List RegisterCall) :
    firstCall base (calls ++ more) = (firstCall base calls).or (firstCall base more) :=
  List.find?_append

theorem firstCall_eq_none {base : UInt64} {calls : List RegisterCall} :
    firstCall base calls = none ↔ ∀ call ∈ calls, call.base ≠ base := by
  simp [firstCall]

/-- The vector holds what the first call with each base made, and nothing else. -/
theorem mem_registered {calls : List RegisterCall} {patch : StoredPatch} :
    patch ∈ registered calls ↔
      ∃ call, firstCall patch.base calls = some call ∧ patch = call.stored := by
  induction calls using List.reverseRecOn generalizing patch with
  | nil => simp [registered, firstCall]
  | append_singleton calls last ih =>
      have absent : (∀ other ∈ registered calls, other.base ≠ last.base) ↔
          firstCall last.base calls = none := by
        constructor
        · intro fresh
          by_contra present
          obtain ⟨call, first⟩ := Option.ne_none_iff_exists'.mp present
          have base : call.stored.base = last.base := firstCall_base first
          exact fresh call.stored (ih.mpr ⟨call, by rw [base, first], rfl⟩) base
        · intro missing other member same
          obtain ⟨call, first, _⟩ := ih.mp member
          rw [same, missing] at first
          contradiction
      rw [registered_concat, mem_registerPatch (registered_sorted calls), ih, absent]
      simp only [firstCall_append]
      constructor
      · rintro (⟨call, first, rfl⟩ | ⟨rfl, missing⟩)
        · exact ⟨call, by rw [first]; rfl, rfl⟩
        · refine ⟨last, ?_, rfl⟩
          rw [show last.stored.base = last.base from rfl, missing, Option.none_or]
          simp [firstCall]
      · rintro ⟨call, first, rfl⟩
        cases earlier : firstCall call.stored.base calls with
        | some found =>
            rw [earlier, Option.some_or, Option.some.injEq] at first
            exact Or.inl ⟨found, rfl, by rw [first]⟩
        | none =>
            rw [earlier, Option.none_or] at first
            have isLast : last = call :=
              (List.mem_singleton.mp (List.mem_of_find?_eq_some first)).symm
            exact Or.inr ⟨by rw [isLast], isLast ▸ earlier⟩

theorem mem_map_registered {calls : List RegisterCall} {base : UInt64} :
    base ∈ (registered calls).map StoredPatch.base ↔ base ∈ calls.map RegisterCall.base := by
  rw [List.mem_map, List.mem_map]
  constructor
  · rintro ⟨patch, member, rfl⟩
    obtain ⟨call, first, _⟩ := mem_registered.mp member
    exact ⟨call, List.mem_of_find?_eq_some first, firstCall_base first⟩
  · rintro ⟨call, member, rfl⟩
    cases first : firstCall call.base calls with
    | none => exact absurd rfl (firstCall_eq_none.mp first call member)
    | some found =>
        have base : found.stored.base = call.base := firstCall_base first
        exact ⟨found.stored, mem_registered.mpr ⟨found, by rw [base, first], rfl⟩, base⟩

theorem Sorted.nodup {gPatches : PatchVector} (sorted : gPatches.Sorted) :
    (gPatches.map StoredPatch.base).Nodup :=
  List.pairwise_map.mpr (sorted.imp fun order same => order.ne (congrArg UInt64.toNat same))

/-- One entry for every base that a call had, made by the first call that had it. -/
structure HoldsFirstCalls (calls : List RegisterCall) (patches : List StoredPatch) : Prop where
  increasing : patches.Pairwise fun first second => first.base < second.base
  onePerBase : ∀ base, (patches.map StoredPatch.base).count base =
    if base ∈ calls.map RegisterCall.base then 1 else 0
  firstCall : ∀ patch ∈ patches, ∃ call,
    calls.find? (fun call => decide (call.base = patch.base)) = some call ∧ patch.Records call

/-- After every sequence of `register_patch` calls, and whatever calls follow it. -/
theorem allPatches_registered (calls : List RegisterCall) :
    HoldsFirstCalls calls (registered calls).allPatches ∧
      ∀ more, ∀ patch ∈ (registered calls).allPatches,
        patch ∈ (registered (calls ++ more)).allPatches := by
  have sorted := registered_sorted calls
  refine ⟨⟨sorted.imp UInt64.lt_iff_toNat_lt.mpr, ?_, ?_⟩, ?_⟩
  · intro base
    rw [allPatches, sorted.nodup.count]
    simp only [mem_map_registered]
  · intro patch member
    obtain ⟨call, first, rfl⟩ := mem_registered.mp member
    exact ⟨call, first, call.stored_records⟩
  · intro more patch member
    obtain ⟨call, first, made⟩ := mem_registered.mp member
    refine mem_registered.mpr ⟨call, ?_, made⟩
    rw [firstCall_append, first, Option.some_or]

end PatchVector

/-! The vector against the table whose type keeps it increasing. -/

def StoredPatch.entry (patch : StoredPatch) : PatchEntry where
  base := patch.base
  size := patch.size
  originalBytes := patch.originalBytes.take patch.originalSize.toNat
  bounded := by
    rw [List.length_take, patch.wholeArray]
    exact Nat.min_le_right _ 64
  hookName := patch.hookName
  type := patch.type

def RegisterCall.entry (call : RegisterCall) : PatchEntry :=
  PatchEntry.make call.base call.size call.original call.hookName call.type

def PatchTable.registerCall (table : PatchTable) (call : RegisterCall) : PatchTable :=
  table.registerPatch call.base call.size call.original call.hookName call.type

def PatchCall.registerCall (call : PatchCall) : RegisterCall where
  base := call.base
  size := call.size
  original := call.original
  hookName := call.hookName
  type := call.type

theorem RegisterCall.entry_stored (call : RegisterCall) : call.stored.entry = call.entry := by
  have recorded := call.stored_records.originalBytes
  rw [← List.take_eq_take_min] at recorded
  simp only [StoredPatch.entry, RegisterCall.entry, PatchEntry.make, PatchEntry.mk.injEq]
  exact ⟨rfl, rfl, recorded, rfl, rfl⟩

namespace PatchVector

def Represents (gPatches : PatchVector) (table : PatchTable) : Prop :=
  gPatches.map StoredPatch.entry = table.entries

theorem Represents.sorted {gPatches : PatchVector} {table : PatchTable}
    (represents : gPatches.Represents table) : gPatches.Sorted := by
  have increasing := table.increasing
  rw [← represents] at increasing
  exact (List.pairwise_map.mp increasing).imp UInt64.lt_iff_toNat_lt.mp

theorem Represents.registerPatch {gPatches : PatchVector} {table : PatchTable}
    (represents : gPatches.Represents table) (call : RegisterCall) :
    (gPatches.registerPatch call).Represents (table.registerCall call) := by
  show _ = insertEntry call.entry table.entries
  rw [registerPatch_eq_insertNew represents.sorted, insertEntry_eq_insertNew, ← represents,
    ← call.entry_stored]
  exact map_insertNew StoredPatch.entry (fun other => decide (other.base < call.base))
    (fun other => decide (other.base = call.base)) call.stored gPatches

theorem Sorted.lastUpTo {gPatches : PatchVector} (sorted : gPatches.Sorted) (addr : UInt64) :
    itemBefore gPatches (lowerBound (fun patch => decide (patch.base ≤ addr)) gPatches) =
      (gPatches.takeWhile fun patch => decide (patch.base ≤ addr)).getLast? :=
  itemBefore_lowerBound (sorted.partitioned (initial_le_toNat StoredPatch.base addr))

theorem Sorted.partitioned_lt {gPatches : PatchVector} (sorted : gPatches.Sorted) (addr : UInt64) :
    Partitioned (fun patch : StoredPatch => decide (patch.base < addr)) gPatches :=
  sorted.partitioned (initial_lt_toNat StoredPatch.base addr)

theorem Represents.findPatch {gPatches : PatchVector} {table : PatchTable}
    (represents : gPatches.Represents table) (addr : UInt64) :
    (gPatches.findPatch addr).map StoredPatch.entry = table.findPatch addr := by
  have sameTest : (fun entry : PatchEntry => decide (entry.base ≤ addr)) ∘ StoredPatch.entry =
    fun patch => decide (patch.base ≤ addr) := rfl
  unfold PatchVector.findPatch PatchTable.findPatch
  rw [represents.sorted.lastUpTo, ← represents, List.takeWhile_map, List.getLast?_map, sameTest]
  cases (gPatches.takeWhile fun patch => decide (patch.base ≤ addr)).getLast? with
  | none => rfl
  | some patch => exact apply_ite (Option.map StoredPatch.entry) _ (some patch) none

theorem Represents.findNearby {gPatches : PatchVector} {table : PatchTable}
    (represents : gPatches.Represents table) (addr threshold : UInt64) :
    (gPatches.findNearby addr threshold).map StoredPatch.entry =
      table.findNearby addr threshold := by
  have sameTest : (fun entry : PatchEntry => decide (entry.base < addr)) ∘ StoredPatch.entry =
    fun patch => decide (patch.base < addr) := rfl
  have partitioned := represents.sorted.partitioned_lt addr
  unfold PatchVector.findNearby PatchVector.nearestPrev PatchTable.findNearby
  rw [itemBefore_lowerBound partitioned, head_lowerBound partitioned, ← represents,
    List.takeWhile_map, List.getLast?_map, List.dropWhile_map, List.head?_map, sameTest]
  cases (gPatches.takeWhile fun patch => decide (patch.base < addr)).getLast? with
  | none =>
      cases (gPatches.dropWhile fun patch => decide (patch.base < addr)).head? with
      | none => rfl
      | some next => exact apply_ite (Option.map StoredPatch.entry) _ (some next) none
  | some prev =>
      by_cases near : prev.base + prev.size ≤ addr ∧
          addr - (prev.base + prev.size) < threshold + 1
      · have below : PatchTable.nearbyBelow addr (threshold + 1) prev.entry =
            some (addr - (prev.base + prev.size)) := if_pos near
        simp only [if_pos near, Option.map_some, Option.bind_some, below, Option.getD_some]
        cases (gPatches.dropWhile fun patch => decide (patch.base < addr)).head? with
        | none => rfl
        | some next => exact apply_ite (Option.map StoredPatch.entry) _ (some next) (some prev)
      · have below : PatchTable.nearbyBelow addr (threshold + 1) prev.entry = none := if_neg near
        simp only [if_neg near, Option.map_some, Option.bind_some, below, Option.map_none,
          Option.getD_none]
        cases (gPatches.dropWhile fun patch => decide (patch.base < addr)).head? with
        | none => rfl
        | some next => exact apply_ite (Option.map StoredPatch.entry) _ (some next) none

theorem registered_represents (calls : List RegisterCall) :
    (registered calls).Represents (calls.foldl PatchTable.registerCall PatchTable.empty) := by
  induction calls using List.reverseRecOn with
  | nil => rfl
  | append_singleton calls last ih =>
      rw [registered_concat, List.foldl_append]
      exact ih.registerPatch last

/-- Also the tables of calls whose ranges do not wrap are those of the vector. -/
theorem registered_represents_ofCalls (calls : List PatchCall) :
    (registered (calls.map PatchCall.registerCall)).Represents (PatchTable.ofCalls calls) := by
  have represents := registered_represents (calls.map PatchCall.registerCall)
  rwa [List.foldl_map] at represents

end PatchVector

end PatchFix
