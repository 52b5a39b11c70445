import PatchFix.CrashJournal
import PatchFix.Library.LowerBound

/-!
`diagnostics::patch_registry`: the table of patched ranges, ordered by base address, and the two
lookups the crash report makes in it.
-/

namespace PatchFix

open SortedSearch

inductive PatchType where
  | midHook | byteWrite
  deriving DecidableEq, Repr

/-- `originalBytes` is the part of the 64-byte array that `original_size` counts. -/
structure PatchEntry where
  base : UInt64
  size : UInt64
  originalBytes : List UInt8
  bounded : originalBytes.length ≤ 64
  hookName : Text
  type : PatchType
  deriving DecidableEq

def PatchEntry.make (base size : UInt64) (original : List UInt8) (hookName : Text)
    (type : PatchType) : PatchEntry where
  base := base
  size := size
  originalBytes := original.take 64
  bounded := List.length_take_le 64 original
  hookName := hookName
  type := type

/-- The insertion of `register_patch`: at the lower bound, unless the base is there already. -/
def insertEntry (entry : PatchEntry) (entries : List PatchEntry) : List PatchEntry :=
  let before := entries.takeWhile fun other => other.base < entry.base
  match entries.dropWhile fun other => other.base < entry.base with
  | [] => before ++ [entry]
  | found :: after =>
      if found.base = entry.base then entries else before ++ entry :: found :: after

def Increasing (entries : List PatchEntry) : Prop :=
  entries.Pairwise fun first second => first.base < second.base

theorem insertEntry_eq_insertNew (entry : PatchEntry) (entries : List PatchEntry) :
    insertEntry entry entries =
      insertNew (fun other => decide (other.base < entry.base))
        (fun other => decide (other.base = entry.base)) entry entries := by
  unfold insertEntry insertNew
  cases entries.dropWhile fun other => decide (other.base < entry.base) with
  | nil => rfl
  | cons found after => simp only [decide_eq_true_eq]

theorem Increasing.ascending {entries : List PatchEntry} (increasing : Increasing entries) :
    Ascending (fun entry => entry.base.toNat) entries :=
  increasing.imp UInt64.lt_iff_toNat_lt.mp

theorem mem_insertEntry {entry member : PatchEntry} {entries : List PatchEntry}
    (increasing : Increasing entries) :
    member ∈ insertEntry entry entries ↔
      member ∈ entries ∨ (member = entry ∧ ∀ other ∈ entries, other.base ≠ entry.base) := by
  rw [insertEntry_eq_insertNew, mem_insertNew (places_toNat PatchEntry.base entry)
    increasing.ascending]
  simp only [ne_eq, UInt64.toNat_inj]

theorem insertEntry_increasing {entry : PatchEntry} {entries : List PatchEntry}
    (increasing : Increasing entries) : Increasing (insertEntry entry entries) := by
  rw [insertEntry_eq_insertNew]
  exact (ascending_insertNew (places_toNat PatchEntry.base entry) increasing.ascending).imp
    UInt64.lt_iff_toNat_lt.mpr

structure PatchTable where
  entries : List PatchEntry
  increasing : Increasing entries

namespace PatchTable

def empty : PatchTable := ⟨[], List.Pairwise.nil⟩

def registerPatch (base size : UInt64) (original : List UInt8) (hookName : Text)
    (type : PatchType) (table : PatchTable) : PatchTable where
  entries := insertEntry (PatchEntry.make base size original hookName type) table.entries
  increasing := insertEntry_increasing table.increasing

theorem mem_registerPatch {base size : UInt64} {original : List UInt8} {hookName : Text}
    {type : PatchType} {table : PatchTable} {member : PatchEntry} :
    member ∈ (table.registerPatch base size original hookName type).entries ↔
      member ∈ table.entries ∨
        (member = PatchEntry.make base size original hookName type ∧
          ∀ other ∈ table.entries, other.base ≠ base) :=
  mem_insertEntry table.increasing

def findPatch (address : UInt64) (table : PatchTable) : Option PatchEntry :=
  match (table.entries.takeWhile fun entry => entry.base ≤ address).getLast? with
  | none => none
  | some entry =>
      if entry.base ≤ address ∧ address < entry.base + entry.size then some entry else none

def nearbyBelow (address bestDist : UInt64) (entry : PatchEntry) : Option UInt64 :=
  let pastEnd := entry.base + entry.size
  if pastEnd ≤ address ∧ address - pastEnd < bestDist then some (address - pastEnd) else none

def findNearby (address threshold : UInt64) (table : PatchTable) : Option PatchEntry :=
  let before := (table.entries.takeWhile fun entry => entry.base < address).getLast?
  let after := (table.entries.dropWhile fun entry => entry.base < address).head?
  let below := before.bind fun entry =>
    (nearbyBelow address (threshold + 1) entry).map fun dist => (entry, dist)
  let bestDist := (below.map Prod.snd).getD (threshold + 1)
  match after with
  | none => below.map Prod.fst
  | some entry =>
      if address < entry.base ∧ entry.base - address < bestDist then some entry
      else below.map Prod.fst

def allPatches (table : PatchTable) : List PatchEntry := table.entries

end PatchTable

end PatchFix
