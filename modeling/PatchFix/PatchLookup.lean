import Mathlib.Algebra.Group.Nat.Defs
import PatchFix.Library.TransitionRun
import PatchFix.PatchRegistry

/-!
What `find_patch` and `find_nearby` return, against the ranges that were registered.
-/

namespace PatchFix

open SortedSearch

namespace PatchEntry

def start (entry : PatchEntry) : Nat := entry.base.toNat

def pastEnd (entry : PatchEntry) : Nat := entry.base.toNat + entry.size.toNat

def Fits (entry : PatchEntry) : Prop := entry.pastEnd < 2 ^ 64

def Contains (entry : PatchEntry) (address : UInt64) : Prop :=
  entry.start ≤ address.toNat ∧ address.toNat < entry.pastEnd

instance (entry : PatchEntry) (address : UInt64) : Decidable (entry.Contains address) :=
  inferInstanceAs (Decidable (_ ∧ _))

def gap (entry : PatchEntry) (address : UInt64) : Nat :=
  if address.toNat < entry.start then entry.start - address.toNat
  else address.toNat - entry.pastEnd

theorem start_le_pastEnd (entry : PatchEntry) : entry.start ≤ entry.pastEnd :=
  Nat.le_add_right _ _

theorem toNat_pastEnd {entry : PatchEntry} (fits : entry.Fits) :
    (entry.base + entry.size).toNat = entry.pastEnd := by
  rw [UInt64.toNat_add, Nat.mod_eq_of_lt (by exact fits), pastEnd]

theorem contains_iff {entry : PatchEntry} (fits : entry.Fits) (address : UInt64) :
    entry.Contains address ↔ entry.base ≤ address ∧ address < entry.base + entry.size := by
  rw [UInt64.le_iff_toNat_le, UInt64.lt_iff_toNat_lt, toNat_pastEnd fits]
  exact Iff.rfl

end PatchEntry

/-- A `register_patch` call whose range does not wrap. -/
structure PatchCall where
  base : UInt64
  size : UInt64
  original : List UInt8
  hookName : Text
  type : PatchType
  fits : base.toNat + size.toNat < 2 ^ 64

def PatchCall.entry (call : PatchCall) : PatchEntry :=
  PatchEntry.make call.base call.size call.original call.hookName call.type

namespace PatchTable

def register (table : PatchTable) (call : PatchCall) : PatchTable :=
  table.registerPatch call.base call.size call.original call.hookName call.type

def ofCalls (calls : List PatchCall) : PatchTable := calls.foldl register empty

theorem ofCalls_fits (calls : List PatchCall) : ∀ entry ∈ (ofCalls calls).entries, entry.Fits := by
  apply TransitionRun.foldl_invariant fun table : PatchTable => ∀ entry ∈ table.entries, entry.Fits
  · exact fun _ member => absurd member List.not_mem_nil
  · intro table fits call _ entry member
    rcases mem_registerPatch.mp member with old | ⟨rfl, _⟩
    · exact fits entry old
    · exact call.fits

theorem ascending (table : PatchTable) : Ascending PatchEntry.start table.entries :=
  table.increasing.imp UInt64.lt_iff_toNat_lt.mp

theorem initial_le (address : UInt64) :
    Initial PatchEntry.start fun entry => entry.base ≤ address :=
  initial_le_toNat PatchEntry.base address

theorem initial_lt (address : UInt64) :
    Initial PatchEntry.start fun entry => entry.base < address :=
  initial_lt_toNat PatchEntry.base address

def Inspected (table : PatchTable) (address : UInt64) (entry : PatchEntry) : Prop :=
  IsLast PatchEntry.start table.entries (fun other => other.start ≤ address.toNat) entry

theorem inspected_iff (table : PatchTable) (address : UInt64) (entry : PatchEntry) :
    (table.entries.takeWhile fun other => decide (other.base ≤ address)).getLast? = some entry ↔
      table.Inspected address entry := by
  rw [lastBefore_eq_some table.ascending (initial_le address)]
  simp only [decide_eq_true_eq, UInt64.le_iff_toNat_le]
  exact Iff.rfl

theorem exists_inspected {table : PatchTable} {address : UInt64} {entry : PatchEntry}
    (member : entry ∈ table.entries) (starts : entry.start ≤ address.toNat) :
    ∃ last, table.Inspected address last := by
  obtain ⟨last, isLast⟩ := exists_isLast table.ascending (initial_le address) member
    (decide_eq_true (UInt64.le_iff_toNat_le.mpr starts))
  exact ⟨last, (table.inspected_iff address last).mp
    ((lastBefore_eq_some table.ascending (initial_le address)).mpr isLast)⟩

theorem findPatch_eq_some_iff {table : PatchTable} {address : UInt64} {found : PatchEntry} :
    table.findPatch address = some found ↔
      table.Inspected address found ∧ found.base ≤ address ∧
        address < found.base + found.size := by
  unfold findPatch
  constructor
  · intro result
    split at result
    · contradiction
    · next entry last =>
        have inspected := (table.inspected_iff address entry).mp last
        split at result
        · next inside =>
            cases result
            exact ⟨inspected, inside⟩
        · contradiction
  · rintro ⟨inspected, inside⟩
    rw [(table.inspected_iff address found).mpr inspected]
    exact if_pos inside

theorem findPatch_eq_some {table : PatchTable} (fits : ∀ entry ∈ table.entries, entry.Fits)
    {address : UInt64} {found : PatchEntry} :
    table.findPatch address = some found ↔
      table.Inspected address found ∧ found.Contains address :=
  findPatch_eq_some_iff.trans <| and_congr_right fun inspected =>
    (PatchEntry.contains_iff (fits _ inspected.1) address).symm

structure FindPatchComplete (table : PatchTable) (address : UInt64) : Prop where
  complete : (∃ entry, table.findPatch address = some entry) ↔
    ∃ entry ∈ table.entries, entry.Contains address
  sound : ∀ entry, table.findPatch address = some entry →
    entry ∈ table.entries ∧ entry.Contains address

/-- An entry contains the address, but a later one that ends before it is the last to start. -/
def Shadowed (table : PatchTable) (address : UInt64) : Prop :=
  ∃ outer ∈ table.entries, outer.Contains address ∧
    ∃ inner ∈ table.entries, outer.start < inner.start ∧ inner.pastEnd ≤ address.toNat ∧
      ∀ other ∈ table.entries, other.start ≤ address.toNat → other.start ≤ inner.start

theorem findPatchComplete_iff_not_shadowed {table : PatchTable}
    (fits : ∀ entry ∈ table.entries, entry.Fits) (address : UInt64) :
    table.FindPatchComplete address ↔ ¬table.Shadowed address := by
  constructor
  · rintro ⟨complete, _⟩ ⟨outer, member, contains, inner, innerMember, _, ended, last⟩
    obtain ⟨found, result⟩ := complete.mpr ⟨outer, member, contains⟩
    obtain ⟨inspected, _, inside⟩ := (findPatch_eq_some fits).mp result
    have innerInspected : table.Inspected address inner :=
      ⟨innerMember, inner.start_le_pastEnd.trans ended, last⟩
    obtain rfl := IsLast.unique table.ascending inspected innerInspected
    exact absurd inside (not_lt.mpr ended)
  · intro visible
    have sound : ∀ entry, table.findPatch address = some entry →
        entry ∈ table.entries ∧ entry.Contains address := by
      intro entry result
      obtain ⟨inspected, contains⟩ := (findPatch_eq_some fits).mp result
      exact ⟨inspected.1, contains⟩
    refine ⟨⟨fun ⟨entry, result⟩ => ⟨entry, sound entry result⟩, ?_⟩, sound⟩
    rintro ⟨outer, member, contains⟩
    obtain ⟨last, inspected⟩ := exists_inspected member contains.1
    refine ⟨last, (findPatch_eq_some fits).mpr ⟨inspected, inspected.2.1, ?_⟩⟩
    by_contra ended
    have order := inspected.2.2 outer member contains.1
    have different : outer.start ≠ last.start := by
      intro same
      have outerInspected : table.Inspected address outer :=
        ⟨member, contains.1, fun other inside starts => same ▸ inspected.2.2 other inside starts⟩
      obtain rfl := IsLast.unique table.ascending outerInspected inspected
      exact ended contains.2
    exact visible ⟨outer, member, contains, last, inspected.1, order.lt_of_ne different,
      not_lt.mp ended, inspected.2.2⟩

/-- Where an entry ends inside an earlier one, another entry starts before that end or at it. -/
def Covered (table : PatchTable) : Prop :=
  ∀ outer ∈ table.entries, ∀ inner ∈ table.entries,
    outer.start < inner.start → inner.pastEnd < outer.pastEnd →
      ∃ next ∈ table.entries, inner.start < next.start ∧ next.start ≤ inner.pastEnd

theorem covered_iff {table : PatchTable} (fits : ∀ entry ∈ table.entries, entry.Fits) :
    table.Covered ↔ ∀ address, ¬table.Shadowed address := by
  constructor
  · rintro covered address ⟨outer, member, contains, inner, innerMember, order, ended, last⟩
    obtain ⟨next, nextMember, later, starts⟩ :=
      covered outer member inner innerMember order (ended.trans_lt contains.2)
    exact absurd (last next nextMember (starts.trans ended)) (not_le.mpr later)
  · intro visible outer member inner innerMember order nested
    by_contra uncovered
    have innerFits : inner.pastEnd < 2 ^ 64 := fits inner innerMember
    have address : (UInt64.ofNat inner.pastEnd).toNat = inner.pastEnd := by
      rw [UInt64.toNat_ofNat', Nat.mod_eq_of_lt innerFits]
    refine visible (UInt64.ofNat inner.pastEnd) ⟨outer, member, ?_, inner, innerMember, order,
      address.ge, ?_⟩
    · rw [PatchEntry.Contains, address]
      exact ⟨order.le.trans inner.start_le_pastEnd, nested⟩
    · intro other otherMember starts
      rw [address] at starts
      by_contra later
      exact uncovered ⟨other, otherMember, not_le.mp later, starts⟩

theorem findPatch_complete_iff (calls : List PatchCall) :
    (∀ address, (ofCalls calls).FindPatchComplete address ↔
        ¬(ofCalls calls).Shadowed address) ∧
      ((∀ address, (ofCalls calls).FindPatchComplete address) ↔ (ofCalls calls).Covered) := by
  have fits := ofCalls_fits calls
  refine ⟨findPatchComplete_iff_not_shadowed fits, ?_⟩
  rw [covered_iff fits]
  exact forall_congr' fun address => findPatchComplete_iff_not_shadowed fits address

end PatchTable

def getGameIdCalls : List PatchCall :=
  [⟨0x1000, 9, List.replicate 9 0xCC, "LanguageUnlock".toList, .byteWrite, by decide⟩,
    ⟨0x1000, 5, List.replicate 5 0x90, "LanguageUnlock".toList, .midHook, by decide⟩,
    ⟨0x1005, 1, [0x90], "LanguageUnlock".toList, .byteWrite, by decide⟩]

theorem getGameId_unattributed :
    ¬∀ address, (PatchTable.ofCalls getGameIdCalls).FindPatchComplete address := by
  intro claimed
  obtain ⟨complete, _⟩ := claimed 0x1007
  obtain ⟨entry, found⟩ := complete.mpr
    ⟨PatchEntry.make 0x1000 9 (List.replicate 9 0xCC) "LanguageUnlock".toList .byteWrite,
      by decide, by decide, by decide⟩
  have missed : (PatchTable.ofCalls getGameIdCalls).findPatch 0x1007 = none := rfl
  rw [missed] at found
  contradiction

end PatchFix
