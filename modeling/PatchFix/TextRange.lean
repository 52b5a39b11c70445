import Mathlib.Order.Nat
import PatchFix.Library.IntervalRun

/-!
`find_text_range`: the range of the pattern scan, from the regions that `VirtualQuery` reports over
the `.text` section.
-/

namespace PatchFix

structure MemoryRegion where
  baseAddress : UInt64
  regionSize : UInt64
  state : UInt32
  protect : UInt32
  deriving DecidableEq

namespace MemoryRegion

def memCommit : UInt32 := 0x1000

def execMask : UInt32 := 0x10 ||| 0x20 ||| 0x40 ||| 0x80

def endAddress (region : MemoryRegion) : UInt64 := region.baseAddress + region.regionSize

def Executable (region : MemoryRegion) : Prop :=
  region.state = memCommit ∧ region.protect &&& execMask ≠ 0

instance : DecidablePred Executable := fun _ => inferInstanceAs (Decidable (_ ∧ _))

end MemoryRegion

/-- `VirtualQuery` as a function of the address, with what is documented of it: a region that it
reports holds the address and ends in the address space, and the next region starts at its end. -/
structure MemoryMap where
  query : UInt64 → Option MemoryRegion
  holds : ∀ {address region}, query address = some region →
    region.baseAddress ≤ address ∧ address < region.endAddress
  contiguous : ∀ {address region next}, query address = some region →
    query region.endAddress = some next → next.baseAddress = region.endAddress

structure SectionInfo where
  base : UInt64
  size : UInt64
  deriving DecidableEq

def SectionInfo.endAddress (text : SectionInfo) : UInt64 := text.base + text.size

structure ScanRange where
  scanBegin : UInt64
  scanEnd : UInt64
  deriving DecidableEq

def ScanRange.extend (range : ScanRange) (region : MemoryRegion) : ScanRange :=
  if region.Executable then
    { scanBegin := if range.scanBegin = 0 then region.baseAddress else range.scanBegin
      scanEnd := region.endAddress }
  else range

def scanLoop (memory : MemoryMap) (limit addr : UInt64) (range : ScanRange) : ScanRange :=
  if addr < limit then
    match _found : memory.query addr with
    | none => range
    | some region => scanLoop memory limit region.endAddress (range.extend region)
  else range
termination_by limit.toNat - addr.toNat
decreasing_by
  have inside : addr < limit := by assumption
  have progress := (memory.holds _found).2
  rw [UInt64.lt_iff_toNat_lt] at inside progress
  omega

def findTextRange (memory : MemoryMap) (text : Option SectionInfo) : ScanRange :=
  match text with
  | none => ⟨0, 0⟩
  | some text => scanLoop memory text.endAddress text.base ⟨0, 0⟩

def regionsFrom (memory : MemoryMap) (limit addr : UInt64) : List MemoryRegion :=
  if addr < limit then
    match _found : memory.query addr with
    | none => []
    | some region => region :: regionsFrom memory limit region.endAddress
  else []
termination_by limit.toNat - addr.toNat
decreasing_by
  have inside : addr < limit := by assumption
  have progress := (memory.holds _found).2
  rw [UInt64.lt_iff_toNat_lt] at inside progress
  omega

def reportedRegions (memory : MemoryMap) (text : Option SectionInfo) : List MemoryRegion :=
  match text with
  | none => []
  | some text => regionsFrom memory text.endAddress text.base

section Walk

variable {memory : MemoryMap} {limit addr : UInt64} {region : MemoryRegion}

theorem regionsFrom_past (past : ¬addr < limit) : regionsFrom memory limit addr = [] := by
  rw [regionsFrom, if_neg past]

theorem regionsFrom_failed (failed : memory.query addr = none) :
    regionsFrom memory limit addr = [] := by
  rw [regionsFrom]
  split
  · split
    · rfl
    · next other found => exact absurd (failed.symm.trans found) (Option.some_ne_none _).symm
  · rfl

theorem regionsFrom_reported (inside : addr < limit) (found : memory.query addr = some region) :
    regionsFrom memory limit addr =
      region :: regionsFrom memory limit region.endAddress := by
  rw [regionsFrom, if_pos inside]
  split
  · next failed => exact absurd (failed.symm.trans found) (Option.some_ne_none _).symm
  · next other same =>
      obtain rfl := Option.some.inj (found.symm.trans same)
      rfl

theorem scanLoop_eq (range : ScanRange) :
    scanLoop memory limit addr range =
      (regionsFrom memory limit addr).foldl ScanRange.extend range := by
  fun_induction scanLoop memory limit addr range with
  | case1 addr range inside failed => rw [regionsFrom_failed failed, List.foldl_nil]
  | case2 addr range inside region found ih =>
      rw [regionsFrom_reported inside found, List.foldl_cons, ih]
  | case3 addr range outside => rw [regionsFrom_past outside, List.foldl_nil]

end Walk

structure RangeIsExact (regions : List MemoryRegion) (range : ScanRange) : Prop where
  covers : ∀ region ∈ regions, region.Executable →
    range.scanBegin ≤ region.baseAddress ∧ region.endAddress ≤ range.scanEnd
  sound : ∀ address, range.scanBegin ≤ address → address < range.scanEnd →
    ∃ region ∈ regions, region.Executable ∧
      region.baseAddress ≤ address ∧ address < region.endAddress

/-- The executable regions follow one another, and one at address 0 is the only one. -/
structure OneRun (regions : List MemoryRegion) : Prop where
  unbroken : IntervalRun.Unbroken MemoryRegion.Executable regions
  zeroAlone : ∀ region ∈ regions, region.Executable → region.baseAddress = 0 →
    ∀ other ∈ regions, other.Executable → other = region

/-! The regions adjoin each other. -/

namespace MemoryRegion

def start (region : MemoryRegion) : Nat := region.baseAddress.toNat
def stop (region : MemoryRegion) : Nat := region.endAddress.toNat

end MemoryRegion

open MemoryRegion IntervalRun

theorem regionsFrom_aligned {memory : MemoryMap} (limit : UInt64) {addr : UInt64}
    (aligned : ∀ region, memory.query addr = some region → region.baseAddress = addr) :
    ∃ last, Adjoining start stop addr.toNat (regionsFrom memory limit addr) last := by
  fun_induction regionsFrom memory limit addr with
  | case1 addr inside failed => exact ⟨_, .nil⟩
  | case2 addr inside region found ih =>
      obtain ⟨last, rest⟩ := ih fun next => memory.contiguous found
      have first := aligned region found
      have nonempty : region.start < region.stop := by
        have progress := (memory.holds found).2
        rwa [← first, UInt64.lt_iff_toNat_lt] at progress
      rw [← first]
      exact ⟨last, .cons nonempty rest⟩
  | case3 addr outside => exact ⟨_, .nil⟩

theorem reportedRegions_adjoining (memory : MemoryMap) (text : Option SectionInfo) :
    ∃ first last, Adjoining start stop first (reportedRegions memory text) last := by
  cases text with
  | none => exact ⟨0, 0, .nil⟩
  | some text =>
      simp only [reportedRegions]
      by_cases inside : text.base < text.endAddress
      · cases found : memory.query text.base with
        | none => exact ⟨0, 0, by rw [regionsFrom_failed found]; exact .nil⟩
        | some region =>
            obtain ⟨last, rest⟩ :=
              regionsFrom_aligned text.endAddress fun next => memory.contiguous found
            have nonempty : region.start < region.stop := by
              obtain ⟨below, above⟩ := memory.holds found
              rw [UInt64.le_iff_toNat_le] at below
              rw [UInt64.lt_iff_toNat_lt] at above
              exact Nat.lt_of_le_of_lt below above
            rw [regionsFrom_reported inside found]
            exact ⟨region.start, last, .cons nonempty rest⟩
      · rw [regionsFrom_past inside]
        exact ⟨0, 0, .nil⟩

theorem findTextRange_eq (memory : MemoryMap) (text : Option SectionInfo) :
    findTextRange memory text =
      (reportedRegions memory text).foldl ScanRange.extend ⟨0, 0⟩ := by
  cases text with
  | none => rfl
  | some text => exact scanLoop_eq _

/-! What the accumulators hold after the regions. -/

section Fold

variable {regions : List MemoryRegion} {range : ScanRange} {region : MemoryRegion}

theorem extend_executable (executable : region.Executable) :
    range.extend region =
      { scanBegin := if range.scanBegin = 0 then region.baseAddress else range.scanBegin
        scanEnd := region.endAddress } := if_pos executable

theorem extend_other (other : ¬region.Executable) : range.extend region = range := if_neg other

theorem foldl_none (absent : ∀ region ∈ regions, ¬region.Executable) :
    regions.foldl ScanRange.extend range = range := by
  induction regions generalizing range with
  | nil => rfl
  | cons region regions ih =>
      rw [List.foldl_cons, extend_other (absent region List.mem_cons_self)]
      exact ih fun other member => absent other (List.mem_cons_of_mem _ member)

theorem foldl_scanBegin (begun : range.scanBegin ≠ 0) :
    (regions.foldl ScanRange.extend range).scanBegin = range.scanBegin := by
  induction regions generalizing range with
  | nil => rfl
  | cons region regions ih =>
      have kept : (range.extend region).scanBegin = range.scanBegin := by
        by_cases executable : region.Executable
        · rw [extend_executable executable, if_neg begun]
        · rw [extend_other executable]
      rw [List.foldl_cons, ih (by rwa [kept]), kept]

theorem foldl_begins (present : ∃ region ∈ regions, region.Executable)
    (nonzero : ∀ region ∈ regions, region.Executable → region.baseAddress ≠ 0) :
    (regions.foldl ScanRange.extend range).scanBegin ≠ 0 := by
  induction regions generalizing range with
  | nil => simp at present
  | cons region regions ih =>
      rw [List.foldl_cons]
      by_cases executable : region.Executable
      · have begun : (range.extend region).scanBegin ≠ 0 := by
          rw [extend_executable executable]
          split
          · exact nonzero region List.mem_cons_self executable
          · assumption
        rwa [foldl_scanBegin begun]
      · apply ih
        · obtain ⟨found, member, isExecutable⟩ := present
          rcases List.mem_cons.mp member with rfl | member
          · exact absurd isExecutable executable
          · exact ⟨found, member, isExecutable⟩
        · exact fun other member => nonzero other (List.mem_cons_of_mem _ member)

theorem exists_first (present : ∃ region ∈ regions, region.Executable) :
    ∃ before first after, regions = before ++ first :: after ∧ first.Executable ∧
      ∀ region ∈ before, ¬region.Executable := by
  have found : (regions.find? fun region => region.Executable).isSome = true := by
    simpa [List.find?_isSome] using present
  obtain ⟨first, found⟩ := Option.isSome_iff_exists.mp found
  obtain ⟨executable, before, after, split, others⟩ := List.find?_eq_some_iff_append.mp found
  exact ⟨before, first, after, split, by simpa using executable, by simpa using others⟩

theorem exists_last (present : ∃ region ∈ regions, region.Executable) :
    ∃ before last after, regions = before ++ last :: after ∧ last.Executable ∧
      ∀ region ∈ after, ¬region.Executable := by
  obtain ⟨before, last, after, split, executable, others⟩ :=
    exists_first (by simpa using present : ∃ region ∈ regions.reverse, region.Executable)
  refine ⟨after.reverse, last, before.reverse, ?_, executable, by simpa using others⟩
  rw [← List.reverse_reverse regions, split]
  simp

theorem foldl_scanEnd (present : ∃ region ∈ regions, region.Executable) :
    ∃ before last after, regions = before ++ last :: after ∧ last.Executable ∧
      (∀ region ∈ after, ¬region.Executable) ∧
      (regions.foldl ScanRange.extend range).scanEnd = last.endAddress := by
  obtain ⟨before, last, after, split, executable, others⟩ := exists_last present
  refine ⟨before, last, after, split, executable, others, ?_⟩
  rw [split, List.foldl_append, List.foldl_cons, foldl_none others, extend_executable executable]

/-- The first executable region begins the range, unless it is at address 0 and another follows. -/
theorem foldl_first {before after : List MemoryRegion} {first : MemoryRegion}
    (executable : first.Executable) (others : ∀ region ∈ before, ¬region.Executable)
    (begins : first.baseAddress ≠ 0 ∨ ∀ region ∈ after, ¬region.Executable) :
    ((before ++ first :: after).foldl ScanRange.extend ⟨0, 0⟩).scanBegin =
      first.baseAddress := by
  rw [List.foldl_append, foldl_none others, List.foldl_cons, extend_executable executable,
    if_pos rfl]
  rcases begins with nonzero | alone
  · exact foldl_scanBegin nonzero
  · rw [foldl_none alone]

end Fold

theorem sound_iff {low high : UInt64} {regions : List MemoryRegion} :
    (∀ address, low ≤ address → address < high → ∃ region ∈ regions, region.Executable ∧
      region.baseAddress ≤ address ∧ address < region.endAddress) ↔
    ∀ point, low.toNat ≤ point → point < high.toNat →
      ∃ region ∈ regions, region.Executable ∧ Contains start stop region point := by
  simp only [UInt64.le_iff_toNat_le, UInt64.lt_iff_toNat_lt]
  constructor
  · intro sound point above below
    have width : (UInt64.ofNat point).toNat = point :=
      (UInt64.toNat_ofNat').trans (Nat.mod_eq_of_lt (below.trans high.toNat_lt))
    have held := sound (UInt64.ofNat point)
    rw [width] at held
    exact held above below
  · exact fun sound address => sound address.toNat

section Exact

variable {regions : List MemoryRegion} {lower upper : ℕ}

theorem rangeIsExact_none (absent : ∀ region ∈ regions, ¬region.Executable) :
    RangeIsExact regions (regions.foldl ScanRange.extend ⟨0, 0⟩) := by
  rw [foldl_none absent]
  refine ⟨fun region member executable => absurd executable (absent region member), ?_⟩
  intro address _ below
  exact absurd below (by simp)

theorem oneRun_none (absent : ∀ region ∈ regions, ¬region.Executable) : OneRun regions := by
  refine ⟨?_, fun region member executable => absurd executable (absent region member)⟩
  rintro before gap after rfl _ ⟨region, member, executable⟩
  exact absurd executable (absent region (by simp [member]))

theorem rangeIsExact_some {range : ScanRange} {first last : MemoryRegion}
    (adjoining : Adjoining start stop lower regions upper) (firstMember : first ∈ regions)
    (lastMember : last ∈ regions) (firstExecutable : first.Executable)
    (lastExecutable : last.Executable)
    (lowest : ∀ region ∈ regions, region.Executable → first.start ≤ region.start)
    (highest : ∀ region ∈ regions, region.Executable → region.stop ≤ last.stop)
    (scanBegin : range.scanBegin = first.baseAddress) (scanEnd : range.scanEnd = last.endAddress) :
    RangeIsExact regions range ↔ Unbroken Executable regions := by
  have hull := hull_iff adjoining firstMember lastMember firstExecutable lastExecutable lowest
    highest
  rw [← hull, start, stop, ← scanBegin, ← scanEnd, ← sound_iff]
  refine ⟨RangeIsExact.sound, fun sound => ⟨fun region member executable => ?_, sound⟩⟩
  rw [scanBegin, scanEnd, UInt64.le_iff_toNat_le, UInt64.le_iff_toNat_le]
  exact ⟨lowest region member executable, highest region member executable⟩

theorem zeroAlone_of_begins {before after : List MemoryRegion} {first : MemoryRegion}
    (split : regions = before ++ first :: after) (others : ∀ region ∈ before, ¬region.Executable)
    (lowest : ∀ region ∈ regions, region.Executable → first.start ≤ region.start)
    (begins : first.baseAddress ≠ 0 ∨ ∀ region ∈ after, ¬region.Executable) :
    ∀ region ∈ regions, region.Executable → region.baseAddress = 0 →
      ∀ other ∈ regions, other.Executable → other = region := by
  intro region member executable zero other otherMember otherExecutable
  rcases begins with nonzero | alone
  · have below := lowest region member executable
    rw [start, start, zero] at below
    exact absurd (UInt64.toNat_inj.mp (Nat.le_zero.mp below)) nonzero
  · have onlyFirst : ∀ held ∈ regions, held.Executable → held = first := by
      intro held member executable
      rw [split, List.mem_append, List.mem_cons] at member
      rcases member with before | rfl | after
      · exact absurd executable (others held before)
      · rfl
      · exact absurd executable (alone held after)
    rw [onlyFirst region member executable, onlyFirst other otherMember otherExecutable]

/-- A first executable region at address 0 is taken for none when another one follows. -/
theorem zeroFirst_notExact {before after : List MemoryRegion} {first : MemoryRegion}
    (adjoining : Adjoining start stop lower (before ++ first :: after) upper)
    (executable : first.Executable) (others : ∀ region ∈ before, ¬region.Executable)
    (zero : first.baseAddress = 0) (follows : ∃ region ∈ after, region.Executable) :
    ¬RangeIsExact (before ++ first :: after)
        ((before ++ first :: after).foldl ScanRange.extend ⟨0, 0⟩) ∧
      ¬OneRun (before ++ first :: after) := by
  have inner := (adjoining.bounds first (by simp)).2.1
  have later := adjoining.split.2
  have above : ∀ region ∈ after, first.start < region.start :=
    fun region member => inner.trans_le (later region member)
  constructor
  · rintro ⟨covers, _⟩
    have begun : ((before ++ first :: after).foldl ScanRange.extend ⟨0, 0⟩).scanBegin ≠ 0 := by
      rw [List.foldl_append, foldl_none others, List.foldl_cons]
      apply foldl_begins follows
      intro region member _ zero
      have higher := above region member
      rw [start, start, zero] at higher
      exact absurd higher (Nat.not_lt_zero _)
    have covered := (covers first (by simp) executable).1
    rw [zero] at covered
    exact begun (UInt64.le_zero_iff.mp covered)
  · intro oneRun
    obtain ⟨region, member, isExecutable⟩ := follows
    have same := oneRun.zeroAlone first (by simp) executable zero region (by simp [member])
      isExecutable
    have higher := above region member
    rw [same] at higher
    exact lt_irrefl _ higher

theorem foldl_exact_iff (adjoining : Adjoining start stop lower regions upper) :
    RangeIsExact regions (regions.foldl ScanRange.extend ⟨0, 0⟩) ↔ OneRun regions := by
  by_cases present : ∃ region ∈ regions, region.Executable
  · obtain ⟨front, last, rest, splitLast, lastExecutable, lastOthers, scanEnd⟩ :=
      @foldl_scanEnd regions ⟨0, 0⟩ present
    obtain ⟨before, first, after, split, executable, others⟩ := exists_first present
    by_cases begins : first.baseAddress ≠ 0 ∨ ∀ region ∈ after, ¬region.Executable
    · have lowest := (split ▸ adjoining).lowest others
      have highest := (splitLast ▸ adjoining).highest lastOthers
      have scanBegin := foldl_first executable others begins
      rw [← split] at lowest scanBegin
      rw [← splitLast] at highest
      rw [rangeIsExact_some adjoining (by simp [split]) (by simp [splitLast]) executable
        lastExecutable lowest highest scanBegin scanEnd]
      exact ⟨fun unbroken => ⟨unbroken, zeroAlone_of_begins split others lowest begins⟩,
        OneRun.unbroken⟩
    · have zero : first.baseAddress = 0 := by
        by_contra nonzero
        exact begins (Or.inl nonzero)
      have follows : ∃ region ∈ after, region.Executable := by
        by_contra alone
        exact begins (Or.inr fun region member executable => alone ⟨region, member, executable⟩)
      subst split
      obtain ⟨notExact, notOneRun⟩ :=
        zeroFirst_notExact adjoining executable others zero follows
      exact iff_of_false notExact notOneRun
  · have absent : ∀ region ∈ regions, ¬region.Executable := fun region member executable =>
      present ⟨region, member, executable⟩
    exact iff_of_true (rangeIsExact_none absent) (oneRun_none absent)

end Exact

theorem findTextRange_exact_iff (memory : MemoryMap) (text : Option SectionInfo) :
    RangeIsExact (reportedRegions memory text) (findTextRange memory text) ↔
      OneRun (reportedRegions memory text) := by
  obtain ⟨lower, upper, adjoining⟩ := reportedRegions_adjoining memory text
  rw [findTextRange_eq]
  exact foldl_exact_iff adjoining

def codeBefore : MemoryRegion := ⟨0x1000, 0x1000, MemoryRegion.memCommit, 0x20⟩
def reserved : MemoryRegion := ⟨0x2000, 0x1000, 0x2000, 0⟩
def codeAfter : MemoryRegion := ⟨0x3000, 0x1000, MemoryRegion.memCommit, 0x20⟩

def gapQuery (address : UInt64) : Option MemoryRegion :=
  if address < 0x1000 then none
  else if address < 0x2000 then some codeBefore
  else if address < 0x3000 then some reserved
  else if address < 0x4000 then some codeAfter
  else none

def gapMemory : MemoryMap where
  query := gapQuery
  holds := by
    intro address region found
    unfold gapQuery at found
    split_ifs at found with below first second third
    · obtain rfl := Option.some.inj found
      exact ⟨UInt64.not_lt.mp below, first⟩
    · obtain rfl := Option.some.inj found
      exact ⟨UInt64.not_lt.mp first, second⟩
    · obtain rfl := Option.some.inj found
      exact ⟨UInt64.not_lt.mp second, third⟩
  contiguous := by
    intro address region next found follows
    unfold gapQuery at found
    split_ifs at found
    · obtain rfl := Option.some.inj found
      obtain rfl := Option.some.inj follows
      rfl
    · obtain rfl := Option.some.inj found
      obtain rfl := Option.some.inj follows
      rfl
    · obtain rfl := Option.some.inj found
      have past : gapQuery codeAfter.endAddress = none := by decide
      rw [past] at follows
      contradiction

def gapText : SectionInfo := ⟨0x1000, 0x3000⟩

theorem gap_regions :
    reportedRegions gapMemory (some gapText) = [codeBefore, reserved, codeAfter] := by
  have first : gapMemory.query 0x1000 = some codeBefore := by decide
  have second : gapMemory.query codeBefore.endAddress = some reserved := by decide
  have third : gapMemory.query reserved.endAddress = some codeAfter := by decide
  change regionsFrom gapMemory gapText.endAddress 0x1000 = _
  rw [regionsFrom_reported (by decide) first, regionsFrom_reported (by decide) second,
    regionsFrom_reported (by decide) third, regionsFrom_past (by decide)]

theorem gap_scanned : ¬∀ memory text,
    RangeIsExact (reportedRegions memory text) (findTextRange memory text) := by
  intro claimed
  have claim := claimed gapMemory (some gapText)
  rw [findTextRange_eq, gap_regions] at claim
  exact absurd (claim.sound 0x2000 (by decide) (by decide)) (by decide)

end PatchFix
