import PatchFix.PatchLookup

/-!
`find_nearby` against the nearest registered range, and the distance `log_patch_attribution` prints.
-/

namespace PatchFix

open SortedSearch

inductive Attribution where
  | patched (entry : PatchEntry)
  | suspect (distance : UInt64) (entry : PatchEntry)
  | unattributed
  deriving DecidableEq

def suspectDistance (rip : UInt64) (entry : PatchEntry) : UInt64 :=
  let pastEnd := entry.base + entry.size
  if pastEnd ≤ rip then rip - pastEnd else entry.base - rip

def logPatchAttribution (rip : UInt64) (table : PatchTable) : Attribution :=
  match table.findPatch rip with
  | some entry => .patched entry
  | none =>
      match table.findNearby rip 64 with
      | some entry => .suspect (suspectDistance rip entry) entry
      | none => .unattributed

namespace PatchEntry

variable {entry : PatchEntry} {address : UInt64}

theorem gap_of_before (before : address.toNat < entry.start) :
    entry.gap address = entry.start - address.toNat :=
  if_pos before

theorem gap_of_past (past : entry.start ≤ address.toNat) :
    entry.gap address = address.toNat - entry.pastEnd :=
  if_neg (not_lt.mpr past)

theorem pastEnd_le (outside : ¬entry.Contains address) (past : entry.start ≤ address.toNat) :
    entry.pastEnd ≤ address.toNat :=
  not_lt.mp fun inside => outside ⟨past, inside⟩

theorem toNat_suspectDistance (fits : entry.Fits) (outside : ¬entry.Contains address) :
    (suspectDistance address entry).toNat = entry.gap address := by
  unfold suspectDistance
  have sameEnd := toNat_pastEnd fits
  by_cases past : entry.start ≤ address.toNat
  · have ended := pastEnd_le outside past
    have within : entry.base + entry.size ≤ address := by
      rw [UInt64.le_iff_toNat_le, sameEnd]
      exact ended
    rw [if_pos within, UInt64.toNat_sub_of_le _ _ within, sameEnd, gap_of_past past]
  · have before := not_le.mp past
    have notPast : ¬entry.base + entry.size ≤ address := by
      rw [UInt64.le_iff_toNat_le, sameEnd, not_le]
      exact before.trans_le entry.start_le_pastEnd
    have within : address ≤ entry.base := UInt64.le_iff_toNat_le.mpr before.le
    rw [if_neg notPast, UInt64.toNat_sub_of_le _ _ within, gap_of_before before]
    rfl

end PatchEntry

namespace PatchTable

def IsBefore (table : PatchTable) (address : UInt64) (entry : PatchEntry) : Prop :=
  IsLast PatchEntry.start table.entries (fun other => other.start < address.toNat) entry

def IsAfter (table : PatchTable) (address : UInt64) (entry : PatchEntry) : Prop :=
  IsFirst PatchEntry.start table.entries (fun other => address.toNat ≤ other.start) entry ∧
    address.toNat < entry.start

theorem IsBefore.unique {table : PatchTable} {address : UInt64} {first second : PatchEntry}
    (isFirst : table.IsBefore address first) (isSecond : table.IsBefore address second) :
    first = second :=
  IsLast.unique table.ascending isFirst isSecond

theorem IsAfter.unique {table : PatchTable} {address : UInt64} {first second : PatchEntry}
    (isFirst : table.IsAfter address first) (isSecond : table.IsAfter address second) :
    first = second :=
  IsFirst.unique table.ascending isFirst.1 isSecond.1

inductive Candidate (table : PatchTable) (address : UInt64) (entry : PatchEntry) : Prop where
  | before : table.IsBefore address entry → Candidate table address entry
  | after : table.IsAfter address entry → Candidate table address entry

theorem before_iff (table : PatchTable) (address : UInt64) (entry : PatchEntry) :
    (table.entries.takeWhile fun other => decide (other.base < address)).getLast? = some entry ↔
      table.IsBefore address entry := by
  rw [lastBefore_eq_some table.ascending (initial_lt address)]
  simp only [decide_eq_true_eq, UInt64.lt_iff_toNat_lt]
  exact Iff.rfl

theorem after_iff (table : PatchTable) (address : UInt64) (entry : PatchEntry) :
    (table.entries.dropWhile fun other => decide (other.base < address)).head? = some entry ↔
      IsFirst PatchEntry.start table.entries (fun other => address.toNat ≤ other.start) entry := by
  rw [firstPast_eq_some table.ascending (initial_lt address)]
  simp only [decide_eq_false_iff_not, UInt64.lt_iff_toNat_lt, not_lt]
  exact Iff.rfl

theorem toNat_succ {threshold : UInt64} (small : threshold.toNat < 2 ^ 64 - 1) :
    (threshold + 1).toNat = threshold.toNat + 1 := by
  rw [UInt64.toNat_add, Nat.mod_eq_of_lt (by simp; omega)]
  rfl

def nearestBelow (address threshold : UInt64) (table : PatchTable) :
    Option (PatchEntry × UInt64) :=
  (table.entries.takeWhile fun entry => entry.base < address).getLast?.bind fun entry =>
    (nearbyBelow address (threshold + 1) entry).map fun dist => (entry, dist)

theorem nearestBelow_cases {table : PatchTable} (fits : ∀ entry ∈ table.entries, entry.Fits)
    {address threshold : UInt64} (small : threshold.toNat < 2 ^ 64 - 1)
    (outside : ∀ entry ∈ table.entries, ¬entry.Contains address) :
    (∃ entry dist, table.nearestBelow address threshold = some (entry, dist) ∧
      table.IsBefore address entry ∧ dist.toNat = entry.gap address ∧
        entry.gap address ≤ threshold.toNat) ∨
      table.nearestBelow address threshold = none ∧
        ∀ entry, table.IsBefore address entry → threshold.toNat < entry.gap address := by
  have next := toNat_succ small
  unfold nearestBelow
  cases found : (table.entries.takeWhile fun entry => decide (entry.base < address)).getLast? with
  | none =>
      refine Or.inr ⟨rfl, ?_⟩
      intro entry isLast
      rw [(table.before_iff address entry).mpr isLast] at found
      contradiction
  | some entry =>
      have isLast := (table.before_iff address entry).mp found
      have past : entry.start ≤ address.toNat := isLast.2.1.le
      have ended := PatchEntry.pastEnd_le (outside entry isLast.1) past
      have sameEnd := PatchEntry.toNat_pastEnd (fits entry isLast.1)
      have within : entry.base + entry.size ≤ address := by
        rw [UInt64.le_iff_toNat_le, sameEnd]
        exact ended
      have distance : (address - (entry.base + entry.size)).toNat = entry.gap address := by
        rw [UInt64.toNat_sub_of_le _ _ within, sameEnd, PatchEntry.gap_of_past past]
      simp only [Option.bind_some, nearbyBelow, within, true_and, UInt64.lt_iff_toNat_lt, distance,
        next, Nat.lt_succ_iff]
      by_cases near : entry.gap address ≤ threshold.toNat
      · exact Or.inl ⟨entry, _, by rw [if_pos near]; rfl, isLast, distance, near⟩
      · refine Or.inr ⟨by rw [if_neg near]; rfl, ?_⟩
        intro other otherLast
        rw [otherLast.unique isLast]
        exact not_le.mp near

theorem findNearby_after (table : PatchTable) (address threshold : UInt64) :
    (∃ entry dist, table.IsAfter address entry ∧ dist.toNat = entry.gap address ∧
      table.findNearby address threshold =
        if dist < ((table.nearestBelow address threshold).map Prod.snd).getD (threshold + 1) then
          some entry
        else (table.nearestBelow address threshold).map Prod.fst) ∨
      (∀ entry, ¬table.IsAfter address entry) ∧ table.findNearby address threshold =
        (table.nearestBelow address threshold).map Prod.fst := by
  cases found : (table.entries.dropWhile fun entry => decide (entry.base < address)).head? with
  | none =>
      refine Or.inr ⟨fun entry isAfter => ?_, ?_⟩
      · rw [(table.after_iff address entry).mpr isAfter.1] at found
        contradiction
      · simp only [findNearby, found]
        rfl
  | some entry =>
      have isFirst := (table.after_iff address entry).mp found
      have result : table.findNearby address threshold =
          if address < entry.base ∧ entry.base - address <
              ((table.nearestBelow address threshold).map Prod.snd).getD (threshold + 1) then
            some entry
          else (table.nearestBelow address threshold).map Prod.fst := by
        simp only [findNearby, found]
        rfl
      by_cases ahead : address < entry.base
      · have before := UInt64.lt_iff_toNat_lt.mp ahead
        refine Or.inl ⟨entry, entry.base - address, ⟨isFirst, before⟩, ?_, ?_⟩
        · rw [UInt64.toNat_sub_of_le _ _ (UInt64.le_of_lt ahead),
            PatchEntry.gap_of_before before]
          rfl
        · simpa only [ahead, true_and] using result
      · refine Or.inr ⟨fun other isAfter => ahead ?_, by simpa [ahead] using result⟩
        obtain rfl := IsFirst.unique table.ascending isAfter.1 isFirst
        exact UInt64.lt_iff_toNat_lt.mpr isAfter.2

theorem findNearby_cases {table : PatchTable} (fits : ∀ entry ∈ table.entries, entry.Fits)
    {address threshold : UInt64} (small : threshold.toNat < 2 ^ 64 - 1)
    (outside : ∀ entry ∈ table.entries, ¬entry.Contains address) :
    (∃ found, table.findNearby address threshold = some found ∧
      table.Candidate address found ∧ found.gap address ≤ threshold.toNat ∧
        ∀ other, table.Candidate address other → found.gap address ≤ other.gap address) ∨
      table.findNearby address threshold = none ∧
        ∀ other, table.Candidate address other → threshold.toNat < other.gap address := by
  rcases nearestBelow_cases fits small outside with
    ⟨before, beforeDist, below, isBefore, sameBefore, near⟩ | ⟨below, far⟩
  · rcases table.findNearby_after address threshold with
      ⟨after, afterDist, isAfter, sameAfter, result⟩ | ⟨noAfter, result⟩
    · rw [below] at result
      simp only [Option.map_some, Option.getD_some, UInt64.lt_iff_toNat_lt, sameAfter,
        sameBefore] at result
      by_cases closer : after.gap address < before.gap address
      · refine Or.inl ⟨after, by rw [result, if_pos closer], .after isAfter,
          (closer.trans_le near).le, ?_⟩
        rintro other (otherBefore | otherAfter)
        · rw [otherBefore.unique isBefore]
          exact closer.le
        · rw [otherAfter.unique isAfter]
      · refine Or.inl ⟨before, by rw [result, if_neg closer], .before isBefore, near, ?_⟩
        rintro other (otherBefore | otherAfter)
        · rw [otherBefore.unique isBefore]
        · rw [otherAfter.unique isAfter]
          exact not_lt.mp closer
    · refine Or.inl ⟨before, by rw [result, below]; rfl, .before isBefore, near, ?_⟩
      rintro other (otherBefore | otherAfter)
      · rw [otherBefore.unique isBefore]
      · exact absurd otherAfter (noAfter other)
  · rcases table.findNearby_after address threshold with
      ⟨after, afterDist, isAfter, sameAfter, result⟩ | ⟨noAfter, result⟩
    · rw [below] at result
      simp only [Option.map_none, Option.getD_none, UInt64.lt_iff_toNat_lt, sameAfter,
        toNat_succ small, Nat.lt_succ_iff] at result
      by_cases near : after.gap address ≤ threshold.toNat
      · refine Or.inl ⟨after, by rw [result, if_pos near], .after isAfter, near, ?_⟩
        rintro other (otherBefore | otherAfter)
        · exact near.trans (far other otherBefore).le
        · rw [otherAfter.unique isAfter]
      · refine Or.inr ⟨by rw [result, if_neg near], ?_⟩
        rintro other (otherBefore | otherAfter)
        · exact far other otherBefore
        · rw [otherAfter.unique isAfter]
          exact not_le.mp near
    · refine Or.inr ⟨by rw [result, below]; rfl, ?_⟩
      rintro other (otherBefore | otherAfter)
      · exact far other otherBefore
      · exact absurd otherAfter (noAfter other)

theorem Candidate.member {table : PatchTable} {address : UInt64} {entry : PatchEntry}
    (candidate : table.Candidate address entry) : entry ∈ table.entries := by
  rcases candidate with isBefore | isAfter
  · exact isBefore.1
  · exact isAfter.1.1

structure FindNearbySpec (table : PatchTable) (address threshold : UInt64) : Prop where
  found : (∃ entry, table.findNearby address threshold = some entry) ↔
    ∃ entry ∈ table.entries, entry.gap address ≤ threshold.toNat
  nearest : ∀ entry, table.findNearby address threshold = some entry →
    entry ∈ table.entries ∧ ∀ other ∈ table.entries, entry.gap address ≤ other.gap address
  logged : ∀ entry, table.findNearby address threshold = some entry →
    (suspectDistance address entry).toNat = entry.gap address
  printed : ∀ distance entry, logPatchAttribution address table = .suspect distance entry →
    table.findNearby address 64 = some entry ∧ distance.toNat = entry.gap address

/-- Every entry in reach that does not start past the address is outdone by the last one to start
before it or by one that starts past it. -/
def Outdone (table : PatchTable) (address threshold : UInt64) : Prop :=
  ∀ entry ∈ table.entries, entry.start ≤ address.toNat → entry.gap address ≤ threshold.toNat →
    (∃ before, table.IsBefore address before ∧ entry.pastEnd ≤ before.pastEnd) ∨
      ∃ later ∈ table.entries, address.toNat < later.start ∧
        later.start - address.toNat ≤ address.toNat - entry.pastEnd

theorem exists_isFirst_from {table : PatchTable} {address : UInt64} {entry : PatchEntry}
    (member : entry ∈ table.entries) (past : address.toNat ≤ entry.start) :
    ∃ first, IsFirst PatchEntry.start table.entries (fun other => address.toNat ≤ other.start)
      first := by
  obtain ⟨first, isFirst⟩ := exists_isFirst table.ascending (initial_lt address) member
    (decide_eq_false fun below => not_lt.mpr past (UInt64.lt_iff_toNat_lt.mp below))
  exact ⟨first, (table.after_iff address first).mp
    ((firstPast_eq_some table.ascending (initial_lt address)).mpr isFirst)⟩

section

variable {table : PatchTable} {address threshold : UInt64}

theorem logPatchAttribution_suspect (fits : ∀ entry ∈ table.entries, entry.Fits)
    (outside : ∀ entry ∈ table.entries, ¬entry.Contains address) {distance : UInt64}
    {entry : PatchEntry} (reported : logPatchAttribution address table = .suspect distance entry) :
    table.findNearby address 64 = some entry ∧ distance.toNat = entry.gap address := by
  unfold logPatchAttribution at reported
  split at reported
  · contradiction
  · split at reported
    · next nearby =>
        cases reported
        rcases findNearby_cases fits (show (64 : UInt64).toNat < 2 ^ 64 - 1 by decide) outside with
          ⟨found, result, candidate, _, _⟩ | ⟨missed, _⟩
        · obtain rfl := Option.some.inj (result.symm.trans nearby)
          exact ⟨nearby, PatchEntry.toNat_suspectDistance (fits _ candidate.member)
            (outside _ candidate.member)⟩
        · rw [missed] at nearby
          contradiction
    · contradiction

theorem Outdone.candidate_past (outside : ∀ entry ∈ table.entries, ¬entry.Contains address)
    (outdone : table.Outdone address threshold) {later : PatchEntry}
    (member : later ∈ table.entries) (past : address.toNat < later.start) :
    ∃ candidate, table.Candidate address candidate ∧
      candidate.gap address ≤ later.start - address.toNat := by
  obtain ⟨first, isFirst⟩ := exists_isFirst_from member past.le
  have least := isFirst.2.2 later member past.le
  by_cases ahead : address.toNat < first.start
  · refine ⟨first, .after ⟨isFirst, ahead⟩, ?_⟩
    rw [PatchEntry.gap_of_before ahead]
    omega
  · -- An entry of no bytes at the address hides what starts after it.
    have starts : first.start ≤ address.toNat := not_lt.mp ahead
    have ended := PatchEntry.pastEnd_le (outside first isFirst.1) starts
    have empty : first.pastEnd = address.toNat :=
      le_antisymm ended (isFirst.2.1.trans first.start_le_pastEnd)
    have near : first.gap address = 0 := by rw [PatchEntry.gap_of_past starts, empty, Nat.sub_self]
    rcases outdone first isFirst.1 starts (near ▸ Nat.zero_le _) with
      ⟨before, isBefore, reaches⟩ | ⟨other, _, otherPast, closer⟩
    · refine ⟨before, .before isBefore, ?_⟩
      rw [PatchEntry.gap_of_past isBefore.2.1.le]
      omega
    · omega

theorem Outdone.candidate (outside : ∀ entry ∈ table.entries, ¬entry.Contains address)
    (outdone : table.Outdone address threshold) {entry : PatchEntry}
    (member : entry ∈ table.entries) (near : entry.gap address ≤ threshold.toNat) :
    ∃ candidate, table.Candidate address candidate ∧
      candidate.gap address ≤ entry.gap address := by
  by_cases past : address.toNat < entry.start
  · rw [PatchEntry.gap_of_before past]
    exact outdone.candidate_past outside member past
  · have starts := not_lt.mp past
    have gap := PatchEntry.gap_of_past starts
    rcases outdone entry member starts near with
      ⟨before, isBefore, reaches⟩ | ⟨later, laterMember, laterPast, closer⟩
    · refine ⟨before, .before isBefore, ?_⟩
      rw [PatchEntry.gap_of_past isBefore.2.1.le, gap]
      exact Nat.sub_le_sub_left reaches _
    · obtain ⟨candidate, isCandidate, bound⟩ :=
        outdone.candidate_past outside laterMember laterPast
      exact ⟨candidate, isCandidate, gap ▸ bound.trans closer⟩

theorem FindNearbySpec.outdone (fits : ∀ entry ∈ table.entries, entry.Fits)
    (small : threshold.toNat < 2 ^ 64 - 1)
    (outside : ∀ entry ∈ table.entries, ¬entry.Contains address)
    (spec : table.FindNearbySpec address threshold) : table.Outdone address threshold := by
  intro entry member starts near
  have gap := PatchEntry.gap_of_past starts
  have ended := PatchEntry.pastEnd_le (outside entry member) starts
  rcases findNearby_cases fits small outside with
    ⟨found, result, candidate, _, _⟩ | ⟨missed, _⟩
  · obtain ⟨_, nearest⟩ := spec.nearest found result
    have closer := nearest entry member
    rcases candidate with isBefore | isAfter
    · have foundEnded := PatchEntry.pastEnd_le (outside found isBefore.1) isBefore.2.1.le
      rw [PatchEntry.gap_of_past isBefore.2.1.le, gap] at closer
      exact Or.inl ⟨found, isBefore, by omega⟩
    · rw [PatchEntry.gap_of_before isAfter.2, gap] at closer
      exact Or.inr ⟨found, isAfter.1.1, isAfter.2, closer⟩
  · obtain ⟨found, result⟩ := spec.found.mpr ⟨entry, member, near⟩
    rw [missed] at result
    contradiction

theorem Outdone.findNearbySpec (fits : ∀ entry ∈ table.entries, entry.Fits)
    (small : threshold.toNat < 2 ^ 64 - 1)
    (outside : ∀ entry ∈ table.entries, ¬entry.Contains address)
    (outdone : table.Outdone address threshold) : table.FindNearbySpec address threshold := by
  rcases findNearby_cases fits small outside with
    ⟨found, result, candidate, near, least⟩ | ⟨missed, far⟩
  · have member := candidate.member
    constructor
    · exact ⟨fun _ => ⟨found, member, near⟩, fun _ => ⟨found, result⟩⟩
    · intro entry isFound
      obtain rfl := Option.some.inj (result.symm.trans isFound)
      refine ⟨member, fun other otherMember => ?_⟩
      by_cases otherNear : other.gap address ≤ threshold.toNat
      · obtain ⟨closest, isCandidate, bound⟩ := outdone.candidate outside otherMember otherNear
        exact (least closest isCandidate).trans bound
      · exact near.trans (not_le.mp otherNear).le
    · intro entry isFound
      obtain rfl := Option.some.inj (result.symm.trans isFound)
      exact PatchEntry.toNat_suspectDistance (fits _ member) (outside _ member)
    · exact fun _ _ => logPatchAttribution_suspect fits outside
  · constructor
    · constructor
      · rintro ⟨entry, isFound⟩
        rw [missed] at isFound
        contradiction
      · rintro ⟨entry, member, near⟩
        obtain ⟨closest, isCandidate, bound⟩ := outdone.candidate outside member near
        exact absurd (bound.trans near) (not_le.mpr (far closest isCandidate))
    · intro entry isFound
      rw [missed] at isFound
      contradiction
    · intro entry isFound
      rw [missed] at isFound
      contradiction
    · exact fun _ _ => logPatchAttribution_suspect fits outside

end

theorem findNearbySpec_iff (calls : List PatchCall) (address threshold : UInt64)
    (small : threshold.toNat < 2 ^ 64 - 1)
    (outside : ∀ entry ∈ (ofCalls calls).entries, ¬entry.Contains address) :
    (ofCalls calls).FindNearbySpec address threshold ↔
      (ofCalls calls).Outdone address threshold :=
  ⟨fun spec => spec.outdone (ofCalls_fits calls) small outside,
    fun outdone => outdone.findNearbySpec (ofCalls_fits calls) small outside⟩

theorem findNearbySpec_iff_getGameId :
    (ofCalls getGameIdCalls).FindNearbySpec 0x1020 64 ↔
      (ofCalls getGameIdCalls).Outdone 0x1020 64 :=
  findNearbySpec_iff getGameIdCalls 0x1020 64 (by decide) (by decide)

theorem getGameId_unsuspected :
    ¬∀ (calls : List PatchCall) (address threshold : UInt64),
      threshold.toNat < 2 ^ 64 - 1 →
      (∀ entry ∈ (ofCalls calls).entries, ¬entry.Contains address) →
        (ofCalls calls).FindNearbySpec address threshold := by
  intro claimed
  obtain ⟨entry, found⟩ := (claimed getGameIdCalls 0x1048 64 (by decide) (by decide)).found.mpr
    ⟨PatchEntry.make 0x1000 9 (List.replicate 9 0xCC) "LanguageUnlock".toList .byteWrite,
      by decide, by decide⟩
  have missed : (ofCalls getGameIdCalls).findNearby 0x1048 64 = none := rfl
  rw [missed] at found
  contradiction

end PatchTable

end PatchFix
