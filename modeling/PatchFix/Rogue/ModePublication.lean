import PatchFix.Rogue.ModeIndexGuard

/-!
What a rebuild publishes, over a reserve that may end in any way and leave any vector when it fails.
-/

namespace PatchFix.Rogue

structure ReserveOutcome where
  ok : Bool
  cap : UInt16
  buffer : Bool
  hasBuffer : ok = true → buffer = true

def ReserveOutcome.vector (outcome : ReserveOutcome) (list : ModeList) : ModeList :=
  { list with cap := outcome.cap, buffer := outcome.buffer }

def rebuildWith (sorter : ModeSort) (outcome : ReserveOutcome) (inputs : RebuildInputs)
    (list : ModeList) : ModeList :=
  let list := list.clear
  let kept := inputs.kept
  if kept = [] then list
  else
    let modes := sorter.sort kept
    let list := if modes.length > list.capacity then outcome.vector list else list
    if !list.buffer then list
    else { list with count := modes.length.toUInt16, written := modes }

def ReserveOutcome.ofGrown (grown : Option UInt16) (requested : UInt32) (list : ModeList) :
    ReserveOutcome :=
  match grown with
  | some cap =>
      if requested.toNat ≤ capacityOf cap then ⟨true, cap, true, fun _ => rfl⟩
      else ⟨false, list.cap, list.buffer, fun impossible => nomatch impossible⟩
  | none => ⟨false, list.cap, list.buffer, fun impossible => nomatch impossible⟩

theorem ofGrown_vector (grown : Option UInt16) (requested : UInt32) (list : ModeList) :
    (ReserveOutcome.ofGrown grown requested list).vector list = list.reserve grown requested := by
  unfold ReserveOutcome.ofGrown ModeList.reserve
  cases grown with
  | none => rfl
  | some cap =>
      by_cases fits : requested.toNat ≤ capacityOf cap
      · simp [fits, ReserveOutcome.vector]
      · simp [fits, ReserveOutcome.vector]

theorem rebuild_list (sorter : ModeSort) (inputs : RebuildInputs) (list : ModeList) :
    (rebuild sorter inputs list).list = rebuildWith sorter
      (.ofGrown inputs.grown inputs.kept.length.toUInt32 list.clear) inputs list := by
  unfold rebuild rebuildWith
  simp only [ofGrown_vector, (sorter.perm inputs.kept).length_eq]
  split
  · rfl
  · generalize (if inputs.kept.length > list.clear.capacity then
      list.clear.reserve inputs.grown inputs.kept.length.toUInt32 else list.clear) = grown
    cases buffer : grown.buffer with
    | true => simp
    | false => simp

inductive Reports (inputs : RebuildInputs) : List ModeDesc → Prop
  | none : inputs.output = true → inputs.available = some 0 → Reports inputs []
  | modes {available : UInt32} {enumeration : Enumeration} : inputs.output = true →
      inputs.available = some available → available ≠ 0 →
      inputs.enumeration = some enumeration → Reports inputs enumeration.modes

theorem Reports.kept {inputs : RebuildInputs} {modes : List ModeDesc}
    (reports : Reports inputs modes) : inputs.kept = modes.filter largeEnough := by
  cases reports with
  | none output available => simp [RebuildInputs.kept, output, available]
  | modes output available some enumerated =>
      simp [RebuildInputs.kept, output, available, some, enumerated]

theorem kept_of_not_reports {inputs : RebuildInputs} (failed : ¬∃ modes, Reports inputs modes) :
    inputs.kept = [] := by
  by_contra nonempty
  apply failed
  unfold RebuildInputs.kept at nonempty
  cases output : inputs.output with
  | false => simp [output] at nonempty
  | true =>
      cases available : inputs.available with
      | none => simp [output, available] at nonempty
      | some count =>
          by_cases empty : count = 0
          · exact ⟨[], .none output (empty ▸ available)⟩
          · cases enumerated : inputs.enumeration with
            | none => simp [output, available, empty, enumerated] at nonempty
            | some enumeration => exact ⟨_, .modes output available empty enumerated⟩

theorem modeLess_strictWeakOrder :
    IsStrictWeakOrder ModeDesc fun first second => modeLess first second = true where
  irrefl := fun mode => by rw [modeLess_iff]; exact lt_irrefl _
  trans := fun first second third => by
    simp only [modeLess_iff]
    exact lt_trans
  incomp_trans := fun first second third => by
    simp only [modeLess_iff, not_lt]
    rintro ⟨secondBelow, firstBelow⟩ ⟨thirdBelow, below⟩
    exact ⟨thirdBelow.trans secondBelow, firstBelow.trans below⟩

def destination (outcome : ReserveOutcome) (inputs : RebuildInputs) (list : ModeList) : ModeList :=
  if inputs.kept.length > list.capacity then outcome.vector list.clear else list.clear

structure Publishes (sorter : ModeSort) (outcome : ReserveOutcome) (inputs : RebuildInputs)
    (list : ModeList) : Prop where
  complete : ∀ modes, Reports inputs modes →
    inputs.kept.length ≤ list.capacity ∨ outcome.ok = true →
    (destination outcome inputs list).buffer = true →
      let after := rebuildWith sorter outcome inputs list
      after.written.Perm (modes.filter largeEnough) ∧
        after.written.Pairwise (fun first second => modeKey first ≤ modeKey second) ∧
          after.count.toNat = (modes.filter largeEnough).length
  failed : (¬∃ modes, Reports inputs modes) ∨
      (list.capacity < inputs.kept.length ∧ outcome.ok = false) ∨
      (destination outcome inputs list).buffer = false →
    (rebuildWith sorter outcome inputs list).count = 0
  comparator : IsStrictWeakOrder ModeDesc fun first second => modeLess first second = true

/-- There is room, or the reserve makes it, or it leaves no buffer. -/
def ReserveOutcome.Harmless (outcome : ReserveOutcome) (inputs : RebuildInputs)
    (list : ModeList) : Prop :=
  inputs.kept.length ≤ list.capacity ∨ outcome.ok = true ∨ outcome.buffer = false

variable {sorter : ModeSort} {outcome : ReserveOutcome} {inputs : RebuildInputs} {list : ModeList}

theorem rebuildWith_of_empty (empty : inputs.kept = []) :
    rebuildWith sorter outcome inputs list = list.clear := by
  rw [rebuildWith, if_pos empty]

theorem rebuildWith_of_kept (nonempty : inputs.kept ≠ []) :
    rebuildWith sorter outcome inputs list =
      if !(destination outcome inputs list).buffer then destination outcome inputs list
      else
        { destination outcome inputs list with
          count := inputs.kept.length.toUInt16, written := sorter.sort inputs.kept } := by
  simp only [rebuildWith, nonempty, if_false, (sorter.perm inputs.kept).length_eq]
  rfl

theorem destination_count : (destination outcome inputs list).count = 0 := by
  unfold destination
  split
  · rfl
  · rfl

theorem count_of_noBuffer (missing : (destination outcome inputs list).buffer = false) :
    (rebuildWith sorter outcome inputs list).count = 0 := by
  by_cases empty : inputs.kept = []
  · rw [rebuildWith_of_empty empty]
    rfl
  · rw [rebuildWith_of_kept empty, missing]
    exact destination_count

theorem toNat_length (small : inputs.kept.length ≤ 65535) :
    inputs.kept.length.toUInt16.toNat = inputs.kept.length := by
  simp only [Nat.toUInt16_eq, UInt16.toNat_ofNat']
  omega

variable (sorter) in
theorem rebuildWith_published (small : inputs.kept.length ≤ 65535)
    (present : (destination outcome inputs list).buffer = true) :
    (rebuildWith sorter outcome inputs list).written.Perm inputs.kept ∧
      (rebuildWith sorter outcome inputs list).written.Pairwise
        (fun first second => modeKey first ≤ modeKey second) ∧
      (rebuildWith sorter outcome inputs list).count.toNat = inputs.kept.length := by
  by_cases empty : inputs.kept = []
  · rw [rebuildWith_of_empty empty, empty]
    exact ⟨List.Perm.nil, List.Pairwise.nil, rfl⟩
  · rw [rebuildWith_of_kept empty, present]
    refine ⟨sorter.perm inputs.kept, ?_, toNat_length small⟩
    exact (sorter.sorted inputs.kept).imp fun ordered => (modeLess_eq_false _ _).mp ordered

theorem Publishes.harmless (small : inputs.kept.length ≤ 65535)
    (publishes : Publishes sorter outcome inputs list) : outcome.Harmless inputs list := by
  by_contra harmful
  simp only [ReserveOutcome.Harmless, not_or, not_le, Bool.not_eq_true, Bool.not_eq_false]
    at harmful
  obtain ⟨tight, refused, buffer⟩ := harmful
  have present : (destination outcome inputs list).buffer = true := by
    rw [destination, if_pos tight]
    exact buffer
  have empty := publishes.failed (Or.inr (Or.inl ⟨tight, refused⟩))
  have count := (rebuildWith_published sorter small present).2.2
  have none : inputs.kept.length = 0 := by
    rw [empty] at count
    exact count.symm
  omega

theorem ReserveOutcome.Harmless.publishes (small : inputs.kept.length ≤ 65535)
    (harmless : outcome.Harmless inputs list) : Publishes sorter outcome inputs list := by
  refine ⟨?_, ?_, modeLess_strictWeakOrder⟩
  · intro modes reports _ present
    rw [← reports.kept]
    exact rebuildWith_published sorter small present
  · rintro (unreported | ⟨tight, refused⟩ | missing)
    · rw [rebuildWith_of_empty (kept_of_not_reports unreported)]
      rfl
    · rcases harmless with room | succeeded | noBuffer
      · exact absurd tight (not_lt.mpr room)
      · rw [refused] at succeeded
        contradiction
      · apply count_of_noBuffer
        rw [destination, if_pos tight]
        exact noBuffer
    · exact count_of_noBuffer missing

theorem publishes_iff (sorter : ModeSort) (outcome : ReserveOutcome) (inputs : RebuildInputs)
    (list : ModeList) (small : inputs.kept.length ≤ 65535) :
    Publishes sorter outcome inputs list ↔ outcome.Harmless inputs list :=
  ⟨Publishes.harmless small, ReserveOutcome.Harmless.publishes small⟩

def keepsOld : ReserveOutcome := ⟨false, 1, true, fun impossible => nomatch impossible⟩

theorem publishes_iff_keepsOld :
    Publishes ModeSort.merge keepsOld failedReserve (.initial 1 true) ↔
      keepsOld.Harmless failedReserve (.initial 1 true) :=
  publishes_iff ModeSort.merge keepsOld failedReserve (.initial 1 true) (by decide)

theorem keepsOld_counts :
    ¬∀ (sorter : ModeSort) (outcome : ReserveOutcome) (inputs : RebuildInputs) (list : ModeList),
      inputs.kept.length ≤ 65535 → Publishes sorter outcome inputs list := by
  intro claimed
  have publishes := claimed ModeSort.merge keepsOld failedReserve (.initial 1 true) (by decide)
  rcases publishes.harmless (by decide) with room | succeeded | noBuffer
  · exact absurd room (by decide)
  · exact absurd succeeded (by decide)
  · exact absurd noBuffer (by decide)

end PatchFix.Rogue
