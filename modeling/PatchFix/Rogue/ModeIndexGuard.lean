import PatchFix.Library.TransitionRun
import PatchFix.Rogue.FullModeList

/-! `ClampModeIndex` in front of the engine's mode getter, in runs with any number of rebuilds. -/

namespace PatchFix.Rogue

def clampModeIndex (list : ModeList) (index : UInt32) : Option UInt32 :=
  if index < list.count.toUInt32 then some index
  else if list.count ≠ 0 then some (list.count.toUInt32 - 1)
  else none

inductive ModeEvent where
  | rebuild (inputs : RebuildInputs)
  | get (index : UInt32)

def modeStep (sorter : ModeSort) (list : ModeList) : ModeEvent → ModeList
  | .rebuild inputs => (rebuild sorter inputs list).list
  | .get _ => list

/-- What one call may touch: a rebuild copies within the capacity, and the getter reads what the
latest rebuild wrote. -/
def InBounds (sorter : ModeSort) (list : ModeList) : ModeEvent → Prop
  | .rebuild inputs =>
      (rebuild sorter inputs list).copied ≤ (rebuild sorter inputs list).list.capacity
  | .get index =>
      ∀ clamped, clampModeIndex list index = some clamped → clamped.toNat < list.written.length

/-- There is room, or the reserve makes it, or there is no buffer to copy to. -/
def HasRoom (list : ModeList) : ModeEvent → Prop
  | .rebuild inputs =>
      inputs.kept.length ≤ list.capacity ∨
        (∃ cap, inputs.grown = some cap ∧ inputs.kept.length ≤ capacityOf cap) ∨
        list.buffer = false
  | .get _ => True

def ModeList.Published (list : ModeList) : Prop := list.count.toNat = list.written.length

theorem reserve_cases (grown : Option UInt16) (requested : UInt32) (list : ModeList) :
    (∃ cap, grown = some cap ∧ requested.toNat ≤ capacityOf cap ∧
        list.reserve grown requested = { list with cap, buffer := true }) ∨
      (list.reserve grown requested = list ∧
        ¬∃ cap, grown = some cap ∧ requested.toNat ≤ capacityOf cap) := by
  unfold ModeList.reserve
  cases grown with
  | none => simp
  | some cap =>
      by_cases fits : requested.toNat ≤ capacityOf cap
      · simp [fits]
      · simp [fits]

theorem kept_toUInt32 (inputs : RebuildInputs) :
    inputs.kept.length.toUInt32.toNat = inputs.kept.length := by
  have small := kept_length_lt inputs
  simp only [Nat.toUInt32_eq, UInt32.toNat_ofNat']
  omega

/-- A rebuild either publishes nothing or copies everything it kept. -/
theorem rebuild_cases (sorter : ModeSort) (inputs : RebuildInputs) (list : ModeList) :
    (HasRoom list (.rebuild inputs) ∧ (rebuild sorter inputs list).copied = 0 ∧
        (rebuild sorter inputs list).list.Published) ∨
      ((rebuild sorter inputs list).copied = inputs.kept.length ∧
        (rebuild sorter inputs list).list.written.length = inputs.kept.length ∧
        (rebuild sorter inputs list).list.count = inputs.kept.length.toUInt16 ∧
        (inputs.kept.length ≤ (rebuild sorter inputs list).list.capacity ↔
          HasRoom list (.rebuild inputs))) := by
  by_cases none : inputs.kept = []
  · refine Or.inl ⟨Or.inl (by simp [none]), ?_⟩
    simp only [rebuild, none, if_true]
    exact ⟨trivial, rfl⟩
  · simp only [rebuild, none, if_false, (sorter.perm inputs.kept).length_eq]
    by_cases fits : inputs.kept.length > list.clear.capacity
    · rw [if_pos fits]
      have tight : ¬inputs.kept.length ≤ list.capacity := Nat.not_le.mpr fits
      rcases reserve_cases inputs.grown inputs.kept.length.toUInt32 list.clear with
        ⟨cap, same, large, reserved⟩ | ⟨reserved, failed⟩
      · rw [kept_toUInt32] at large
        refine Or.inr ?_
        rw [reserved]
        exact ⟨rfl, (sorter.perm inputs.kept).length_eq, rfl,
          iff_of_true large (Or.inr (Or.inl ⟨cap, same, large⟩))⟩
      · rw [kept_toUInt32] at failed
        rw [reserved]
        cases buffer : list.buffer with
        | false =>
            refine Or.inl ⟨Or.inr (Or.inr buffer), ?_⟩
            simp only [ModeList.clear, buffer, Bool.not_false, if_true]
            exact ⟨trivial, rfl⟩
        | true =>
            refine Or.inr ?_
            simp only [ModeList.clear, buffer, Bool.not_true, Bool.false_eq_true, if_false]
            refine ⟨trivial, (sorter.perm inputs.kept).length_eq, trivial,
              iff_of_false tight ?_⟩
            simp [HasRoom, tight, buffer, failed]
    · rw [if_neg fits]
      have room : inputs.kept.length ≤ list.capacity := Nat.not_lt.mp fits
      cases buffer : list.buffer with
      | false =>
          refine Or.inl ⟨Or.inl room, ?_⟩
          simp only [ModeList.clear, buffer, Bool.not_false, if_true]
          exact ⟨trivial, rfl⟩
      | true =>
          refine Or.inr ?_
          simp only [ModeList.clear, buffer, Bool.not_true, Bool.false_eq_true, if_false]
          exact ⟨trivial, (sorter.perm inputs.kept).length_eq, trivial,
            iff_of_true room (Or.inl room)⟩

theorem inBounds_iff (sorter : ModeSort) (list : ModeList) (event : ModeEvent)
    (published : list.Published) : InBounds sorter list event ↔ HasRoom list event := by
  cases event with
  | rebuild inputs =>
      rcases rebuild_cases sorter inputs list with ⟨room, copied, _⟩ | ⟨copied, _, _, fits⟩
      · refine iff_of_true ?_ room
        rw [InBounds, copied]
        exact Nat.zero_le _
      · rw [InBounds, copied]
        exact fits
  | get index =>
      refine iff_of_true ?_ trivial
      intro clamped found
      have length : list.count.toNat = list.written.length := published
      rw [← length]
      unfold clampModeIndex at found
      split at found
      · next below =>
          obtain rfl := Option.some.inj found
          simpa [UInt32.lt_iff_toNat_lt] using below
      · split at found
        · next nonempty =>
            obtain rfl := Option.some.inj found
            have positive : 0 < list.count.toNat := by
              apply Nat.pos_of_ne_zero
              intro zero
              exact nonempty (UInt16.toNat_inj.mp zero)
            have one : (1 : UInt32) ≤ list.count.toUInt32 := by
              rw [UInt32.le_iff_toNat_le, UInt16.toNat_toUInt32]
              exact positive
            rw [UInt32.toNat_sub_of_le _ _ one, UInt16.toNat_toUInt32]
            exact Nat.sub_lt positive Nat.one_pos
        · contradiction

theorem modeStep_published (sorter : ModeSort) (list : ModeList) (event : ModeEvent)
    (published : list.Published) (room : HasRoom list event) :
    (modeStep sorter list event).Published := by
  cases event with
  | get index => exact published
  | rebuild inputs =>
      rcases rebuild_cases sorter inputs list with ⟨_, _, empty⟩ | ⟨_, written, count, fits⟩
      · exact empty
      · have small := (fits.mpr room).trans (capacityOf_le _)
        change (rebuild sorter inputs list).list.count.toNat =
          (rebuild sorter inputs list).list.written.length
        rw [count, written]
        simp only [Nat.toUInt16_eq, UInt16.toNat_ofNat']
        omega

/-- A run stays in bounds exactly when no rebuild of it copies past a failed reserve. -/
theorem modeRun_inBounds_iff (sorter : ModeSort) (cap : UInt16) (buffer : Bool)
    (events : List ModeEvent) :
    TransitionRun.Along (modeStep sorter) (InBounds sorter) (ModeList.initial cap buffer) events ↔
      TransitionRun.Along (modeStep sorter) HasRoom (ModeList.initial cap buffer) events := by
  apply TransitionRun.along_iff ModeList.Published
  · exact inBounds_iff sorter
  · exact modeStep_published sorter
  · rfl

def failedReserve : RebuildInputs where
  output := true
  available := some 2
  enumeration := some ⟨[⟨1920, 1080, 60, 1, 28, 1, 0⟩, ⟨1920, 1080, 165, 1, 28, 1, 0⟩], by decide⟩
  grown := none

theorem failedReserve_overflows :
    ¬ TransitionRun.Along (modeStep ModeSort.merge) (InBounds ModeSort.merge)
        (ModeList.initial 1 true) [.rebuild failedReserve] := by
  rintro ⟨inside, _⟩
  have published : (ModeList.initial 1 true).Published := rfl
  rcases (inBounds_iff _ _ _ published).mp inside with room | ⟨_, grown, _⟩ | missing
  · exact absurd room (by decide)
  · cases grown
  · cases missing

end PatchFix.Rogue
