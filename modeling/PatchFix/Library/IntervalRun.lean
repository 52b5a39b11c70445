import Mathlib.Data.List.Basic
import Mathlib.Order.Lattice

/-!
Half-open intervals that follow one another without a gap, some of them marked, and the interval
from the first marked one to the last.
-/

namespace IntervalRun

variable {Item Point : Type*} [LinearOrder Point] {start stop : Item → Point}
variable {first last : Point} {items : List Item}

/-- The items are nonempty intervals, each of which starts where the one before it stops. -/
inductive Adjoining (start stop : Item → Point) : Point → List Item → Point → Prop
  | nil {point : Point} : Adjoining start stop point [] point
  | cons {item : Item} {items : List Item} {last : Point} : start item < stop item →
      Adjoining start stop (stop item) items last →
      Adjoining start stop (start item) (item :: items) last

def Contains (start stop : Item → Point) (item : Item) (point : Point) : Prop :=
  start item ≤ point ∧ point < stop item

theorem Adjoining.le (adjoining : Adjoining start stop first items last) : first ≤ last := by
  induction adjoining with
  | nil => exact le_rfl
  | cons nonempty _ ih => exact nonempty.le.trans ih

theorem Adjoining.bounds (adjoining : Adjoining start stop first items last) :
    ∀ item ∈ items, first ≤ start item ∧ start item < stop item ∧ stop item ≤ last := by
  induction adjoining with
  | nil => simp
  | cons nonempty rest ih =>
      rw [List.forall_mem_cons]
      refine ⟨⟨le_rfl, nonempty, rest.le⟩, fun item member => ?_⟩
      obtain ⟨above, inside, below⟩ := ih item member
      exact ⟨nonempty.le.trans above, inside, below⟩

theorem Adjoining.covers (adjoining : Adjoining start stop first items last) {point : Point}
    (above : first ≤ point) (below : point < last) :
    ∃ item ∈ items, Contains start stop item point := by
  induction adjoining with
  | nil => exact absurd below above.not_gt
  | @cons item items last _ _ ih =>
      rcases lt_or_ge point (stop item) with inside | past
      · exact ⟨item, List.mem_cons_self, above, inside⟩
      · obtain ⟨found, member, holds⟩ := ih past below
        exact ⟨found, List.mem_cons_of_mem _ member, holds⟩

/-- The intervals before an item stop at its start, and those after it start at its stop. -/
theorem Adjoining.split {before after : List Item} {item : Item}
    (adjoining : Adjoining start stop first (before ++ item :: after) last) :
    (∀ other ∈ before, stop other ≤ start item) ∧ ∀ other ∈ after, stop item ≤ start other := by
  induction before generalizing first with
  | nil =>
      cases adjoining with
      | cons _ rest => exact ⟨by simp, fun other member => (rest.bounds other member).1⟩
  | cons head before ih =>
      cases adjoining with
      | cons _ rest =>
          obtain ⟨earlier, later⟩ := ih rest
          refine ⟨?_, later⟩
          rw [List.forall_mem_cons]
          exact ⟨(rest.bounds item (by simp)).1, earlier⟩

theorem Adjoining.lowest {marked : Item → Prop} {before after : List Item} {item : Item}
    (adjoining : Adjoining start stop first (before ++ item :: after) last)
    (unmarked : ∀ other ∈ before, ¬marked other) :
    ∀ other ∈ before ++ item :: after, marked other → start item ≤ start other := by
  intro other member isMarked
  rcases List.mem_append.mp member with before | rest
  · exact absurd isMarked (unmarked other before)
  · rcases List.mem_cons.mp rest with rfl | after
    · exact le_rfl
    · have inner := (adjoining.bounds item (by simp)).2.1
      exact inner.le.trans (adjoining.split.2 other after)

theorem Adjoining.highest {marked : Item → Prop} {before after : List Item} {item : Item}
    (adjoining : Adjoining start stop first (before ++ item :: after) last)
    (unmarked : ∀ other ∈ after, ¬marked other) :
    ∀ other ∈ before ++ item :: after, marked other → stop other ≤ stop item := by
  intro other member isMarked
  rcases List.mem_append.mp member with before | rest
  · have inner := (adjoining.bounds item (by simp)).2.1
    exact (adjoining.split.1 other before).trans inner.le
  · rcases List.mem_cons.mp rest with rfl | after
    · exact le_rfl
    · exact absurd isMarked (unmarked other after)

def Unbroken (marked : Item → Prop) (items : List Item) : Prop :=
  ∀ before gap after, items = before ++ gap :: after → ¬marked gap →
    (∃ item ∈ before, marked item) → ∀ item ∈ after, ¬marked item

theorem Adjoining.unbroken {marked : Item → Prop}
    (adjoining : Adjoining start stop first items last) {low high : Item}
    (lowest : ∀ item ∈ items, marked item → start low ≤ start item)
    (highest : ∀ item ∈ items, marked item → stop item ≤ stop high)
    (filled : ∀ point, start low ≤ point → point < stop high →
      ∃ item ∈ items, marked item ∧ Contains start stop item point) : Unbroken marked items := by
  rintro before gap after rfl unmarked ⟨left, leftMember, leftMarked⟩ right rightMember rightMarked
  obtain ⟨earlier, later⟩ := adjoining.split
  have inner := (adjoining.bounds gap (by simp)).2.1
  have leftInside := (adjoining.bounds left (by simp [leftMember])).2.1
  have rightInside := (adjoining.bounds right (by simp [rightMember])).2.1
  have above : start low ≤ start gap :=
    (lowest left (by simp [leftMember]) leftMarked).trans
      (leftInside.le.trans (earlier left leftMember))
  have below : start gap < stop high :=
    inner.trans_le ((later right rightMember).trans
      (rightInside.le.trans (highest right (by simp [rightMember]) rightMarked)))
  obtain ⟨item, member, itemMarked, starts, stops⟩ := filled (start gap) above below
  rcases List.mem_append.mp member with before | rest
  · exact absurd stops (earlier item before).not_gt
  · rcases List.mem_cons.mp rest with rfl | after
    · exact unmarked itemMarked
    · exact absurd (inner.trans_le (later item after)) starts.not_gt

theorem Unbroken.marked_of_contains {marked : Item → Prop} (unbroken : Unbroken marked items)
    (adjoining : Adjoining start stop first items last) {low high : Item}
    (lowMember : low ∈ items) (highMember : high ∈ items) (lowMarked : marked low)
    (highMarked : marked high) {point : Point} (above : start low ≤ point)
    (below : point < stop high) {item : Item} (member : item ∈ items)
    (contains : Contains start stop item point) : marked item := by
  obtain ⟨starts, stops⟩ := contains
  by_contra unmarked
  obtain ⟨before, after, rfl⟩ := List.append_of_mem member
  obtain ⟨earlier, later⟩ := adjoining.split
  have lowBefore : low ∈ before := by
    rcases List.mem_append.mp lowMember with before | rest
    · exact before
    · rcases List.mem_cons.mp rest with rfl | after
      · exact absurd lowMarked unmarked
      · exact absurd (above.trans_lt stops) (later low after).not_gt
  have highAfter : high ∈ after := by
    rcases List.mem_append.mp highMember with before | rest
    · exact absurd below ((earlier high before).trans starts).not_gt
    · rcases List.mem_cons.mp rest with rfl | after
      · exact absurd highMarked unmarked
      · exact after
  exact unbroken before item after rfl unmarked ⟨low, lowBefore, lowMarked⟩ high highAfter
    highMarked

theorem hull_iff {marked : Item → Prop} (adjoining : Adjoining start stop first items last)
    {low high : Item} (lowMember : low ∈ items) (highMember : high ∈ items)
    (lowMarked : marked low) (highMarked : marked high)
    (lowest : ∀ item ∈ items, marked item → start low ≤ start item)
    (highest : ∀ item ∈ items, marked item → stop item ≤ stop high) :
    (∀ point, start low ≤ point → point < stop high →
      ∃ item ∈ items, marked item ∧ Contains start stop item point) ↔ Unbroken marked items := by
  refine ⟨adjoining.unbroken lowest highest, ?_⟩
  intro unbroken point above below
  obtain ⟨item, member, contains⟩ := adjoining.covers
    ((adjoining.bounds low lowMember).1.trans above)
    (below.trans_le (adjoining.bounds high highMember).2.2)
  exact ⟨item, member, unbroken.marked_of_contains adjoining lowMember highMember lowMarked
    highMarked above below member contains, contains⟩

end IntervalRun
