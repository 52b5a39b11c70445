import Mathlib.Order.Lattice
import Mathlib.Data.List.Pairwise

/-!
Searches in a list with increasing keys: the last item before a boundary and the first one past it,
where the items before the boundary are those that satisfy a predicate closed under smaller keys.
-/

namespace SortedSearch

variable {Item Key : Type*} [LinearOrder Key] {key : Item → Key}

def Ascending (key : Item → Key) (items : List Item) : Prop :=
  items.Pairwise fun first second => key first < key second

/-- The items before a boundary in the order of their keys. -/
def Initial (key : Item → Key) (before : Item → Bool) : Prop :=
  ∀ first second, key first < key second → before second = true → before first = true

def IsLast (key : Item → Key) (items : List Item) (holds : Item → Prop) (item : Item) : Prop :=
  item ∈ items ∧ holds item ∧ ∀ other ∈ items, holds other → key other ≤ key item

def IsFirst (key : Item → Key) (items : List Item) (holds : Item → Prop) (item : Item) : Prop :=
  item ∈ items ∧ holds item ∧ ∀ other ∈ items, holds other → key item ≤ key other

theorem Ascending.eq_of_key_eq {items : List Item} (ascending : Ascending key items)
    {first second : Item} (firstMember : first ∈ items) (secondMember : second ∈ items)
    (same : key first = key second) : first = second := by
  have distinct : items.Pairwise fun left right => key left ≠ key right :=
    ascending.imp fun order => order.ne
  have symmetric : Std.Symm fun left right => key left ≠ key right := ⟨fun _ _ => Ne.symm⟩
  by_contra different
  exact distinct.forall firstMember secondMember different same

theorem IsLast.unique {items : List Item} {holds : Item → Prop} {first second : Item}
    (ascending : Ascending key items) (isFirst : IsLast key items holds first)
    (isSecond : IsLast key items holds second) : first = second :=
  ascending.eq_of_key_eq isFirst.1 isSecond.1
    (le_antisymm (isSecond.2.2 first isFirst.1 isFirst.2.1)
      (isFirst.2.2 second isSecond.1 isSecond.2.1))

theorem IsFirst.unique {items : List Item} {holds : Item → Prop} {first second : Item}
    (ascending : Ascending key items) (isFirst : IsFirst key items holds first)
    (isSecond : IsFirst key items holds second) : first = second :=
  ascending.eq_of_key_eq isFirst.1 isSecond.1
    (le_antisymm (isFirst.2.2 second isSecond.1 isSecond.2.1)
      (isSecond.2.2 first isFirst.1 isFirst.2.1))

theorem filter_before {items : List Item} {before : Item → Bool} (ascending : Ascending key items)
    (initial : Initial key before) :
    items.takeWhile before = items.filter before ∧
      items.dropWhile before = items.filter fun item => !before item := by
  induction items with
  | nil => exact ⟨rfl, rfl⟩
  | cons head tail ih =>
      obtain ⟨later, rest⟩ := List.pairwise_cons.mp ascending
      by_cases inside : before head = true
      · simp [inside, ih rest]
      · have outside : ∀ other ∈ tail, before other = false := by
          intro other member
          rw [← Bool.not_eq_true]
          exact fun within => inside (initial head other (later other member) within)
        simp only [List.takeWhile_cons, List.dropWhile_cons, List.filter_cons, inside]
        have none : tail.filter before = [] := by
          simpa [List.filter_eq_nil_iff] using outside
        have all : tail.filter (fun item => !before item) = tail := by
          simpa [List.filter_eq_self] using outside
        simp [none, all]

theorem getLast?_eq_some {items : List Item} {item : Item} (ascending : Ascending key items) :
    items.getLast? = some item ↔ IsLast key items (fun _ => True) item := by
  constructor
  · intro last
    obtain ⟨earlier, rfl⟩ := List.getLast?_eq_some_iff.mp last
    obtain ⟨_, _, order⟩ := List.pairwise_append.mp ascending
    refine ⟨by simp, trivial, ?_⟩
    intro other member _
    rcases List.mem_append.mp member with early | same
    · exact (order other early item (by simp)).le
    · rw [List.mem_singleton.mp same]
  · rintro ⟨member, _, greatest⟩
    obtain ⟨earlier, later, rfl⟩ := List.append_of_mem member
    obtain ⟨_, tail, _⟩ := List.pairwise_append.mp ascending
    cases later with
    | nil => simp
    | cons next later =>
        have above := (List.pairwise_cons.mp tail).1 next List.mem_cons_self
        exact absurd (greatest next (by simp) trivial) (not_le.mpr above)

theorem head?_eq_some {items : List Item} {item : Item} (ascending : Ascending key items) :
    items.head? = some item ↔ IsFirst key items (fun _ => True) item := by
  cases items with
  | nil => simp [IsFirst]
  | cons head tail =>
      obtain ⟨later, _⟩ := List.pairwise_cons.mp ascending
      rw [List.head?_cons, Option.some.injEq]
      constructor
      · rintro rfl
        refine ⟨List.mem_cons_self, trivial, ?_⟩
        intro other member _
        rcases List.mem_cons.mp member with rfl | member
        · exact le_rfl
        · exact (later other member).le
      · rintro ⟨member, _, least⟩
        rcases List.mem_cons.mp member with same | member
        · exact same.symm
        · exact absurd (least head List.mem_cons_self trivial)
            (not_le.mpr (later item member))

theorem lastBefore_eq_some {items : List Item} {before : Item → Bool} {item : Item}
    (ascending : Ascending key items) (initial : Initial key before) :
    (items.takeWhile before).getLast? = some item ↔
      IsLast key items (fun other => before other = true) item := by
  rw [(filter_before ascending initial).1, getLast?_eq_some (ascending.filter before)]
  simp [IsLast, and_assoc]

theorem lastBefore_eq_none {items : List Item} {before : Item → Bool}
    (ascending : Ascending key items) (initial : Initial key before) :
    (items.takeWhile before).getLast? = none ↔ ∀ item ∈ items, before item = false := by
  rw [(filter_before ascending initial).1, List.getLast?_eq_none_iff, List.filter_eq_nil_iff]
  simp

theorem exists_isLast {items : List Item} {before : Item → Bool}
    (ascending : Ascending key items) (initial : Initial key before) {item : Item}
    (member : item ∈ items) (within : before item = true) :
    ∃ last, IsLast key items (fun other => before other = true) last := by
  cases found : (items.takeWhile before).getLast? with
  | none =>
      have outside := (lastBefore_eq_none ascending initial).mp found item member
      exact absurd within (Bool.not_eq_true _ ▸ outside)
  | some last => exact ⟨last, (lastBefore_eq_some ascending initial).mp found⟩

theorem firstPast_eq_some {items : List Item} {before : Item → Bool} {item : Item}
    (ascending : Ascending key items) (initial : Initial key before) :
    (items.dropWhile before).head? = some item ↔
      IsFirst key items (fun other => before other = false) item := by
  rw [(filter_before ascending initial).2, head?_eq_some (ascending.filter _)]
  simp [IsFirst, and_assoc]

theorem firstPast_eq_none {items : List Item} {before : Item → Bool}
    (ascending : Ascending key items) (initial : Initial key before) :
    (items.dropWhile before).head? = none ↔ ∀ item ∈ items, before item = true := by
  rw [(filter_before ascending initial).2, List.head?_eq_none_iff, List.filter_eq_nil_iff]
  simp

theorem exists_isFirst {items : List Item} {before : Item → Bool}
    (ascending : Ascending key items) (initial : Initial key before) {item : Item}
    (member : item ∈ items) (past : before item = false) :
    ∃ first, IsFirst key items (fun other => before other = false) first := by
  cases found : (items.dropWhile before).head? with
  | none =>
      have within := (firstPast_eq_none ascending initial).mp found item member
      rw [past] at within
      contradiction
  | some first => exact ⟨first, (firstPast_eq_some ascending initial).mp found⟩

end SortedSearch
