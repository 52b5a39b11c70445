import PatchFix.Library.SortedSearch

/-!
The binary search for a boundary in a list, and the insertion of an item at it. The search reads the
items it halves at; that the items before the boundary come first is what makes its answer right.
-/

namespace SortedSearch

variable {Item Key : Type*} [LinearOrder Key] {key : Item → Key}

def lowerBoundFrom (before : Item → Bool) (items : List Item) (first length : Nat)
    (inside : first + length ≤ items.length) : Nat :=
  if nonempty : 0 < length then
    let half := length / 2
    if before (items[first + half]) then
      lowerBoundFrom before items (first + half + 1) (length - (half + 1)) (by omega)
    else lowerBoundFrom before items first half (by omega)
  else first
termination_by length
decreasing_by all_goals omega

def lowerBound (before : Item → Bool) (items : List Item) : Nat :=
  lowerBoundFrom before items 0 items.length (by omega)

def Partitioned (before : Item → Bool) (items : List Item) : Prop :=
  items.Pairwise fun first second => before second = true → before first = true

theorem Ascending.partitioned {items : List Item} {before : Item → Bool}
    (ascending : Ascending key items) (initial : Initial key before) : Partitioned before items :=
  ascending.imp fun order => initial _ _ order

theorem Partitioned.before {items : List Item} {before : Item → Bool}
    (partitioned : Partitioned before items) {low high : Nat} (order : low ≤ high)
    (inside : high < items.length) (within : before items[high] = true) :
    before items[low] = true := by
  rcases Nat.lt_or_eq_of_le order with below | rfl
  · exact List.pairwise_iff_getElem.mp partitioned low high (by omega) inside below within
  · exact within

structure IsBoundary (before : Item → Bool) (items : List Item) (position : Nat) : Prop where
  inside : position ≤ items.length
  left : ∀ index, (bound : index < items.length) → index < position → before items[index] = true
  right : ∀ index, (bound : index < items.length) → position ≤ index → before items[index] = false

theorem lowerBoundFrom_isBoundary {before : Item → Bool} {items : List Item}
    (partitioned : Partitioned before items) (first length : Nat)
    (inside : first + length ≤ items.length)
    (left : ∀ index, (bound : index < items.length) → index < first → before items[index] = true)
    (right : ∀ index, (bound : index < items.length) → first + length ≤ index →
      before items[index] = false) :
    IsBoundary before items (lowerBoundFrom before items first length inside) := by
  fun_induction lowerBoundFrom before items first length inside with
  | case1 first length inside nonempty half within ih =>
      have middle : first + half < items.length := by omega
      refine ih ?_ ?_
      · intro index bound order
        exact partitioned.before (by omega) middle within
      · intro index bound order
        exact right index bound (by omega)
  | case2 first length inside nonempty half outside ih =>
      refine ih left ?_
      intro index bound order
      rw [← Bool.not_eq_true]
      exact fun within => outside (partitioned.before order bound within)
  | case3 first length inside empty =>
      exact ⟨by omega, left, fun index bound order => right index bound (by omega)⟩

theorem lowerBound_isBoundary {before : Item → Bool} {items : List Item}
    (partitioned : Partitioned before items) :
    IsBoundary before items (lowerBound before items) :=
  lowerBoundFrom_isBoundary partitioned 0 items.length _ (fun _ _ order => absurd order (by omega))
    fun _ bound order => absurd order (by omega)

theorem IsBoundary.eq_findIdx {before : Item → Bool} {items : List Item} {position : Nat}
    (boundary : IsBoundary before items position) :
    items.findIdx (fun item => !before item) = position := by
  rcases Nat.lt_or_eq_of_le boundary.inside with inside | rfl
  · rw [List.findIdx_eq inside]
    refine ⟨by simpa using boundary.right position inside le_rfl, ?_⟩
    intro index order
    simpa using boundary.left index (order.trans inside) order
  · rw [List.findIdx_eq_length]
    intro item member
    obtain ⟨index, bound, rfl⟩ := List.getElem_of_mem member
    simpa using boundary.left index bound bound

theorem split_lowerBound {before : Item → Bool} {items : List Item}
    (partitioned : Partitioned before items) :
    items.take (lowerBound before items) = items.takeWhile before ∧
      items.drop (lowerBound before items) = items.dropWhile before := by
  rw [← (lowerBound_isBoundary partitioned).eq_findIdx]
  exact ⟨List.takeWhile_eq_take_findIdx_not.symm, List.dropWhile_eq_drop_findIdx_not.symm⟩

theorem head_lowerBound {before : Item → Bool} {items : List Item}
    (partitioned : Partitioned before items) :
    items[lowerBound before items]? = (items.dropWhile before).head? := by
  rw [← (split_lowerBound partitioned).2, List.head?_drop]

def itemBefore (items : List Item) : Nat → Option Item
  | 0 => none
  | position + 1 => items[position]?

theorem itemBefore_lowerBound {before : Item → Bool} {items : List Item}
    (partitioned : Partitioned before items) :
    itemBefore items (lowerBound before items) = (items.takeWhile before).getLast? := by
  have inside := (lowerBound_isBoundary partitioned).inside
  rw [← (split_lowerBound partitioned).1, List.getLast?_take]
  cases place : lowerBound before items with
  | zero => rfl
  | succ position =>
      have bound : position < items.length := by omega
      rw [if_neg (Nat.succ_ne_zero position), Nat.add_sub_cancel, itemBefore,
        List.getElem?_eq_getElem bound, Option.some_or]

def insertNew (before same : Item → Bool) (item : Item) (items : List Item) : List Item :=
  match items.dropWhile before with
  | [] => items.takeWhile before ++ [item]
  | found :: after =>
      if same found then items else items.takeWhile before ++ item :: found :: after

structure Places (key : Item → Key) (before same : Item → Bool) (item : Item) : Prop where
  before_iff : ∀ other, before other = true ↔ key other < key item
  same_iff : ∀ other, same other = true ↔ key other = key item

theorem initial_le_toNat (key : Item → UInt64) (bound : UInt64) :
    Initial (fun item => (key item).toNat) fun item => decide (key item ≤ bound) := by
  intro first second order within
  simp only [decide_eq_true_eq, UInt64.le_iff_toNat_le] at within ⊢
  exact (order.trans_le within).le

theorem initial_lt_toNat (key : Item → UInt64) (bound : UInt64) :
    Initial (fun item => (key item).toNat) fun item => decide (key item < bound) := by
  intro first second order within
  simp only [decide_eq_true_eq, UInt64.lt_iff_toNat_lt] at within ⊢
  exact order.trans within

theorem places_toNat (key : Item → UInt64) (item : Item) :
    Places (fun other => (key other).toNat) (fun other => decide (key other < key item))
      (fun other => decide (key other = key item)) item := by
  refine ⟨fun other => ?_, fun other => ?_⟩
  · rw [decide_eq_true_eq, UInt64.lt_iff_toNat_lt]
  · rw [decide_eq_true_eq, UInt64.toNat_inj]

section

variable {before same : Item → Bool} {item : Item} {items : List Item}

theorem Places.initial (places : Places key before same item) : Initial key before := by
  intro first second order within
  rw [places.before_iff] at within ⊢
  exact order.trans within

theorem insertNew_cases (places : Places key before same item)
    (ascending : Ascending key items) :
    ((∃ found ∈ items, key found = key item) ∧ insertNew before same item items = items) ∨
      (∀ other ∈ items.dropWhile before, key item < key other) ∧
        insertNew before same item items =
          items.takeWhile before ++ item :: items.dropWhile before := by
  have past : ∀ other ∈ items.dropWhile before, key item ≤ key other := by
    intro other member
    rw [(filter_before ascending places.initial).2, List.mem_filter, Bool.not_eq_true'] at member
    rw [← not_lt, ← places.before_iff, member.2]
    exact Bool.false_ne_true
  have order : Ascending key (items.dropWhile before) :=
    List.Pairwise.sublist (List.dropWhile_sublist before) ascending
  unfold insertNew
  cases rest : items.dropWhile before with
  | nil => exact Or.inr ⟨fun _ member => absurd member List.not_mem_nil, rfl⟩
  | cons found after =>
      rw [rest] at past order
      by_cases present : same found = true
      · have member : found ∈ items.dropWhile before := rest ▸ List.mem_cons_self
        exact Or.inl ⟨⟨found, (List.dropWhile_sublist before).subset member,
          (places.same_iff found).mp present⟩, if_pos present⟩
      · refine Or.inr ⟨?_, if_neg present⟩
        have different : key item ≠ key found :=
          fun equal => present ((places.same_iff found).mpr equal.symm)
        have above := lt_of_le_of_ne (past found List.mem_cons_self) different
        intro other member
        rcases List.mem_cons.mp member with rfl | later
        · exact above
        · exact above.trans ((List.pairwise_cons.mp order).1 other later)

theorem mem_insertNew (places : Places key before same item) (ascending : Ascending key items)
    {member : Item} :
    member ∈ insertNew before same item items ↔
      member ∈ items ∨ (member = item ∧ ∀ other ∈ items, key other ≠ key item) := by
  rcases insertNew_cases places ascending with ⟨⟨found, inside, equal⟩, unchanged⟩ | ⟨above, result⟩
  · rw [unchanged]
    exact ⟨Or.inl, fun either => either.elim id fun fresh => absurd equal (fresh.2 found inside)⟩
  · have fresh : ∀ other ∈ items, key other ≠ key item := by
      intro other inside
      rw [← List.takeWhile_append_dropWhile (p := before) (l := items)] at inside
      rcases List.mem_append.mp inside with earlier | later
      · rw [(filter_before ascending places.initial).1, List.mem_filter,
          places.before_iff] at earlier
        exact earlier.2.ne
      · exact (above other later).ne'
    have parts : member ∈ items ↔
        member ∈ items.takeWhile before ∨ member ∈ items.dropWhile before := by
      rw [← List.mem_append, List.takeWhile_append_dropWhile]
    rw [result, List.mem_append, List.mem_cons, parts]
    constructor
    · rintro (earlier | rfl | later)
      · exact Or.inl (Or.inl earlier)
      · exact Or.inr ⟨rfl, fresh⟩
      · exact Or.inl (Or.inr later)
    · rintro ((earlier | later) | ⟨rfl, _⟩)
      · exact Or.inl earlier
      · exact Or.inr (Or.inr later)
      · exact Or.inr (Or.inl rfl)

theorem ascending_insertNew (places : Places key before same item)
    (ascending : Ascending key items) : Ascending key (insertNew before same item items) := by
  rcases insertNew_cases places ascending with ⟨_, unchanged⟩ | ⟨above, result⟩
  · rw [unchanged]
    exact ascending
  · rw [result]
    have left : Ascending key (items.takeWhile before) :=
      List.Pairwise.sublist (List.takeWhile_sublist before) ascending
    have right : Ascending key (items.dropWhile before) :=
      List.Pairwise.sublist (List.dropWhile_sublist before) ascending
    refine List.pairwise_append.mpr ⟨left, List.pairwise_cons.mpr ⟨above, right⟩, ?_⟩
    intro first early second member
    rw [(filter_before ascending places.initial).1, List.mem_filter, places.before_iff] at early
    rcases List.mem_cons.mp member with rfl | later
    · exact early.2
    · exact early.2.trans (above second later)

theorem map_insertNew {Image : Type*} (image : Item → Image) (before same : Image → Bool)
    (item : Item) (items : List Item) :
    (insertNew (before ∘ image) (same ∘ image) item items).map image =
      insertNew before same (image item) (items.map image) := by
  unfold insertNew
  rw [List.takeWhile_map, List.dropWhile_map]
  cases items.dropWhile (before ∘ image) with
  | nil => simp
  | cons found after =>
      simp only [List.map_cons, Function.comp_apply]
      split
      · rfl
      · simp

theorem insertNew_lowerBound (places : Places key before same item)
    (ascending : Ascending key items) :
    insertNew before same item items =
      let place := lowerBound before items
      match items[place]? with
      | none => items.take place ++ item :: items.drop place
      | some found =>
          if same found then items else items.take place ++ item :: items.drop place := by
  have partitioned := ascending.partitioned places.initial
  dsimp only
  rw [head_lowerBound partitioned, (split_lowerBound partitioned).1,
    (split_lowerBound partitioned).2]
  unfold insertNew
  cases items.dropWhile before <;> rfl

end

end SortedSearch
