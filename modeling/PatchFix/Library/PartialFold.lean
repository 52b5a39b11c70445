import Mathlib.Data.List.Nodup

/-! Invariants of left folds, total and partial, that speak about the items already consumed. -/

namespace PartialFold

variable {Item State : Type*} (holds : List Item → State → Prop)

theorem notMem_done {items done rest : List Item} {item : Item} (unique : items.Nodup)
    (split : items = done ++ item :: rest) : item ∉ done := by
  rw [split] at unique
  exact fun member => List.disjoint_of_nodup_append unique member List.mem_cons_self

theorem foldl_invariant {step : State → Item → State} {items : List Item} {start : State}
    (base : holds [] start)
    (next : ∀ done item rest state, items = done ++ item :: rest → holds done state →
      holds (done ++ [item]) (step state item)) :
    holds items (items.foldl step start) := by
  have resume : ∀ rest done state, items = done ++ rest → holds done state →
      holds items (rest.foldl step state) := by
    intro rest
    induction rest with
    | nil =>
        intro done state split held
        simpa [split] using held
    | cons item rest ih =>
        intro done state split held
        exact ih (done ++ [item]) (step state item) (by simpa using split)
          (next done item rest state split held)
  exact resume items [] start rfl base

theorem foldlM_invariant {step : State → Item → Option State} {items : List Item}
    {start finish : State} (run : items.foldlM step start = some finish)
    (base : holds [] start)
    (next : ∀ done item rest state state', items = done ++ item :: rest → holds done state →
      step state item = some state' → holds (done ++ [item]) state') :
    holds items finish := by
  have resume : ∀ rest done state, items = done ++ rest → holds done state →
      rest.foldlM step state = some finish → holds items finish := by
    intro rest
    induction rest with
    | nil =>
        intro done state split held stopped
        simp only [List.foldlM_nil, Option.pure_def, Option.some.injEq] at stopped
        simpa [split, stopped] using held
    | cons item rest ih =>
        intro done state split held continued
        simp only [List.foldlM_cons, Option.bind_eq_bind, Option.bind_eq_some_iff] at continued
        obtain ⟨state', stepped, later⟩ := continued
        exact ih (done ++ [item]) state' (by simpa using split)
          (next done item rest state state' split held stepped) later
  exact resume items [] start rfl base run

theorem foldlM_total {step : State → Item → Option State} {items : List Item} {start : State}
    (base : holds [] start)
    (next : ∀ done item rest state, items = done ++ item :: rest → holds done state →
      ∃ state', step state item = some state' ∧ holds (done ++ [item]) state') :
    ∃ finish, items.foldlM step start = some finish ∧ holds items finish := by
  have resume : ∀ rest done state, items = done ++ rest → holds done state →
      ∃ finish, rest.foldlM step state = some finish ∧ holds items finish := by
    intro rest
    induction rest with
    | nil =>
        intro done state split held
        exact ⟨state, rfl, by simpa [split] using held⟩
    | cons item rest ih =>
        intro done state split held
        obtain ⟨state', stepped, held'⟩ := next done item rest state split held
        obtain ⟨finish, run, last⟩ := ih (done ++ [item]) state' (by simpa using split) held'
        refine ⟨finish, ?_, last⟩
        rw [List.foldlM_cons, stepped]
        exact run
  exact resume items [] start rfl base

end PartialFold
