import Mathlib.Algebra.Order.Field.Basic
import Mathlib.Tactic.FieldSimp
import Mathlib.Tactic.Linarith
import Mathlib.Tactic.Ring

/-! A first-order lag: the state moves a fixed fraction of the way to its input. -/

namespace FirstOrderLag

variable {K : Type*} [Field K]

def lag (factor state input : K) : K := state + factor * (input - state)

theorem lag_sub (factor first second input other : K) :
    lag factor first input - lag factor second other =
      (1 - factor) * (first - second) + factor * (input - other) := by
  unfold lag
  ring

theorem lag_cancel {factor : K} (nonzero : factor ≠ 0) (state target : K) :
    lag factor state (state + (target - state) / factor) = target := by
  unfold lag
  field_simp
  ring

theorem lag_close [LinearOrder K] [IsStrictOrderedRing K] {factor first second input other : K}
    (nonneg : 0 ≤ factor) (atMostOne : factor ≤ 1) {error : K}
    (states : |first - second| ≤ error) (inputs : |input - other| ≤ error) :
    |lag factor first input - lag factor second other| ≤ error := by
  rw [lag_sub]
  have rest : 0 ≤ 1 - factor := sub_nonneg.mpr atMostOne
  calc |(1 - factor) * (first - second) + factor * (input - other)|
      ≤ |(1 - factor) * (first - second)| + |factor * (input - other)| := abs_add_le _ _
    _ = (1 - factor) * |first - second| + factor * |input - other| := by
        rw [abs_mul, abs_mul, abs_of_nonneg rest, abs_of_nonneg nonneg]
    _ ≤ (1 - factor) * error + factor * error :=
        add_le_add (mul_le_mul_of_nonneg_left states rest)
          (mul_le_mul_of_nonneg_left inputs nonneg)
    _ = error := by ring

theorem lag_le [LinearOrder K] [IsStrictOrderedRing K] {factor state input bound : K}
    (nonneg : 0 ≤ factor) (atMostOne : factor ≤ 1) (stateBound : state ≤ bound)
    (inputBound : input ≤ bound) : lag factor state input ≤ bound := by
  have rest : 0 ≤ 1 - factor := sub_nonneg.mpr atMostOne
  calc lag factor state input = (1 - factor) * state + factor * input := by
        unfold lag
        ring
    _ ≤ (1 - factor) * bound + factor * bound :=
        add_le_add (mul_le_mul_of_nonneg_left stateBound rest)
          (mul_le_mul_of_nonneg_left inputBound nonneg)
    _ = bound := by ring

theorem lag_pos [LinearOrder K] [IsStrictOrderedRing K] {factor state input : K}
    (positive : 0 < factor) (atMostOne : factor ≤ 1) (statePos : 0 ≤ state)
    (inputPos : 0 < input) : 0 < lag factor state input := by
  have rest : 0 ≤ 1 - factor := sub_nonneg.mpr atMostOne
  calc 0 < (1 - factor) * state + factor * input :=
        add_pos_of_nonneg_of_pos (mul_nonneg rest statePos) (mul_pos positive inputPos)
    _ = lag factor state input := by
        unfold lag
        ring

def lags (factor : K) : K → List K → List K
  | _, [] => []
  | state, input :: inputs => lag factor state input :: lags factor (lag factor state input) inputs

/-- The states add up to the inputs, but for what the lag still owes. -/
theorem lags_sum {factor : K} (nonzero : factor ≠ 0) (state : K) (inputs : List K) :
    (lags factor state inputs).sum =
      inputs.sum - (1 - factor) / factor * (inputs.foldl (lag factor) state - state) := by
  induction inputs generalizing state with
  | nil => simp [lags]
  | cons input inputs ih =>
      rw [lags, List.sum_cons, ih, List.sum_cons, List.foldl_cons]
      have moved : factor * input = lag factor state input - (1 - factor) * state := by
        unfold lag
        ring
      field_simp
      rw [mul_add, moved]
      ring

theorem foldl_lag_le [LinearOrder K] [IsStrictOrderedRing K] {factor state bound : K}
    {inputs : List K} (nonneg : 0 ≤ factor) (atMostOne : factor ≤ 1) (start : state ≤ bound)
    (bounded : ∀ input ∈ inputs, input ≤ bound) : inputs.foldl (lag factor) state ≤ bound := by
  induction inputs generalizing state with
  | nil => exact start
  | cons input inputs ih =>
      exact ih (lag_le nonneg atMostOne start (bounded input List.mem_cons_self))
        fun other member => bounded other (List.mem_cons_of_mem _ member)

theorem foldl_lag_pos [LinearOrder K] [IsStrictOrderedRing K] {factor state : K}
    {inputs : List K} (positive : 0 < factor) (atMostOne : factor ≤ 1) (start : 0 < state)
    (inputsPos : ∀ input ∈ inputs, 0 < input) : 0 < inputs.foldl (lag factor) state := by
  induction inputs generalizing state with
  | nil => exact start
  | cons input inputs ih =>
      exact ih (lag_pos positive atMostOne start.le (inputsPos input List.mem_cons_self))
        fun other member => inputsPos other (List.mem_cons_of_mem _ member)

end FirstOrderLag
