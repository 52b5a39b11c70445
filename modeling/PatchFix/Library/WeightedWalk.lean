import Mathlib.Algebra.Order.Ring.Abs
import Mathlib.Data.Int.Order.Basic
import Mathlib.Tactic.Linarith
import Mathlib.Tactic.Ring

/-! Walks in a directed graph with integer weights on its edges. -/

namespace WeightedWalk

variable {Vertex : Type*} (edge : Vertex → Vertex → Prop) (weight : Vertex → Vertex → ℤ)

def Walk : Vertex → List Vertex → Vertex → Prop
  | start, [], finish => start = finish
  | start, next :: rest, finish => edge start next ∧ Walk next rest finish

def total : Vertex → List Vertex → ℤ
  | _, [] => 0
  | start, next :: rest => weight start next + total next rest

variable {edge weight}

variable (weight) in
theorem Walk.append {start middle finish : Vertex} {first second : List Vertex}
    (before : Walk edge start first middle) (after : Walk edge middle second finish) :
    Walk edge start (first ++ second) finish ∧
      total weight start (first ++ second) =
        total weight start first + total weight middle second := by
  induction first generalizing start with
  | nil =>
      obtain rfl := before
      exact ⟨after, (Int.zero_add _).symm⟩
  | cons next rest ih =>
      obtain ⟨here, later⟩ := before
      obtain ⟨walk, sum⟩ := ih later
      refine ⟨⟨here, walk⟩, ?_⟩
      rw [List.cons_append, total, total, sum, Int.add_assoc]

theorem Walk.invariant (holds : Vertex → Prop) {start finish : Vertex} {walk : List Vertex}
    (path : Walk edge start walk finish) (base : holds start)
    (closed : ∀ vertex next, holds vertex → edge vertex next → holds next) : holds finish := by
  induction walk generalizing start with
  | nil =>
      obtain rfl := path
      exact base
  | cons next rest ih => exact ih path.2 (closed start next base path.1)

theorem Walk.total_eq_zero (holds : Vertex → Prop) {start finish : Vertex} {walk : List Vertex}
    (path : Walk edge start walk finish) (base : holds start)
    (closed : ∀ vertex next, holds vertex → edge vertex next → holds next)
    (free : ∀ vertex next, holds vertex → edge vertex next → weight vertex next = 0) :
    total weight start walk = 0 := by
  induction walk generalizing start with
  | nil => rfl
  | cons next rest ih =>
      rw [total, free start next base path.1, ih path.2 (closed start next base path.1),
        Int.add_zero]

def rounds (cycle : List Vertex) : ℕ → List Vertex
  | 0 => []
  | count + 1 => cycle ++ rounds cycle count

variable (weight) in
theorem Walk.rounds {start : Vertex} {cycle : List Vertex} (loop : Walk edge start cycle start)
    (count : ℕ) : Walk edge start (WeightedWalk.rounds cycle count) start ∧
      total weight start (WeightedWalk.rounds cycle count) = count * total weight start cycle := by
  induction count with
  | zero => exact ⟨rfl, by simp [WeightedWalk.rounds, total]⟩
  | succ count ih =>
      obtain ⟨walk, sum⟩ := loop.append weight ih.1
      refine ⟨walk, ?_⟩
      rw [WeightedWalk.rounds, sum, ih.2]
      push_cast
      ring

/-- A reachable cycle that does not weigh 0 makes the weights of walks unbounded. -/
theorem unbounded_of_cycle {start turn : Vertex} {first cycle : List Vertex}
    (reach : Walk edge start first turn) (loop : Walk edge turn cycle turn)
    (heavy : total weight turn cycle ≠ 0) (bound : ℤ) :
    ∃ count, Walk edge start (first ++ rounds cycle count) turn ∧
      bound < |total weight start (first ++ rounds cycle count)| := by
  obtain ⟨turns, sum⟩ := loop.rounds weight (|total weight start first| + |bound| + 1).toNat
  obtain ⟨walk, whole⟩ := reach.append weight turns
  refine ⟨_, walk, ?_⟩
  rw [whole, sum, Int.toNat_of_nonneg (by positivity)]
  have cycleLeast : 1 ≤ |total weight turn cycle| := Int.one_le_abs heavy
  have countNonneg : 0 ≤ |total weight start first| + |bound| + 1 := by positivity
  have grown : |total weight start first| + |bound| + 1 ≤
      |(|total weight start first| + |bound| + 1) * total weight turn cycle| := by
    rw [abs_mul, abs_of_nonneg countNonneg]
    exact le_mul_of_one_le_right countNonneg cycleLeast
  have apart := abs_sub_abs_le_abs_add
    ((|total weight start first| + |bound| + 1) * total weight turn cycle)
    (total weight start first)
  have within := le_abs_self bound
  rw [add_comm (total weight start first)]
  linarith

end WeightedWalk
