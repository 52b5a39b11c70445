import Mathlib.Algebra.BigOperators.Group.Finset.Piecewise
import Mathlib.Algebra.Order.BigOperators.Group.Finset
import Mathlib.Data.Fintype.EquivFin
import PatchFix.Library.DependencyGraph
import PatchFix.Library.PartialFold

/-!
`RegistryOps::topo_sort`: Kahn's algorithm over the hard and soft dependencies of a hook list.
`none` is an `at()` access out of range, which fails the constant evaluation.
-/

namespace PatchFix

open DependencyGraph

variable {count : Nat}

structure DegreeTable (count : Nat) where
  adj : Fin count → List (Fin count)
  inDegree : Fin count → Nat

def DegreeTable.empty (count : Nat) : DegreeTable count where
  adj := fun _ => []
  inDegree := fun _ => 0

def DegreeTable.addEdge (index : Fin count) (table : DegreeTable count) (dep : Fin count) :
    Option (DegreeTable count) :=
  if (table.adj dep).length < count then
    some {
      adj := Function.update table.adj dep (table.adj dep ++ [index])
      inDegree := Function.update table.inDegree index (table.inDegree index + 1)
    }
  else none

def buildDegreeTable (hard soft : Fin count → List (Fin count)) : Option (DegreeTable count) :=
  (List.finRange count).foldlM (fun table index => do
    let table ← (hard index).foldlM (DegreeTable.addEdge index) table
    (soft index).foldlM (DegreeTable.addEdge index) table) (DegreeTable.empty count)

def enqueue (queue : List (Fin count)) (vertex : Fin count) : Option (List (Fin count)) :=
  if queue.length < count then some (queue ++ [vertex]) else none

def initialQueue (inDegree : Fin count → Nat) : Option (List (Fin count)) :=
  (List.finRange count).foldlM (fun queue index =>
    if inDegree index = 0 then enqueue queue index else some queue) []

structure SortState (count : Nat) where
  inDegree : Fin count → Nat
  queue : List (Fin count)
  front : Nat
  order : List (Fin count)

def SortState.release (state : SortState count) (vertex : Fin count) : Option (SortState count) :=
  let inDegree := Function.update state.inDegree vertex (state.inDegree vertex - 1)
  if inDegree vertex = 0 then do
    let queue ← enqueue state.queue vertex
    some { state with inDegree, queue }
  else some { state with inDegree }

def SortState.visit (adj : Fin count → List (Fin count)) (state : SortState count)
    (vertex : Fin count) : Option (SortState count) := do
  let order ← enqueue state.order vertex
  (adj vertex).foldlM SortState.release { state with order, front := state.front + 1 }

/-- `while (front < back)`; the queue holds at most `count` entries, so `count` rounds finish. -/
def sortLoop (adj : Fin count → List (Fin count)) :
    Nat → SortState count → Option (SortState count)
  | 0, state => some state
  | fuel + 1, state =>
      match state.queue[state.front]? with
      | none => some state
      | some vertex => do
          let state ← state.visit adj vertex
          sortLoop adj fuel state

def topoSort (hard soft : Fin count → List (Fin count)) : Option (List (Fin count) × Nat) := do
  let table ← buildDegreeTable hard soft
  let queue ← initialQueue table.inDegree
  let state ← sortLoop table.adj count
    { inDegree := table.inDegree, queue, front := 0, order := [] }
  some (state.order, state.order.length)

def AnyDep (hard soft : Fin count → List (Fin count)) (vertex target : Fin count) : Prop :=
  target ∈ hard vertex ∨ target ∈ soft vertex

def pendingEdges (adj : Fin count → List (Fin count)) (done : List (Fin count))
    (vertex : Fin count) : Nat :=
  ∑ source ∈ Finset.univ \ done.toFinset, (adj source).count vertex

theorem pendingEdges_visit (adj : Fin count → List (Fin count)) (done : List (Fin count))
    {source : Fin count} (fresh : source ∉ done) (vertex : Fin count) :
    pendingEdges adj done vertex =
      pendingEdges adj (done ++ [source]) vertex + (adj source).count vertex := by
  have member : source ∈ Finset.univ \ done.toFinset := by simp [fresh]
  have shrunk : Finset.univ \ (done ++ [source]).toFinset =
      (Finset.univ \ done.toFinset).erase source := by
    ext other
    simp only [List.toFinset_append, List.toFinset_cons, List.toFinset_nil, Finset.mem_sdiff,
      Finset.mem_univ, true_and, Finset.mem_union, List.mem_toFinset, Finset.mem_insert,
      Finset.notMem_empty, or_false, Finset.mem_erase, not_or]
    exact and_comm
  unfold pendingEdges
  rw [shrunk, Finset.sum_erase_add _ _ member]

theorem pendingEdges_eq_zero (adj : Fin count → List (Fin count)) (done : List (Fin count))
    (vertex : Fin count) :
    pendingEdges adj done vertex = 0 ↔ ∀ source, vertex ∈ adj source → source ∈ done := by
  simp only [pendingEdges, Finset.sum_eq_zero_iff, Finset.mem_sdiff, Finset.mem_univ, true_and,
    List.mem_toFinset, List.count_eq_zero]
  constructor
  · intro none source edge
    by_contra outside
    exact none source outside edge
  · intro all source outside edge
    exact outside (all source edge)

/-! The degree table records every dependency once per occurrence. -/

structure DegreeTable.Records (edges : Fin count → Fin count → Prop)
    (table : DegreeTable count) : Prop where
  adjacent : ∀ source vertex, vertex ∈ table.adj source ↔ edges vertex source
  degree : ∀ vertex, table.inDegree vertex = pendingEdges table.adj [] vertex

theorem DegreeTable.Records.congr {edges edges' : Fin count → Fin count → Prop}
    {table : DegreeTable count} (records : table.Records edges)
    (same : ∀ vertex source, edges vertex source ↔ edges' vertex source) :
    table.Records edges' :=
  ⟨fun source vertex => (records.adjacent source vertex).trans (same vertex source),
    records.degree⟩

theorem DegreeTable.Records.addEdge {edges : Fin count → Fin count → Prop}
    {table table' : DegreeTable count} {index dep : Fin count}
    (records : table.Records edges) (added : table.addEdge index dep = some table') :
    table'.Records fun vertex source => edges vertex source ∨ (vertex = index ∧ source = dep) := by
  simp only [DegreeTable.addEdge, Option.ite_none_right_eq_some, Option.some.injEq] at added
  obtain ⟨_, rfl⟩ := added
  constructor
  · intro source vertex
    by_cases same : source = dep
    · subst same
      simp [records.adjacent]
    · simp [records.adjacent, same]
  · intro vertex
    have counted : ∀ source,
        (Function.update table.adj dep (table.adj dep ++ [index]) source).count vertex =
          (table.adj source).count vertex + if source = dep ∧ vertex = index then 1 else 0 := by
      intro source
      by_cases same : source = dep
      · subst same
        by_cases here : vertex = index
        · simp [here]
        · simp [here, Ne.symm here]
      · simp [same]
    have total := records.degree vertex
    simp only [pendingEdges, List.toFinset_nil, Finset.sdiff_empty] at total ⊢
    rw [Finset.sum_congr rfl fun source _ => counted source, Finset.sum_add_distrib, ← total]
    by_cases here : vertex = index
    · subst here
      simp
    · simp [here]

theorem DegreeTable.Records.addEdges {edges : Fin count → Fin count → Prop}
    {table table' : DegreeTable count} {index : Fin count} {deps : List (Fin count)}
    (records : table.Records edges)
    (added : deps.foldlM (DegreeTable.addEdge index) table = some table') :
    table'.Records fun vertex source => edges vertex source ∨ (vertex = index ∧ source ∈ deps) := by
  apply PartialFold.foldlM_invariant (fun done (table : DegreeTable count) =>
    table.Records fun vertex source => edges vertex source ∨ (vertex = index ∧ source ∈ done)) added
  · exact records.congr (by simp)
  · intro done dep rest state state' _ held stepped
    exact (held.addEdge stepped).congr (by
      intro vertex source
      simp only [List.mem_append, List.mem_singleton, and_or_left, or_assoc])

theorem buildDegreeTable_records {hard soft : Fin count → List (Fin count)}
    {table : DegreeTable count} (built : buildDegreeTable hard soft = some table) :
    table.Records (AnyDep hard soft) := by
  have filled := PartialFold.foldlM_invariant (fun done (table : DegreeTable count) =>
    table.Records fun vertex source => vertex ∈ done ∧ AnyDep hard soft vertex source) built
    (by
      constructor
      · simp [DegreeTable.empty]
      · simp [DegreeTable.empty, pendingEdges])
    (by
      intro done index rest state state' _ held stepped
      simp only [Option.bind_eq_bind, Option.bind_eq_some_iff] at stepped
      obtain ⟨middle, hardAdded, softAdded⟩ := stepped
      exact ((held.addEdges hardAdded).addEdges softAdded).congr (by
        intro vertex source
        simp only [List.mem_append, List.mem_singleton, AnyDep]
        constructor
        · rintro ((⟨seen, edge⟩ | ⟨rfl, edge⟩) | ⟨rfl, edge⟩)
          · exact ⟨Or.inl seen, edge⟩
          · exact ⟨Or.inr rfl, Or.inl edge⟩
          · exact ⟨Or.inr rfl, Or.inr edge⟩
        · rintro ⟨seen | rfl, edge⟩
          · exact Or.inl (Or.inl ⟨seen, edge⟩)
          · rcases edge with edge | edge
            · exact Or.inl (Or.inr ⟨rfl, edge⟩)
            · exact Or.inr ⟨rfl, edge⟩))
  exact filled.congr (by simp)

/-! The main loop: the vertices taken from the queue are a prefix of it, and a vertex is queued
once the edges from all of its dependencies have been released. -/

structure SortState.Correct (adj : Fin count → List (Fin count)) (done : List (Fin count))
    (pending : Fin count → Nat) (state : SortState count) : Prop where
  unique : state.queue.Nodup
  taken : done <+: state.queue
  degree : ∀ vertex, state.inDegree vertex = pending vertex
  queued : ∀ vertex, vertex ∈ state.queue ↔ state.inDegree vertex = 0
  ordered : DependenciesFirst (fun vertex source => vertex ∈ adj source) state.queue

theorem enqueue_eq_some {queue queue' : List (Fin count)} {vertex : Fin count}
    (added : enqueue queue vertex = some queue') : queue' = queue ++ [vertex] := by
  simp only [enqueue, Option.ite_none_right_eq_some, Option.some.injEq] at added
  exact added.2.symm

theorem initialQueue_spec {inDegree : Fin count → Nat} {queue : List (Fin count)}
    (filled : initialQueue inDegree = some queue) :
    queue = (List.finRange count).filter fun vertex => inDegree vertex = 0 := by
  apply PartialFold.foldlM_invariant (fun done (queue : List (Fin count)) =>
    queue = done.filter fun vertex => inDegree vertex = 0) filled
  · rfl
  · intro done index rest queue queue' _ held stepped
    subst held
    rw [List.filter_append]
    split at stepped
    next zero =>
      rw [enqueue_eq_some stepped]
      simp [zero]
    next nonzero =>
      simp only [Option.some.injEq] at stepped
      simp [← stepped, nonzero]

theorem SortState.Correct.initial {adj : Fin count → List (Fin count)}
    {inDegree : Fin count → Nat} {queue : List (Fin count)}
    (degree : ∀ vertex, inDegree vertex = pendingEdges adj [] vertex)
    (filled : initialQueue inDegree = some queue) :
    SortState.Correct adj [] (pendingEdges adj [])
      { inDegree, queue, front := 0, order := [] } := by
  have filtered := initialQueue_spec filled
  have isQueued : ∀ vertex, vertex ∈ queue ↔ inDegree vertex = 0 := by simp [filtered]
  constructor
  · rw [filtered]
    exact (List.nodup_finRange count).filter _
  · exact List.nil_prefix
  · exact degree
  · exact isQueued
  · intro before vertex after split source edge
    have member : vertex ∈ queue := by simp [show queue = _ from split]
    have zero : pendingEdges adj [] vertex = 0 :=
      (degree vertex).symm.trans ((isQueued vertex).mp member)
    exact absurd ((pendingEdges_eq_zero adj [] vertex).mp zero source edge) (by simp)

theorem SortState.Correct.release {adj : Fin count → List (Fin count)} {done : List (Fin count)}
    {rest : List (Fin count)} {vertex : Fin count} {state state' : SortState count}
    (correct : state.Correct adj done fun target =>
      pendingEdges adj done target + (vertex :: rest).count target)
    (released : state.release vertex = some state') :
    state'.Correct adj done (fun target => pendingEdges adj done target + rest.count target) ∧
      state'.front = state.front ∧ state'.order = state.order := by
  have positive : state.inDegree vertex ≠ 0 := by
    simp [correct.degree vertex]
  have absent : vertex ∉ state.queue := fun member => positive ((correct.queued vertex).mp member)
  have lowered : ∀ target,
      Function.update state.inDegree vertex (state.inDegree vertex - 1) target =
        pendingEdges adj done target + rest.count target := by
    intro target
    by_cases same : target = vertex
    · subst same
      simp [correct.degree target, ← Nat.add_assoc]
    · simp [same, Ne.symm same, correct.degree target]
  simp only [SortState.release, Function.update_self] at released
  split at released
  next zero =>
    simp only [Option.bind_eq_bind, Option.bind_eq_some_iff, Option.some.injEq] at released
    obtain ⟨queue, added, rfl⟩ := released
    obtain rfl := enqueue_eq_some added
    refine ⟨⟨?_, ?_, lowered, ?_, ?_⟩, rfl, rfl⟩
    · exact List.nodup_append.mpr ⟨correct.unique, List.nodup_singleton _, by
        rintro first member second last rfl
        exact absent (List.mem_singleton.mp last ▸ member)⟩
    · exact correct.taken.trans (List.prefix_append _ _)
    · intro target
      by_cases same : target = vertex
      · simp [same, zero]
      · simp [same, correct.queued target]
    · refine correct.ordered.concat fun source edge => correct.taken.subset ?_
      have settled := lowered vertex
      rw [Function.update_self, zero] at settled
      exact (pendingEdges_eq_zero adj done vertex).mp (by omega) source edge
  next nonzero =>
    simp only [Option.some.injEq] at released
    subst released
    refine ⟨⟨correct.unique, correct.taken, lowered, ?_, correct.ordered⟩, rfl, rfl⟩
    intro target
    by_cases same : target = vertex
    · simp [same, nonzero, absent]
    · simp [same, correct.queued target]

theorem SortState.Correct.releaseAll {adj : Fin count → List (Fin count)}
    {done targets : List (Fin count)} {state state' : SortState count}
    (correct : state.Correct adj done fun target =>
      pendingEdges adj done target + targets.count target)
    (released : targets.foldlM SortState.release state = some state') :
    state'.Correct adj done (pendingEdges adj done) ∧
      state'.front = state.front ∧ state'.order = state.order := by
  induction targets generalizing state with
  | nil =>
      simp only [List.foldlM_nil, Option.pure_def, Option.some.injEq] at released
      subst released
      exact ⟨by simpa using correct, rfl, rfl⟩
  | cons vertex rest ih =>
      simp only [List.foldlM_cons, Option.bind_eq_bind, Option.bind_eq_some_iff] at released
      obtain ⟨middle, first, later⟩ := released
      obtain ⟨middleCorrect, middleFront, middleOrder⟩ := correct.release first
      obtain ⟨finalCorrect, finalFront, finalOrder⟩ := ih middleCorrect later
      exact ⟨finalCorrect, finalFront.trans middleFront, finalOrder.trans middleOrder⟩

structure SortState.AtHead (adj : Fin count → List (Fin count)) (state : SortState count) :
    Prop where
  correct : state.Correct adj state.order (pendingEdges adj state.order)
  front : state.front = state.order.length

theorem SortState.AtHead.next_fresh {adj : Fin count → List (Fin count)} {state : SortState count}
    {vertex : Fin count} (head : state.AtHead adj)
    (next : state.queue[state.front]? = some vertex) :
    state.order ++ [vertex] <+: state.queue ∧ vertex ∉ state.order := by
  obtain ⟨rest, split⟩ := head.correct.taken
  have unique := head.correct.unique
  rw [head.front, ← split, List.getElem?_append_right (Nat.le_refl _), Nat.sub_self] at next
  cases rest with
  | nil => simp at next
  | cons first tail =>
      obtain rfl : first = vertex := by simpa using next
      refine ⟨⟨tail, by simpa using split⟩, ?_⟩
      exact PartialFold.notMem_done unique split.symm

theorem SortState.AtHead.started {adj : Fin count → List (Fin count)} {state : SortState count}
    {vertex : Fin count} (head : state.AtHead adj)
    (next : state.queue[state.front]? = some vertex) :
    SortState.Correct adj (state.order ++ [vertex])
      (fun target => pendingEdges adj (state.order ++ [vertex]) target + (adj vertex).count target)
      { state with order := state.order ++ [vertex], front := state.front + 1 } := by
  obtain ⟨taken, fresh⟩ := head.next_fresh next
  exact ⟨head.correct.unique, taken,
    fun target => (head.correct.degree target).trans (pendingEdges_visit adj _ fresh target),
    head.correct.queued, head.correct.ordered⟩

theorem SortState.AtHead.visit {adj : Fin count → List (Fin count)}
    {state state' : SortState count} {vertex : Fin count} (head : state.AtHead adj)
    (next : state.queue[state.front]? = some vertex)
    (visited : state.visit adj vertex = some state') :
    state'.AtHead adj ∧ state'.order = state.order ++ [vertex] := by
  simp only [SortState.visit, Option.bind_eq_bind, Option.bind_eq_some_iff] at visited
  obtain ⟨order, appended, released⟩ := visited
  obtain rfl := enqueue_eq_some appended
  obtain ⟨correct, front, same⟩ := (head.started next).releaseAll released
  refine ⟨⟨same ▸ correct, ?_⟩, same⟩
  rw [front, same, head.front, List.length_append, List.length_singleton]

theorem sortLoop_correct {adj : Fin count → List (Fin count)} {fuel : Nat}
    {state state' : SortState count} (head : state.AtHead adj)
    (enough : count ≤ state.order.length + fuel)
    (finished : sortLoop adj fuel state = some state') :
    state'.AtHead adj ∧ state'.order = state'.queue := by
  induction fuel generalizing state with
  | zero =>
      simp only [sortLoop, Option.some.injEq] at finished
      subst finished
      refine ⟨head, head.correct.taken.eq_of_length_le ?_⟩
      have short := head.correct.unique.length_le_card
      rw [Fintype.card_fin] at short
      omega
  | succ fuel ih =>
      simp only [sortLoop] at finished
      split at finished
      next stopped =>
        simp only [Option.some.injEq] at finished
        subst finished
        refine ⟨head, head.correct.taken.eq_of_length_le ?_⟩
        rw [← head.front]
        exact List.getElem?_eq_none_iff.mp stopped
      next vertex next =>
        simp only [Option.bind_eq_bind, Option.bind_eq_some_iff] at finished
        obtain ⟨middle, visited, later⟩ := finished
        obtain ⟨middleHead, middleOrder⟩ := head.visit next visited
        exact ih middleHead (by rw [middleOrder, List.length_append, List.length_singleton]; omega)
          later

/-- What a completed sort returns: distinct vertices, each after its dependencies, and every
vertex left out depends on another one left out. -/
theorem topoSort_spec {hard soft : Fin count → List (Fin count)} {order : List (Fin count)}
    {sorted : Nat} (completed : topoSort hard soft = some (order, sorted)) :
    sorted = order.length ∧ order.Nodup ∧ DependenciesFirst (AnyDep hard soft) order ∧
      ∀ vertex, vertex ∉ order → ∃ target, AnyDep hard soft vertex target ∧ target ∉ order := by
  simp only [topoSort, Option.bind_eq_bind, Option.bind_eq_some_iff, Option.some.injEq,
    Prod.mk.injEq] at completed
  obtain ⟨table, built, queue, filled, state, looped, rfl, rfl⟩ := completed
  have records := buildDegreeTable_records built
  obtain ⟨head, drained⟩ := sortLoop_correct
    ⟨SortState.Correct.initial records.degree filled, rfl⟩ (by simp) looped
  refine ⟨rfl, drained ▸ head.correct.unique, ?_, ?_⟩
  · intro before vertex after split target edge
    exact head.correct.ordered before vertex after (drained ▸ split) target
      ((records.adjacent target vertex).mpr edge)
  · intro vertex outside
    have nonzero : pendingEdges table.adj state.order vertex ≠ 0 := by
      rw [← head.correct.degree vertex]
      exact fun zero => outside (drained ▸ (head.correct.queued vertex).mpr zero)
    rw [Ne, pendingEdges_eq_zero] at nonzero
    push Not at nonzero
    obtain ⟨target, edge, targetOutside⟩ := nonzero
    exact ⟨target, (records.adjacent target vertex).mp edge, targetOutside⟩

theorem topoSort_complete {hard soft : Fin count → List (Fin count)} {order : List (Fin count)}
    {sorted : Nat} (completed : topoSort hard soft = some (order, sorted))
    (acyclic : Acyclic (AnyDep hard soft)) (vertex : Fin count) : vertex ∈ order := by
  by_contra outside
  exact acyclic.empty_of_dependency (· ∉ order) (topoSort_spec completed).2.2.2 vertex outside

end PatchFix
