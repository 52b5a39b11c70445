import Mathlib.Algebra.BigOperators.Fin
import PatchFix.Registry

/-!
`topo_sort` as a function on hook lists: when its evaluation completes, and what it then returns.
-/

namespace PatchFix

open DependencyGraph

variable {count : Nat} {hard soft : Fin count → List (Fin count)}

def sortState (hard soft : Fin count → List (Fin count)) : Option (SortState count) := do
  let table ← buildDegreeTable hard soft
  let queue ← initialQueue table.inDegree
  sortLoop table.adj count { inDegree := table.inDegree, queue, front := 0, order := [] }

theorem topoSort_sortState (hard soft : Fin count → List (Fin count)) :
    topoSort hard soft =
      (sortState hard soft).map fun state => (state.order, state.order.length) := by
  simp only [topoSort, sortState, Option.bind_eq_bind, Option.map_eq_bind, Option.bind_assoc,
    Function.comp_def]

theorem sortState_queue {state : SortState count} (ended : sortState hard soft = some state) :
    state.queue.Nodup ∧ state.order = state.queue := by
  simp only [sortState, Option.bind_eq_bind, Option.bind_eq_some_iff] at ended
  obtain ⟨table, built, queue, filled, looped⟩ := ended
  have records := buildDegreeTable_records built
  obtain ⟨head, drained⟩ := sortLoop_correct
    ⟨SortState.Correct.initial records.degree filled, rfl⟩ (by simp) looped
  exact ⟨head.correct.unique, drained⟩

theorem nodup_complete_iff {order : List (Fin count)} (unique : order.Nodup) :
    order.length = count ↔ ∀ vertex, vertex ∈ order := by
  rw [← List.toFinset_card_of_nodup unique]
  have full := Finset.card_eq_iff_eq_univ order.toFinset
  rw [Fintype.card_fin] at full
  rw [full, Finset.eq_univ_iff_forall]
  simp only [List.mem_toFinset]

structure TopoSortCorrect (hard soft : Fin count → List (Fin count)) (order : List (Fin count))
    (sorted : Nat) : Prop where
  countIff : sorted = count ↔ Acyclic (AnyDep hard soft)
  queuedOnce : ∃ state, sortState hard soft = some state ∧ state.queue.Nodup ∧
    order = state.queue
  permutation : sorted = count → order.Perm (List.finRange count)
  depsFirst : sorted = count → ∀ vertex dep, AnyDep hard soft vertex dep →
    order.idxOf dep < order.idxOf vertex

theorem topoSort_correct {order : List (Fin count)} {sorted : Nat}
    (completed : topoSort hard soft = some (order, sorted)) :
    TopoSortCorrect hard soft order sorted := by
  obtain ⟨length, unique, ordered, _⟩ := topoSort_spec completed
  have complete : sorted = count ↔ ∀ vertex, vertex ∈ order := by
    rw [length]
    exact nodup_complete_iff unique
  constructor
  · rw [complete]
    constructor
    · exact ordered.acyclic
    · exact topoSort_complete completed
  · rw [topoSort_sortState, Option.map_eq_some_iff] at completed
    obtain ⟨state, ended, result⟩ := completed
    obtain ⟨queued, drained⟩ := sortState_queue ended
    obtain ⟨rfl, _⟩ := Prod.mk.inj result
    exact ⟨state, ended, queued, drained⟩
  · intro full
    refine (List.perm_ext_iff_of_nodup unique (List.nodup_finRange count)).mpr fun vertex => ?_
    exact iff_of_true (complete.mp full vertex) (List.mem_finRange vertex)
  · intro full vertex dep edge
    exact ordered.idxOf_lt (complete.mp full vertex) edge

theorem topoSort_correct_mocks :
    TopoSortCorrect (![[], [0], [0]] : Fin 3 → List (Fin 3)) ![[], [], [1, 0]] [0, 1, 2] 3 :=
  topoSort_correct (by decide)

/-! Which accesses of `topo_sort` can leave their arrays: only the rows of `adj`, when more edges
than the list has hooks leave one dependency. -/

def edgeCount (hard soft : Fin count → List (Fin count)) (dep : Fin count) : Nat :=
  ∑ index, ((hard index).count dep + (soft index).count dep)

def edgeList (hard soft : Fin count → List (Fin count)) : List (Fin count × Fin count) :=
  (List.finRange count).flatMap fun index =>
    (hard index).map (index, ·) ++ (soft index).map (index, ·)

def addEdges (edges : List (Fin count × Fin count)) (table : DegreeTable count) :
    Option (DegreeTable count) :=
  edges.foldlM (fun table edge => table.addEdge edge.1 edge.2) table

theorem buildDegreeTable_edgeList (hard soft : Fin count → List (Fin count)) :
    buildDegreeTable hard soft = addEdges (edgeList hard soft) (DegreeTable.empty count) := by
  unfold buildDegreeTable edgeList addEdges
  generalize DegreeTable.empty count = table
  induction List.finRange count generalizing table with
  | nil => rfl
  | cons index rest ih =>
      simp only [List.foldlM_cons, List.flatMap_cons, List.foldlM_append, List.foldlM_map, ih]

theorem edgeList_countP (hard soft : Fin count → List (Fin count)) (dep : Fin count) :
    (edgeList hard soft).countP (·.2 = dep) = edgeCount hard soft dep := by
  rw [edgeList, List.countP_flatMap, edgeCount, Fin.sum_univ_def]
  congr 1
  refine List.map_congr_left fun index _ => ?_
  simp only [Function.comp_apply, List.countP_append, List.countP_map, List.count]
  rfl

theorem addEdge_isSome (table : DegreeTable count) (index dep : Fin count) :
    (table.addEdge index dep).isSome ↔ (table.adj dep).length < count := by
  unfold DegreeTable.addEdge
  split
  next fits => simp [fits]
  next full => simp [full]

theorem addEdge_rows {table table' : DegreeTable count} {index dep : Fin count}
    (added : table.addEdge index dep = some table') (source : Fin count) :
    (table'.adj source).length = (table.adj source).length + if dep = source then 1 else 0 := by
  simp only [DegreeTable.addEdge, Option.ite_none_right_eq_some, Option.some.injEq] at added
  obtain ⟨_, rfl⟩ := added
  by_cases same : dep = source
  · subst same
    simp
  · simp [same, Ne.symm same]

theorem addEdges_isSome {edges : List (Fin count × Fin count)} {table : DegreeTable count}
    (fits : ∀ dep, (table.adj dep).length ≤ count) :
    (addEdges edges table).isSome ↔
      ∀ dep, (table.adj dep).length + edges.countP (·.2 = dep) ≤ count := by
  induction edges generalizing table with
  | nil => simpa [addEdges] using fits
  | cons edge rest ih =>
      have unfolded : addEdges (edge :: rest) table =
          (table.addEdge edge.1 edge.2).bind (addEdges rest) := rfl
      rw [unfolded]
      cases added : table.addEdge edge.1 edge.2 with
      | none =>
          have full : ¬ (table.adj edge.2).length < count := by
            rw [← addEdge_isSome table edge.1, added]
            simp
          simp only [Option.bind_none, Option.isSome_none, Bool.false_eq_true, false_iff]
          intro room
          have row := room edge.2
          simp only [List.countP_cons, decide_true, if_true] at row
          omega
      | some table' =>
          have rows := addEdge_rows added
          have room : (table.adj edge.2).length < count := by
            rw [← addEdge_isSome table edge.1, added]
            rfl
          rw [Option.bind_some, ih]
          · refine forall_congr' fun dep => ?_
            simp only [rows dep, List.countP_cons, decide_eq_true_eq]
            omega
          · intro dep
            rw [rows dep]
            split
            · next same => subst same; omega
            · exact fits dep

theorem buildDegreeTable_isSome :
    (buildDegreeTable hard soft).isSome ↔ ∀ dep, edgeCount hard soft dep ≤ count := by
  rw [buildDegreeTable_edgeList, addEdges_isSome (by simp [DegreeTable.empty])]
  simp only [DegreeTable.empty, List.length_nil, Nat.zero_add, edgeList_countP]

theorem enqueue_fresh {queue : List (Fin count)} {vertex : Fin count} (unique : queue.Nodup)
    (fresh : vertex ∉ queue) : enqueue queue vertex = some (queue ++ [vertex]) := by
  have short := (List.nodup_cons.mpr ⟨fresh, unique⟩).length_le_card
  rw [Fintype.card_fin, List.length_cons] at short
  exact if_pos short

theorem initialQueue_total (inDegree : Fin count → Nat) :
    ∃ queue, initialQueue inDegree = some queue ∧ queue.Sublist (List.finRange count) := by
  apply PartialFold.foldlM_total fun done (queue : List (Fin count)) => queue.Sublist done
  · exact List.Sublist.refl []
  · intro done index rest queue split below
    have unique := List.nodup_finRange count
    have doneUnique : done.Nodup :=
      (split ▸ List.sublist_append_left done (index :: rest)).nodup unique
    by_cases zero : inDegree index = 0
    · have fresh : index ∉ queue := fun member =>
        PartialFold.notMem_done unique split (below.subset member)
      refine ⟨queue ++ [index], ?_, below.append (List.Sublist.refl [index])⟩
      rw [if_pos zero, enqueue_fresh (doneUnique.sublist below) fresh]
    · exact ⟨queue, if_neg zero, below.trans (List.sublist_append_left done [index])⟩

theorem SortState.Correct.release_total {adj : Fin count → List (Fin count)}
    {done rest : List (Fin count)} {vertex : Fin count} {state : SortState count}
    (correct : state.Correct adj done fun target =>
      pendingEdges adj done target + (vertex :: rest).count target) :
    ∃ state', state.release vertex = some state' := by
  have positive : state.inDegree vertex ≠ 0 := by
    simp [correct.degree vertex]
  have fresh : vertex ∉ state.queue := fun member => positive ((correct.queued vertex).mp member)
  simp only [SortState.release, enqueue_fresh correct.unique fresh]
  split
  · exact ⟨_, rfl⟩
  · exact ⟨_, rfl⟩

theorem SortState.Correct.releaseAll_total {adj : Fin count → List (Fin count)}
    {done targets : List (Fin count)} {state : SortState count}
    (correct : state.Correct adj done fun target =>
      pendingEdges adj done target + targets.count target) :
    ∃ state', targets.foldlM SortState.release state = some state' := by
  induction targets generalizing state with
  | nil => exact ⟨state, rfl⟩
  | cons vertex rest ih =>
      obtain ⟨middle, released⟩ := correct.release_total
      obtain ⟨middleCorrect, _⟩ := correct.release released
      obtain ⟨state', finished⟩ := ih middleCorrect
      refine ⟨state', ?_⟩
      rw [List.foldlM_cons, released]
      exact finished

theorem SortState.AtHead.visit_total {adj : Fin count → List (Fin count)}
    {state : SortState count} {vertex : Fin count} (head : state.AtHead adj)
    (next : state.queue[state.front]? = some vertex) :
    ∃ state', state.visit adj vertex = some state' := by
  obtain ⟨taken, fresh⟩ := head.next_fresh next
  have unique := head.correct.taken.sublist.nodup head.correct.unique
  have started := head.started next
  simp only [SortState.visit, enqueue_fresh unique fresh]
  exact started.releaseAll_total

theorem sortLoop_total {adj : Fin count → List (Fin count)} {state : SortState count}
    (fuel : Nat) (head : state.AtHead adj) : ∃ state', sortLoop adj fuel state = some state' := by
  induction fuel generalizing state with
  | zero => exact ⟨state, rfl⟩
  | succ fuel ih =>
      simp only [sortLoop]
      split
      · exact ⟨state, rfl⟩
      · next vertex next =>
          obtain ⟨middle, visited⟩ := head.visit_total next
          obtain ⟨state', finished⟩ := ih (head.visit next visited).1
          exact ⟨state', by simp [visited, finished]⟩

theorem topoSort_isSome :
    (topoSort hard soft).isSome ↔ ∀ dep, edgeCount hard soft dep ≤ count := by
  rw [← buildDegreeTable_isSome]
  constructor
  · intro completed
    obtain ⟨result, sorted⟩ := Option.isSome_iff_exists.mp completed
    simp only [topoSort, Option.bind_eq_bind, Option.bind_eq_some_iff] at sorted
    obtain ⟨table, built, _⟩ := sorted
    rw [built]
    rfl
  · intro fits
    obtain ⟨table, built⟩ := Option.isSome_iff_exists.mp fits
    obtain ⟨queue, filled, _⟩ := initialQueue_total table.inDegree
    have records := buildDegreeTable_records built
    have head : SortState.AtHead table.adj
        { inDegree := table.inDegree, queue, front := 0, order := [] } :=
      ⟨SortState.Correct.initial records.degree filled, rfl⟩
    obtain ⟨state, looped⟩ := sortLoop_total count head
    simp [topoSort, built, filled, looped]

theorem sortedResult_isSome_iff {Pattern Value : Type} (hooks : HookList Pattern Value) :
    hooks.sortedResult.isSome ↔
      ∀ dep, edgeCount hooks.hardDeps hooks.softDeps dep ≤ hooks.count :=
  topoSort_isSome

def doubledDeps : HookList Text Text where
  count := 3
  traits := fun index => {
    name := "Mock".toList ++ [Char.ofNat ('A'.toNat + index)]
    hardDeps := if index = 0 then [] else [0]
    softDeps := if index = 0 then [] else [0]
    requiredPatterns := []
    optionalPatterns := []
    fields := []
    hasOnReload := false
  }
  noSelfHard := by decide
  noSelfSoft := by decide
  disjointPatterns := fun _ _ member => absurd member List.not_mem_nil

theorem doubledDeps_sort_throws :
    ¬ ∀ hooks : HookList Text Text, hooks.sortedResult.isSome := by
  intro sorts
  exact absurd (sorts doubledDeps) (by decide)

end PatchFix
