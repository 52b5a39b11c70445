import Mathlib.Data.Fintype.Card
import Mathlib.Data.List.Nodup
import Mathlib.Logic.Relation
import Mathlib.Order.WellFounded

/-!
Vertices related by `dependsOn`: properties that hold of a vertex together with everything it
reaches, acyclic relations, and orders that list every vertex after its dependencies.
-/

namespace DependencyGraph

open Relation

variable {Vertex : Type*} {dependsOn wider : Vertex → Vertex → Prop}
variable {good better : Vertex → Prop} {vertex target : Vertex}

/-- The vertex and everything it reaches through dependencies are good. -/
def Throughout (dependsOn : Vertex → Vertex → Prop) (good : Vertex → Prop)
    (vertex : Vertex) : Prop :=
  ∀ target, ReflTransGen dependsOn vertex target → good target

theorem Throughout.self (all : Throughout dependsOn good vertex) : good vertex :=
  all vertex ReflTransGen.refl

theorem Throughout.reached (all : Throughout dependsOn good vertex)
    (path : ReflTransGen dependsOn vertex target) : Throughout dependsOn good target :=
  fun _ rest => all _ (path.trans rest)

theorem Throughout.mono (all : Throughout dependsOn good vertex)
    (weaker : ∀ vertex, good vertex → better vertex) : Throughout dependsOn better vertex :=
  fun target path => weaker target (all target path)

theorem throughout_and :
    Throughout dependsOn (fun vertex => good vertex ∧ better vertex) vertex ↔
      Throughout dependsOn good vertex ∧ Throughout dependsOn better vertex := by
  constructor
  · intro all
    exact ⟨all.mono fun _ both => both.1, all.mono fun _ both => both.2⟩
  · rintro ⟨first, second⟩ target path
    exact ⟨first target path, second target path⟩

theorem throughout_iff :
    Throughout dependsOn good vertex ↔
      good vertex ∧ ∀ target, dependsOn vertex target → Throughout dependsOn good target := by
  constructor
  · intro all
    exact ⟨all.self, fun target edge => all.reached (ReflTransGen.single edge)⟩
  · rintro ⟨here, below⟩ target path
    rcases ReflTransGen.cases_head path with same | ⟨next, edge, rest⟩
    · exact same ▸ here
    · exact below next edge target rest

theorem throughout_leaf (leaf : ∀ target, ¬dependsOn vertex target) :
    Throughout dependsOn good vertex ↔ good vertex := by
  rw [throughout_iff]
  exact and_iff_left fun target edge => absurd edge (leaf target)

theorem throughout_throughout :
    Throughout dependsOn (Throughout dependsOn good) vertex ↔ Throughout dependsOn good vertex :=
  ⟨fun all => all.self, fun all _ path => all.reached path⟩

theorem throughout_of_closed {kept : Vertex → Prop}
    (keptGood : ∀ vertex, kept vertex → good vertex)
    (closed : ∀ vertex target, kept vertex → dependsOn vertex target → kept target)
    (start : kept vertex) : Throughout dependsOn good vertex := by
  intro target path
  apply keptGood
  induction path with
  | refl => exact start
  | tail _ edge ih => exact closed _ _ ih edge

theorem throughout_relabel {Label : Type*} (label : Label ≃ Vertex) {vertex : Label} :
    Throughout (fun vertex target => dependsOn (label vertex) (label target))
        (fun vertex => good (label vertex)) vertex ↔
      Throughout dependsOn good (label vertex) := by
  constructor
  · intro all target path
    have lifted : ReflTransGen (fun vertex target => dependsOn (label vertex) (label target))
        (label.symm (label vertex)) (label.symm target) :=
      path.lift label.symm fun first second edge => by simpa [Function.onFun] using edge
    rw [label.symm_apply_apply] at lifted
    simpa only [label.apply_symm_apply] using all _ lifted
  · intro all target path
    exact all _ (path.lift label fun _ _ edge => edge)

def Acyclic (dependsOn : Vertex → Vertex → Prop) : Prop :=
  ∀ vertex, ¬TransGen dependsOn vertex vertex

theorem Acyclic.mono (acyclic : Acyclic wider)
    (narrower : ∀ vertex target, dependsOn vertex target → wider vertex target) :
    Acyclic dependsOn :=
  fun vertex cycle => acyclic vertex (TransGen.mono narrower _ _ cycle)

theorem Acyclic.wellFounded [Finite Vertex] (acyclic : Acyclic dependsOn) :
    WellFounded fun target vertex => dependsOn vertex target := by
  have transitive : IsTrans Vertex fun target vertex => TransGen dependsOn vertex target :=
    ⟨fun _ _ _ first second => second.trans first⟩
  have irreflexive : Std.Irrefl fun target vertex : Vertex => TransGen dependsOn vertex target :=
    ⟨acyclic⟩
  have closure := Finite.wellFounded_of_trans_of_irrefl
    fun target vertex : Vertex => TransGen dependsOn vertex target
  exact Subrelation.wf (fun edge => TransGen.single edge) closure

theorem Acyclic.empty_of_dependency [Finite Vertex] (acyclic : Acyclic dependsOn)
    (pending : Vertex → Prop)
    (blocked : ∀ vertex, pending vertex → ∃ target, dependsOn vertex target ∧ pending target) :
    ∀ vertex, ¬pending vertex := by
  intro vertex
  induction vertex using acyclic.wellFounded.induction with
  | _ vertex ih =>
      intro isPending
      obtain ⟨target, edge, targetPending⟩ := blocked vertex isPending
      exact ih target edge targetPending

/-- A property that satisfies the dependency recursion of an acyclic graph is `Throughout`. -/
theorem Acyclic.iff_throughout [Finite Vertex] (acyclic : Acyclic dependsOn)
    {holds : Vertex → Prop}
    (equation : ∀ vertex, holds vertex ↔
      good vertex ∧ ∀ target, dependsOn vertex target → holds target) :
    ∀ vertex, holds vertex ↔ Throughout dependsOn good vertex := by
  intro vertex
  induction vertex using acyclic.wellFounded.induction with
  | _ vertex ih =>
      rw [equation, throughout_iff]
      constructor
      · rintro ⟨here, below⟩
        exact ⟨here, fun target edge => (ih target edge).mp (below target edge)⟩
      · rintro ⟨here, below⟩
        exact ⟨here, fun target edge => (ih target edge).mpr (below target edge)⟩

def DependenciesFirst (dependsOn : Vertex → Vertex → Prop) (order : List Vertex) : Prop :=
  ∀ before vertex after, order = before ++ vertex :: after →
    ∀ target, dependsOn vertex target → target ∈ before

theorem DependenciesFirst.concat {order : List Vertex}
    (ordered : DependenciesFirst dependsOn order)
    (ready : ∀ target, dependsOn vertex target → target ∈ order) :
    DependenciesFirst dependsOn (order ++ [vertex]) := by
  intro before last after split target edge
  rcases List.eq_nil_or_concat after with empty | ⟨rest, final, rest_eq⟩
  · subst empty
    obtain ⟨sameBefore, sameLast⟩ := List.append_inj' split rfl
    simp only [List.cons.injEq, and_true] at sameLast
    subst sameBefore sameLast
    exact ready target edge
  · subst rest_eq
    have shifted : order ++ [vertex] = (before ++ last :: rest) ++ [final] := by simpa using split
    obtain ⟨sameOrder, _⟩ := List.append_inj' shifted rfl
    exact ordered before last rest sameOrder target edge

theorem DependenciesFirst.mem_done {order done rest : List Vertex} {next : Vertex}
    (ordered : DependenciesFirst dependsOn order) (split : order = done ++ next :: rest)
    (member : vertex ∈ done ++ [next]) (edge : dependsOn vertex target) : target ∈ done := by
  rcases List.mem_append.mp member with earlier | current
  · obtain ⟨before, after, doneSplit⟩ := List.append_of_mem earlier
    have targetBefore := ordered before vertex (after ++ next :: rest)
      (by simp [split, doneSplit]) target edge
    simp [doneSplit, targetBefore]
  · obtain rfl := List.mem_singleton.mp current
    exact ordered done vertex rest split target edge

theorem DependenciesFirst.idxOf_lt [DecidableEq Vertex] {order : List Vertex}
    (ordered : DependenciesFirst dependsOn order) (member : vertex ∈ order)
    (edge : dependsOn vertex target) : order.idxOf target < order.idxOf vertex := by
  obtain ⟨before, after, split, fresh⟩ := List.eq_append_cons_of_mem member
  have earlier := ordered before vertex after split target edge
  have targetAt : order.idxOf target = before.idxOf target := by
    rw [split, List.idxOf_append_of_mem earlier]
  have vertexAt : order.idxOf vertex = before.length := by
    rw [split, List.idxOf_append_of_notMem fresh, List.idxOf_cons_self, Nat.add_zero]
  rw [targetAt, vertexAt]
  exact List.idxOf_lt_length_of_mem earlier

theorem DependenciesFirst.acyclic [DecidableEq Vertex] {order : List Vertex}
    (ordered : DependenciesFirst dependsOn order) (complete : ∀ vertex, vertex ∈ order) :
    Acyclic dependsOn := by
  intro vertex cycle
  have decreasing : ∀ target, TransGen dependsOn vertex target →
      order.idxOf target < order.idxOf vertex := by
    intro target path
    induction path with
    | single edge => exact ordered.idxOf_lt (complete _) edge
    | tail _ edge ih => exact (ordered.idxOf_lt (complete _) edge).trans ih
  exact Nat.lt_irrefl _ (decreasing vertex cycle)

end DependencyGraph
