import Mathlib

/-!
# Shortest walks that descend

A function on the vertices of a graph that is zero at a target and changes by
at most one along an edge is a lower bound for the distance to the target.
Where some walk attains it, the shortest walks are those that descend by one
along each of their edges, and can be followed vertex by vertex.
-/

namespace CodingExamples.Library.Descent

variable {Vertex : Type} {graph : SimpleGraph Vertex} {target : Vertex}

/-- A lower bound for the distance to the target. -/
structure Height (graph : SimpleGraph Vertex) (target : Vertex) where
  height : Vertex → Nat
  target_eq : height target = 0
  step : ∀ u v, graph.Adj u v → height u ≤ height v + 1

namespace Height

variable (bound : Height graph target)

theorem le_length {start : Vertex} (walk : graph.Walk start target) :
    bound.height start ≤ walk.length := by
  induction walk with
  | nil => exact le_of_eq bound.target_eq
  | cons adjacent rest ih =>
      rw [SimpleGraph.Walk.length_cons]
      exact (bound.step _ _ adjacent).trans (Nat.add_le_add_right (ih bound) 1)

/-- Where a walk attains the bound it is the distance. -/
theorem dist_eq
    {start : Vertex} (walk : graph.Walk start target)
    (attains : walk.length = bound.height start) :
    graph.dist start target = bound.height start := by
  apply le_antisymm
  · rw [← attains]
    exact SimpleGraph.dist_le walk
  · rcases walk.reachable.exists_walk_length_eq_dist with
      ⟨shortest, length⟩
    rw [← length]
    exact bound.le_length shortest

/-- The first edge of a walk that attains the bound descends. -/
theorem exists_descent
    {start : Vertex} {count : Nat} (walk : graph.Walk start target)
    (attains : walk.length = bound.height start)
    (positive : bound.height start = count + 1) :
    ∃ (second : Vertex) (rest : graph.Walk second target),
      graph.Adj start second ∧ bound.height second = count ∧
        rest.length = bound.height second ∧
          walk.support = start :: rest.support := by
  cases walk with
  | nil =>
      rw [bound.target_eq] at positive
      cases positive
  | cons adjacent rest =>
      rename_i second
      have descends := bound.step start second adjacent
      have longer := bound.le_length rest
      rw [SimpleGraph.Walk.length_cons] at attains
      exact
        ⟨second, rest, adjacent, by omega, by omega,
          SimpleGraph.Walk.support_cons _ _⟩

/-- A walk that attains the bound zero stays at the target. -/
theorem support_of_height_zero
    {start : Vertex} (walk : graph.Walk start target)
    (attains : walk.length = bound.height start)
    (zero : bound.height start = 0) :
    walk.support = [target] := by
  cases walk with
  | nil => rfl
  | cons adjacent rest =>
      rw [zero, SimpleGraph.Walk.length_cons] at attains
      cases attains

end Height

end CodingExamples.Library.Descent
