import Mathlib.Data.List.Perm.Basic
import Mathlib.Data.List.Flatten

/-!
# Rounds with a barrier

In a round every task is started once and finishes once, in any order in
which a task finishes after it has started.  A party that counts the finished
tasks knows that the round is over when the count reaches the number of
tasks: no task is waiting or running at that time, and what has happened is
such an order of all tasks.
-/

namespace CodingExamples.Library.Barrier

variable {Task : Type}

/-- What happens to a task in a round. -/
inductive Step (Task : Type) where
  | start (task : Task)
  | finish (task : Task)
deriving DecidableEq, Repr

/-- Everything that happens to a task. -/
def both (task : Task) : List (Step Task) :=
  [.start task, .finish task]

/-- No task finishes before it has started. -/
def Ordered (steps : List (Step Task)) : Prop :=
  ∀ before task after,
    steps = before ++ .finish task :: after → .start task ∈ before

/-- A round in which every task has been started and has finished once. -/
structure Complete (tasks : List Task) (steps : List (Step Task)) : Prop where
  all : steps.Perm (tasks.flatMap both)
  ordered : Ordered steps

/-- A round under way, with the tasks that wait and those that run. -/
structure Underway (tasks : List Task) (steps : List (Step Task))
    (waiting running : List Task) : Prop where
  all :
    (steps ++ (waiting.flatMap both ++ running.map Step.finish)).Perm
      (tasks.flatMap both)
  ordered : Ordered steps
  started : ∀ task ∈ running, .start task ∈ steps

theorem Ordered.concat
    {steps : List (Step Task)} (ordered : Ordered steps) {step : Step Task}
    (allowed : ∀ task, step = .finish task → .start task ∈ steps) :
    Ordered (steps ++ [step]) := by
  intro before task after split
  rcases List.eq_nil_or_concat after with rfl | ⟨front, last, rfl⟩
  · have ends := List.append_inj' split rfl
    rw [← ends.1]
    exact allowed task (List.cons.inj ends.2).1
  · rw [List.concat_eq_append, ← List.cons_append, ← List.append_assoc]
      at split
    exact ordered before task front (List.append_inj' split rfl).1

/-- At the start of a round all tasks wait. -/
theorem Underway.start (tasks : List Task) :
    Underway tasks [] tasks [] where
  all := by simp
  ordered := by
    intro before task after split
    simp at split
  started := by
    intro task running
    cases running

variable {tasks : List Task} {steps : List (Step Task)}
  {waiting running : List Task}

/-- With no task left, the round is complete. -/
theorem Underway.complete (underway : Underway tasks steps [] []) :
    Complete tasks steps where
  all := by simpa using underway.all
  ordered := underway.ordered

variable [DecidableEq Task]

/-- A waiting task starts. -/
theorem Underway.startTask
    (underway : Underway tasks steps waiting running) {task : Task}
    (waits : task ∈ waiting) :
    Underway tasks (steps ++ [.start task]) (waiting.erase task)
      (task :: running) where
  all := by
    have moved :
        (Step.start task ::
          ((waiting.erase task).flatMap both ++
            (task :: running).map Step.finish)).Perm
          (waiting.flatMap both ++ running.map Step.finish) := by
      have front :
          (waiting.flatMap both).Perm
            ((task :: waiting.erase task).flatMap both) :=
        (List.perm_cons_erase waits).flatMap_right both
      refine List.Perm.trans ?_ (front.append_right _).symm
      rw [List.flatMap_cons, List.map_cons]
      exact List.perm_middle.cons _
    rw [List.append_assoc, List.singleton_append]
    exact (moved.append_left steps).trans underway.all
  ordered := by
    apply underway.ordered.concat
    intro other impossible
    cases impossible
  started := by
    intro other runs
    rw [List.mem_append]
    rcases List.mem_cons.mp runs with rfl | runs
    · exact Or.inr List.mem_cons_self
    · exact Or.inl (underway.started other runs)

/-- A running task finishes. -/
theorem Underway.finishTask
    (underway : Underway tasks steps waiting running) {task : Task}
    (runs : task ∈ running) :
    Underway tasks (steps ++ [.finish task]) waiting
      (running.erase task) where
  all := by
    have moved :
        (Step.finish task ::
          (waiting.flatMap both ++
            (running.erase task).map Step.finish)).Perm
          (waiting.flatMap both ++ running.map Step.finish) := by
      have back :
          (running.map Step.finish).Perm
            ((task :: running.erase task).map Step.finish) :=
        (List.perm_cons_erase runs).map Step.finish
      refine List.Perm.trans ?_ (back.append_left _).symm
      exact List.perm_middle.symm
    rw [List.append_assoc, List.singleton_append]
    exact (moved.append_left steps).trans underway.all
  ordered := by
    apply underway.ordered.concat
    intro other same
    cases same
    exact underway.started task runs
  started := by
    intro other otherRuns
    rw [List.mem_append]
    exact Or.inl (underway.started other (List.mem_of_mem_erase otherRuns))

end CodingExamples.Library.Barrier
