import CodingExamples.Library.Execution

/-!
# Progress of a part of a system

The actions of a system are often of two kinds: the steps that the program
itself takes, and what its environment does or may do wrong.  To say that the
program finishes what it has begun, the system is restricted to the first
kind.  If a measure decreases there, each of its runs is short, and one that
cannot go on exists; what such a final state looks like is up to the program.
-/

namespace CodingExamples.Library.Progress

open CodingExamples.Library.Execution

variable {State Action : Type} {next : State → Action → Option State}

/-- The system without the actions that are not allowed. -/
def restrict
    (next : State → Action → Option State) (allowed : Action → Bool)
    (state : State) (action : Action) : Option State :=
  if allowed action then next state action else none

variable {allowed : Action → Bool}

theorem restrict_eq_some_iff
    {state result : State} {action : Action} :
    restrict next allowed state action = some result ↔
      allowed action = true ∧ next state action = some result := by
  rw [restrict, Option.ite_none_right_eq_some]

/-- A run of allowed actions only. -/
theorem run_restrict
    {start final : State} {actions : List Action}
    (isAllowed : ∀ action ∈ actions, allowed action = true)
    (ran : run next start actions = some final) :
    run (restrict next allowed) start actions = some final := by
  induction actions generalizing start with
  | nil => exact ran
  | cons action rest ih =>
      rw [List.forall_mem_cons] at isAllowed
      rw [run_cons_eq_some_iff] at ran ⊢
      rcases ran with ⟨middle, step, ranRest⟩
      exact
        ⟨middle, restrict_eq_some_iff.mpr ⟨isAllowed.1, step⟩,
          ih isAllowed.2 ranRest⟩

/-- An allowed action of a state that cannot go on is not enabled. -/
theorem eq_none_of_stuck
    {state : State} (stuck : Stuck (restrict next allowed) state)
    (action : Action) (isAllowed : allowed action = true) :
    next state action = none := by
  have blocked := stuck action
  rwa [restrict, if_pos isAllowed] at blocked

/--
The program settles from a state: every run of its own steps is short, and
every final state that they lead to has the property.
-/
structure Settles
    (next : State → Action → Option State) (property : State → Prop)
    (start : State) : Prop where
  bounded :
    ∃ bound, ∀ actions final,
      run next start actions = some final → actions.length ≤ bound
  finishes : ∃ final, Reachable next start final ∧ Stuck next final
  finished :
    ∀ final, Reachable next start final → Stuck next final → property final

/-- A decreasing measure makes a program settle where it is stuck. -/
theorem settles_of_measure
    {Invariant property : State → Prop} {measure : State → Nat}
    (decreases :
      ∀ state action result,
        Invariant state → next state action = some result →
          Invariant result ∧ measure result < measure state)
    (stuck :
      ∀ state, Invariant state → Stuck next state → property state)
    {start : State} (initial : Invariant start) :
    Settles next property start where
  bounded := by
    refine ⟨measure start, fun actions final ran => ?_⟩
    have bound := length_add_measure_le decreases initial ran
    omega
  finishes := exists_stuck decreases initial
  finished := by
    intro final reachable isStuck
    apply stuck final _ isStuck
    apply reachable.invariant _ initial
    intro state action result kept step
    exact (decreases state action result kept step).1

end CodingExamples.Library.Progress
