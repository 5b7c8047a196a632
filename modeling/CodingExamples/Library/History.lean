import CodingExamples.Library.Execution

/-!
# History variables

What the steps of a run give out is collected in a history.  An invariant may
relate the state to the history so far; each step then extends both.
-/

namespace CodingExamples.Library.History

open CodingExamples.Library.Execution

variable {State Action Value : Type} (next : State → Action → Option State)
  (emit : State → Action → List Value)

/-- What the steps of a run give out, in order. -/
def emitted : State → List Action → List Value
  | _, [] => []
  | state, action :: rest =>
      emit state action ++
        match next state action with
        | none => []
        | some middle => emitted middle rest

variable {next emit}

theorem emitted_cons
    {start middle : State} {action : Action}
    (step : next start action = some middle) (rest : List Action) :
    emitted next emit start (action :: rest) =
      emit start action ++ emitted next emit middle rest := by
  rw [emitted, step]

theorem emitted_append
    {start middle : State} {before : List Action}
    (ran : run next start before = some middle) (after : List Action) :
    emitted next emit start (before ++ after) =
      emitted next emit start before ++ emitted next emit middle after := by
  induction before generalizing start with
  | nil =>
      cases ran
      rfl
  | cons action rest ih =>
      rw [run_cons_eq_some_iff] at ran
      rcases ran with ⟨between, step, ranRest⟩
      rw [List.cons_append, emitted_cons step, emitted_cons step,
        ih ranRest, List.append_assoc]

/-- What a run gives out, one of its steps does. -/
theorem exists_step_of_mem_emitted
    {start final : State} {actions : List Action} {value : Value}
    (ran : run next start actions = some final)
    (member : value ∈ emitted next emit start actions) :
    ∃ before action after middle,
      actions = before ++ action :: after ∧
        run next start before = some middle ∧
        value ∈ emit middle action := by
  induction actions generalizing start with
  | nil => cases member
  | cons action rest ih =>
      rw [run_cons_eq_some_iff] at ran
      rcases ran with ⟨between, step, ranRest⟩
      rw [emitted_cons step, List.mem_append] at member
      rcases member with now | later
      · exact ⟨[], action, rest, start, rfl, rfl, now⟩
      · rcases ih ranRest later with
          ⟨before, other, after, middle, rfl, ranBefore, given⟩
        refine ⟨action :: before, other, after, middle, rfl, ?_, given⟩
        rw [run_cons_eq_some_iff]
        exact ⟨between, step, ranBefore⟩

/-- What every step preserves holds of the whole history and the last state. -/
theorem emitted_invariant
    {Invariant : List Value → State → Prop} {condition : State → Action → Prop}
    (preserved :
      ∀ history state action result,
        Invariant history state → condition state action →
          next state action = some result →
            Invariant (history ++ emit state action) result)
    {start final : State} {actions : List Action} {history : List Value}
    (initial : Invariant history start)
    (along : Along next condition start actions)
    (ran : run next start actions = some final) :
    Invariant (history ++ emitted next emit start actions) final := by
  induction actions generalizing start history with
  | nil =>
      cases ran
      rw [emitted, List.append_nil]
      exact initial
  | cons action rest ih =>
      rw [run_cons_eq_some_iff] at ran
      rcases ran with ⟨middle, step, ranRest⟩
      rw [emitted_cons step, ← List.append_assoc]
      exact
        ih (preserved history start action middle initial along.head step)
          (along.tail step) ranRest

end CodingExamples.Library.History
