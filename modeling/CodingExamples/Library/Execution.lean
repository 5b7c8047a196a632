import Mathlib.Data.List.Basic

/-!
# Runs of guarded transition systems

A system is given by a partial step function: an action names everything that
is nondeterministic, and an action that is not enabled has no next state.  A
run is a list of actions.  This module gives the composition of runs, the
invariant and the simulation rule, and the notions of a property of every
state along a run and of a condition on every step of a run.
-/

namespace CodingExamples.Library.Execution

variable {State Action : Type} (next : State → Action → Option State)

/-- The state after a list of actions, if all of them were enabled. -/
def run (start : State) : List Action → Option State
  | [] => some start
  | action :: rest => (next start action).bind fun middle => run middle rest

theorem run_cons_eq_some_iff
    {start final : State} {action : Action} {rest : List Action} :
    run next start (action :: rest) = some final ↔
      ∃ middle, next start action = some middle ∧
        run next middle rest = some final := by
  rw [run, Option.bind_eq_some_iff]

theorem run_append
    (start : State) (before after : List Action) :
    run next start (before ++ after) =
      (run next start before).bind fun middle => run next middle after := by
  induction before generalizing start with
  | nil => rfl
  | cons action rest ih =>
      rw [List.cons_append, run, run]
      cases next start action with
      | none => rfl
      | some middle => exact ih middle

theorem run_append_eq_some_iff
    {start final : State} {before after : List Action} :
    run next start (before ++ after) = some final ↔
      ∃ middle, run next start before = some middle ∧
        run next middle after = some final := by
  rw [run_append, Option.bind_eq_some_iff]

/-- No action is enabled. -/
def Stuck (state : State) : Prop :=
  ∀ action, next state action = none

/-- Some list of actions leads from the first state to the second. -/
def Reachable (start final : State) : Prop :=
  ∃ actions, run next start actions = some final

variable {next}

theorem Reachable.refl (start : State) : Reachable next start start :=
  ⟨[], rfl⟩

theorem Reachable.trans
    {start middle final : State}
    (first : Reachable next start middle)
    (second : Reachable next middle final) :
    Reachable next start final := by
  rcases first with ⟨before, ranBefore⟩
  rcases second with ⟨after, ranAfter⟩
  refine ⟨before ++ after, ?_⟩
  rw [run_append_eq_some_iff]
  exact ⟨middle, ranBefore, ranAfter⟩

theorem Reachable.single
    {start final : State} {action : Action}
    (step : next start action = some final) :
    Reachable next start final :=
  ⟨[action], by rw [run_cons_eq_some_iff]; exact ⟨final, step, rfl⟩⟩

/-- What every step preserves holds at the end of every run. -/
theorem Reachable.invariant
    {Invariant : State → Prop}
    (preserved :
      ∀ state action result,
        Invariant state → next state action = some result →
          Invariant result)
    {start final : State} (initial : Invariant start)
    (reachable : Reachable next start final) :
    Invariant final := by
  rcases reachable with ⟨actions, ran⟩
  induction actions generalizing start with
  | nil =>
      cases ran
      exact initial
  | cons action rest ih =>
      rw [run_cons_eq_some_iff] at ran
      rcases ran with ⟨middle, step, ranRest⟩
      exact ih (preserved start action middle initial step) ranRest

/-! ## Simulation -/

/--
If every step of one system is matched by steps of another one, so is every
run.
-/
theorem Reachable.simulated
    {Image ImageAction : Type}
    {imageNext : Image → ImageAction → Option Image}
    {Matches : State → Image → Prop}
    (simulated :
      ∀ state action result image,
        Matches state image → next state action = some result →
          ∃ after, Reachable imageNext image after ∧ Matches result after)
    {start final : State} {image : Image} (initial : Matches start image)
    (reachable : Reachable next start final) :
    ∃ after, Reachable imageNext image after ∧ Matches final after := by
  rcases reachable with ⟨actions, ran⟩
  induction actions generalizing start image with
  | nil =>
      cases ran
      exact ⟨image, Reachable.refl image, initial⟩
  | cons action rest ih =>
      rw [run_cons_eq_some_iff] at ran
      rcases ran with ⟨middle, step, ranRest⟩
      rcases simulated start action middle image initial step with
        ⟨between, reached, matched⟩
      rcases ih matched ranRest with ⟨after, reachedRest, matchedRest⟩
      exact ⟨after, reached.trans reachedRest, matchedRest⟩

/-! ## Termination -/

section Measure

variable {Invariant : State → Prop} {measure : State → Nat}
  (decreases :
    ∀ state action result,
      Invariant state → next state action = some result →
        Invariant result ∧ measure result < measure state)

include decreases

/-- A run is no longer than a measure that every step decreases. -/
theorem length_add_measure_le
    {start final : State} {actions : List Action} (initial : Invariant start)
    (ran : run next start actions = some final) :
    actions.length + measure final ≤ measure start := by
  induction actions generalizing start with
  | nil =>
      cases ran
      exact Nat.le_of_eq (Nat.zero_add _)
  | cons action rest ih =>
      rw [run_cons_eq_some_iff] at ran
      rcases ran with ⟨middle, step, ranRest⟩
      rcases decreases start action middle initial step with ⟨kept, less⟩
      have bound := ih kept ranRest
      rw [List.length_cons]
      omega

/-- Then some run cannot go on. -/
theorem exists_stuck {start : State} (initial : Invariant start) :
    ∃ final, Reachable next start final ∧ Stuck next final := by
  by_cases stuck : Stuck next start
  · exact ⟨start, Reachable.refl start, stuck⟩
  · rw [Stuck, not_forall] at stuck
    rcases stuck with ⟨action, moves⟩
    cases step : next start action with
    | none => exact absurd step moves
    | some middle =>
        rcases decreases start action middle initial step with ⟨kept, less⟩
        rcases exists_stuck kept with ⟨final, reached, stuck⟩
        exact ⟨final, (Reachable.single step).trans reached, stuck⟩
termination_by measure start

end Measure

/-! ## Conditions along a run -/

variable (next)

/-- The property holds in every state of the run, the first one included. -/
def Throughout (property : State → Prop)
    (start : State) (actions : List Action) : Prop :=
  ∀ before after state,
    actions = before ++ after → run next start before = some state →
      property state

/-- The condition holds before every step of the run. -/
def Along (condition : State → Action → Prop)
    (start : State) (actions : List Action) : Prop :=
  ∀ before action after state,
    actions = before ++ action :: after →
      run next start before = some state → condition state action

variable {next}

theorem Along.head
    {condition : State → Action → Prop} {start : State}
    {action : Action} {rest : List Action}
    (along : Along next condition start (action :: rest)) :
    condition start action :=
  along [] action rest start rfl rfl

theorem Along.tail
    {condition : State → Action → Prop} {start middle : State}
    {action : Action} {rest : List Action}
    (along : Along next condition start (action :: rest))
    (step : next start action = some middle) :
    Along next condition middle rest := by
  intro before other after state split ran
  apply along (action :: before) other after state (by rw [split]; rfl)
  rw [run_cons_eq_some_iff]
  exact ⟨middle, step, ran⟩

theorem Along.nil
    {condition : State → Action → Prop} (start : State) :
    Along next condition start [] := by
  intro before action after state split
  cases before <;> cases split

theorem Along.cons
    {condition : State → Action → Prop} {start : State}
    {action : Action} {rest : List Action}
    (head : condition start action)
    (tail :
      ∀ middle, next start action = some middle →
        Along next condition middle rest) :
    Along next condition start (action :: rest) := by
  intro before other after state split ran
  cases before with
  | nil =>
      cases split
      cases ran
      exact head
  | cons first before =>
      cases split
      rw [run_cons_eq_some_iff] at ran
      rcases ran with ⟨middle, step, ranRest⟩
      exact tail middle step before other after state rfl ranRest

/-- A condition holds along the beginning of a run. -/
theorem Along.take
    {condition : State → Action → Prop} {start : State}
    {before after : List Action}
    (along : Along next condition start (before ++ after)) :
    Along next condition start before := by
  intro earlier action later state split
  apply along earlier action (later ++ after) state
  rw [split, List.append_assoc]
  rfl

/-- A condition holds along the end of a run. -/
theorem Along.drop
    {condition : State → Action → Prop} {start middle : State}
    {before after : List Action}
    (along : Along next condition start (before ++ after))
    (ran : run next start before = some middle) :
    Along next condition middle after := by
  intro earlier action later state split ranEarlier
  apply along (before ++ earlier) action later state
  · rw [split, List.append_assoc]
  · rw [run_append_eq_some_iff]
    exact ⟨middle, ran, ranEarlier⟩

/-- A condition that can be evaluated can be evaluated along a run. -/
instance decidableAlong
    {condition : State → Action → Prop}
    [∀ state action, Decidable (condition state action)] :
    ∀ (start : State) (actions : List Action),
      Decidable (Along next condition start actions)
  | start, [] => isTrue (Along.nil start)
  | start, action :: rest =>
      if head : condition start action then
        match step : next start action with
        | none =>
            isTrue
              (Along.cons head fun middle impossible => by
                rw [step] at impossible
                cases impossible)
        | some middle =>
            match decidableAlong middle rest with
            | isTrue tail =>
                isTrue
                  (Along.cons head fun other same => by
                    rw [step] at same
                    cases same
                    exact tail)
            | isFalse miss => isFalse fun along => miss (along.tail step)
      else
        isFalse fun along => head along.head

/--
What every step that meets the condition preserves holds in every state of a
run all of whose steps meet it.
-/
theorem Along.throughout
    {condition : State → Action → Prop} {Invariant : State → Prop}
    (preserved :
      ∀ state action result,
        Invariant state → condition state action →
          next state action = some result → Invariant result)
    {start : State} {actions : List Action}
    (initial : Invariant start)
    (along : Along next condition start actions) :
    Throughout next Invariant start actions := by
  intro before after state split ran
  induction before generalizing start actions with
  | nil =>
      cases ran
      exact initial
  | cons action rest ih =>
      subst split
      rw [run_cons_eq_some_iff] at ran
      rcases ran with ⟨middle, step, ranRest⟩
      exact
        ih (preserved start action middle initial along.head step)
          (along.tail step) rfl ranRest

/--
If a step that misses the condition leads to a state without the property,
then the condition holds along every run that has the property throughout.
-/
theorem Throughout.along
    {condition : State → Action → Prop} {Invariant property : State → Prop}
    (needed :
      ∀ state action result,
        Invariant state → next state action = some result →
          property result → condition state action)
    (preserved :
      ∀ state action result,
        Invariant state → condition state action →
          next state action = some result → Invariant result)
    {start final : State} {actions : List Action}
    (initial : Invariant start)
    (ran : run next start actions = some final)
    (throughout : Throughout next property start actions) :
    Along next condition start actions := by
  induction actions generalizing start with
  | nil => exact Along.nil start
  | cons action rest ih =>
      rw [run_cons_eq_some_iff] at ran
      rcases ran with ⟨middle, step, ranRest⟩
      have satisfied : condition start action := by
        apply needed start action middle initial step
        apply throughout [action] rest middle rfl
        rw [run_cons_eq_some_iff]
        exact ⟨middle, step, rfl⟩
      have alongRest : Along next condition middle rest := by
        apply ih (preserved start action middle initial satisfied step)
          ranRest
        intro before after state split ranBefore
        apply
          throughout (action :: before) after state (by rw [split]; rfl)
        rw [run_cons_eq_some_iff]
        exact ⟨middle, step, ranBefore⟩
      apply Along.cons satisfied
      intro second stepAgain
      rw [step] at stepAgain
      cases stepAgain
      exact alongRest

end CodingExamples.Library.Execution
