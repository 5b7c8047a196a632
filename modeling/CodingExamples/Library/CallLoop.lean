import Mathlib.Order.Basic

/-!
# Loops around one call

A loop keeps its local variables from one call to the next, and what it does
behind a call depends on the reply.  Once it has returned it makes no more
calls, so that the rest of a sequence of replies is never looked at.

The replies are a sequence that does not end, and a loop may run forever.  It
returns if every reply makes the loop advance, or leaves it where it is and
does not come forever.
-/

namespace CodingExamples.Library.CallLoop

variable {Local Reply Result : Type}

/-- Before the next call, or behind the return. -/
inductive Status (Local Result : Type) where
  | running (vars : Local)
  | returned (result : Result)
deriving DecidableEq, Repr

variable (step : Local → Reply → Status Local Result)
  (start : Status Local Result) (replies : Nat → Reply)

/-- The status when a number of replies have been offered to the loop. -/
def statusAfter : Nat → Status Local Result
  | 0 => start
  | calls + 1 =>
      match statusAfter calls with
      | .running vars => step vars (replies calls)
      | .returned result => .returned result

/-- The loop returns behind that call and not earlier. -/
structure Returns (calls : Nat) (result : Result) : Prop where
  returned : statusAfter step start replies calls = .returned result
  running :
    ∀ earlier < calls, ∃ vars,
      statusAfter step start replies earlier = .running vars

variable {step start replies}

theorem statusAfter_succ_of_running
    {calls : Nat} {vars : Local}
    (running : statusAfter step start replies calls = .running vars) :
    statusAfter step start replies (calls + 1) =
      step vars (replies calls) := by
  rw [statusAfter, running]

theorem statusAfter_succ_of_returned
    {calls : Nat} {result : Result}
    (returned : statusAfter step start replies calls = .returned result) :
    statusAfter step start replies (calls + 1) = .returned result := by
  rw [statusAfter, returned]

/-! ## Invariants -/

/-- What every step preserves holds behind every call. -/
theorem statusAfter_invariant
    {Holds : Nat → Status Local Result → Prop} (initial : Holds 0 start)
    (preserved :
      ∀ calls vars,
        statusAfter step start replies calls = .running vars →
          Holds calls (.running vars) →
            Holds (calls + 1) (step vars (replies calls)))
    (kept :
      ∀ calls result,
        Holds calls (.returned result) →
          Holds (calls + 1) (.returned result))
    (calls : Nat) : Holds calls (statusAfter step start replies calls) := by
  induction calls with
  | zero => exact initial
  | succ calls ih =>
      cases status : statusAfter step start replies calls with
      | running vars =>
          rw [status] at ih
          rw [statusAfter_succ_of_running status]
          exact preserved calls vars status ih
      | returned result =>
          rw [status] at ih
          rw [statusAfter_succ_of_returned status]
          exact kept calls result ih

/-- A loop that runs has run before. -/
theorem running_of_le
    {earlier calls : Nat} (ordered : earlier ≤ calls) {vars : Local}
    (running : statusAfter step start replies calls = .running vars) :
    ∃ before, statusAfter step start replies earlier = .running before := by
  induction ordered generalizing vars with
  | refl => exact ⟨vars, running⟩
  | @step calls _ ih =>
      cases status : statusAfter step start replies calls with
      | running before => exact ih status
      | returned result =>
          rw [statusAfter_succ_of_returned status] at running
          cases running

/-- What every call preserves holds as long as the loop runs. -/
theorem running_invariant
    (Holds : Nat → Local → Prop)
    (initial : ∀ vars, start = .running vars → Holds 0 vars)
    (preserved :
      ∀ calls vars next,
        statusAfter step start replies calls = .running vars →
          Holds calls vars →
            step vars (replies calls) = .running next →
              Holds (calls + 1) next)
    {calls : Nat} {vars : Local}
    (running : statusAfter step start replies calls = .running vars) :
    Holds calls vars := by
  induction calls generalizing vars with
  | zero => exact initial vars running
  | succ calls ih =>
      rcases running_of_le (Nat.le_succ calls) running with ⟨before, runs⟩
      rw [statusAfter_succ_of_running runs] at running
      exact preserved calls before vars runs (ih runs) running

/-- A loop that has returned stays behind its return. -/
theorem returned_of_le
    {earlier calls : Nat} (ordered : earlier ≤ calls) {result : Result}
    (returned : statusAfter step start replies earlier = .returned result) :
    statusAfter step start replies calls = .returned result := by
  induction ordered with
  | refl => exact returned
  | step _ ih => exact statusAfter_succ_of_returned ih

/-! ## Returning -/

/-- A loop that has returned did so behind one call. -/
theorem exists_returns_of_returned
    {offered : Nat} {result : Result}
    (returned : statusAfter step start replies offered = .returned result) :
    ∃ calls ≤ offered, Returns step start replies calls result := by
  induction offered with
  | zero =>
      exact ⟨0, Nat.le_refl 0, returned, by intro earlier below; omega⟩
  | succ offered ih =>
      cases status : statusAfter step start replies offered with
      | running vars =>
          refine ⟨offered + 1, Nat.le_refl _, returned, ?_⟩
          intro earlier below
          exact running_of_le (Nat.le_of_lt_succ below) status
      | returned first =>
          rw [statusAfter_succ_of_returned status] at returned
          cases returned
          rcases ih status with ⟨calls, ordered, returns⟩
          exact ⟨calls, Nat.le_succ_of_le ordered, returns⟩

/-- A loop returns one result. -/
theorem Returns.eq_of_returned
    {calls offered : Nat} {first second : Result}
    (returns : Returns step start replies calls first)
    (returned : statusAfter step start replies offered = .returned second) :
    first = second := by
  have left :=
    returned_of_le (Nat.le_max_left calls offered) returns.returned
  rw [returned_of_le (Nat.le_max_right calls offered) returned] at left
  exact (Status.returned.inj left).symm

/-- The call behind which a loop returns. -/
theorem Returns.last
    {calls : Nat} {result : Result}
    (returns : Returns step start replies (calls + 1) result) :
    ∃ vars,
      statusAfter step start replies calls = .running vars ∧
        step vars (replies calls) = .returned result := by
  rcases returns.running calls (Nat.lt_succ_self calls) with ⟨vars, running⟩
  have returned := returns.returned
  rw [statusAfter_succ_of_running running] at returned
  exact ⟨vars, running, returned⟩

section Progress

variable {measure : Local → Nat} {idle : Reply → Prop}

/-- A loop that runs returns, or it comes to a reply that is not idle. -/
theorem returned_or_awake
    (waits :
      ∀ calls vars next,
        statusAfter step start replies calls = .running vars →
          idle (replies calls) →
            step vars (replies calls) = .running next →
              measure next ≤ measure vars)
    (distance : Nat) {calls : Nat}
    (awake : ¬ idle (replies (calls + distance))) {vars : Local}
    (running : statusAfter step start replies calls = .running vars) :
    (∃ offered result,
        statusAfter step start replies offered = .returned result) ∨
      ∃ later after,
        statusAfter step start replies later = .running after ∧
          measure after ≤ measure vars ∧ ¬ idle (replies later) := by
  induction distance generalizing calls vars with
  | zero => exact .inr ⟨calls, vars, running, Nat.le_refl _, awake⟩
  | succ distance ih =>
      by_cases waiting : idle (replies calls)
      · have status := statusAfter_succ_of_running running
        cases reply : step vars (replies calls) with
        | returned result =>
            exact .inl ⟨calls + 1, result, status.trans reply⟩
        | running next =>
            have smaller := waits calls vars next running waiting reply
            rw [Nat.add_comm distance, ← Nat.add_assoc] at awake
            rcases ih awake (status.trans reply) with
              returned | ⟨later, after, runs, size, active⟩
            · exact .inl returned
            · exact
                .inr ⟨later, after, runs, Nat.le_trans size smaller, active⟩
      · exact .inr ⟨calls, vars, running, Nat.le_refl _, waiting⟩

/--
A loop returns if a measure of its variables gets smaller by each call, apart
from idle replies, which may leave it as it is but do not come forever.
-/
theorem exists_returns
    (measure : Local → Nat) (idle : Reply → Prop)
    (advances :
      ∀ calls vars next,
        statusAfter step start replies calls = .running vars →
          ¬ idle (replies calls) →
            step vars (replies calls) = .running next →
              measure next < measure vars)
    (waits :
      ∀ calls vars next,
        statusAfter step start replies calls = .running vars →
          idle (replies calls) →
            step vars (replies calls) = .running next →
              measure next ≤ measure vars)
    (busy : ∀ calls, ∃ later ≥ calls, ¬ idle (replies later)) :
    ∃ calls result, Returns step start replies calls result := by
  have ends (size calls : Nat) (vars : Local)
      (running : statusAfter step start replies calls = .running vars)
      (same : measure vars = size) :
      ∃ offered result,
        statusAfter step start replies offered = .returned result := by
    induction size using Nat.strongRecOn generalizing calls vars with
    | ind size ih =>
        rcases busy calls with ⟨later, ordered, awake⟩
        rw [← Nat.add_sub_cancel' ordered] at awake
        rcases returned_or_awake waits (later - calls) awake running with
          returned | ⟨active, before, runs, bound, working⟩
        · exact returned
        · have status := statusAfter_succ_of_running runs
          cases reply : step before (replies active) with
          | returned result =>
              exact ⟨active + 1, result, status.trans reply⟩
          | running next =>
              have smaller := advances active before next runs working reply
              exact
                ih (measure next) (by omega) (active + 1) next
                  (status.trans reply) rfl
  have returned :
      ∃ offered result,
        statusAfter step start replies offered = .returned result := by
    cases first : statusAfter step start replies 0 with
    | returned result => exact ⟨0, result, first⟩
    | running vars => exact ends (measure vars) 0 vars first rfl
  rcases returned with ⟨offered, result, returned⟩
  rcases exists_returns_of_returned returned with ⟨calls, _, returns⟩
  exact ⟨calls, result, returns⟩

end Progress

end CodingExamples.Library.CallLoop
