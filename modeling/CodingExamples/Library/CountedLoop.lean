import Mathlib.Logic.Function.Iterate

/-!
# Counted loops

A loop runs a body, which can fail, a fixed number of times.  Loops one after
the other and loops within loops are again loops of the same body, so that a
program may unroll a loop into blocks and a remainder.
-/

namespace CodingExamples.Library.CountedLoop

variable {State : Type}

/-- Run the body a number of times, as long as it does not fail. -/
def times (body : State → Option State) : Nat → State → Option State
  | 0, state => some state
  | count + 1, state => (body state).bind (times body count)

theorem times_one (body : State → Option State) : times body 1 = body := by
  funext state
  show (body state).bind some = body state
  cases body state <;> rfl

theorem times_add
    (body : State → Option State) (first second : Nat) (state : State) :
    times body (first + second) state =
      (times body first state).bind (times body second) := by
  induction first generalizing state with
  | zero => rw [Nat.zero_add, times, Option.bind_some]
  | succ first ih =>
      rw [Nat.succ_add, times, times, Option.bind_assoc]
      congr 1
      funext next
      exact ih next

/-- A loop over a loop. -/
theorem times_times
    (body : State → Option State) (inner outer : Nat) (state : State) :
    times (times body inner) outer state =
      times body (inner * outer) state := by
  induction outer generalizing state with
  | zero => rfl
  | succ outer ih =>
      rw [times, Nat.mul_succ, Nat.add_comm, times_add]
      congr 1
      funext next
      exact ih next

theorem times_succ_right
    (body : State → Option State) (count : Nat) (state : State) :
    times body (count + 1) state = (times body count state).bind body := by
  rw [times_add, times_one]

/-- A loop that is written out twice. -/
theorem times_two (body : State → Option State) (state : State) :
    times body 2 state = (body state).bind body := by
  rw [times_succ_right body 1, times_one]

/-- A loop that is written out five times. -/
theorem times_five (body : State → Option State) (state : State) :
    times body 5 state =
      ((((body state).bind body).bind body).bind body).bind body := by
  rw [times_succ_right body 4, times_succ_right body 3,
    times_succ_right body 2, times_two]

/-- A body that keeps a property and does not fail. -/
theorem times_invariant
    {body : State → Option State} {Invariant : Nat → State → Prop}
    (preserved :
      ∀ index state, Invariant index state →
        ∃ next, body state = some next ∧ Invariant (index + 1) next)
    (count : Nat) {index : Nat} {state : State}
    (initial : Invariant index state) :
    ∃ final, times body count state = some final ∧
      Invariant (index + count) final := by
  induction count generalizing index state with
  | zero => exact ⟨state, rfl, initial⟩
  | succ count ih =>
      rcases preserved index state initial with ⟨next, step, kept⟩
      rcases ih kept with ⟨final, ran, keptFinal⟩
      refine ⟨final, ?_, ?_⟩
      · rw [times, step]
        exact ran
      · rw [Nat.add_comm count 1, ← Nat.add_assoc]
        exact keptFinal

end CodingExamples.Library.CountedLoop
