import Mathlib.Order.Basic

/-!
# Outcomes of bounded evaluations

A C function whose loops or recursive calls need not end is modelled by an
evaluation with a fuel argument.  Such an evaluation has three outcomes: the
fuel ran out, the program did something undefined, or a value was returned.

An outcome approximates another when it is equal to it or ran out of fuel.
Sequencing is monotone for this order, so an evaluator whose recursive calls
use less fuel never changes an answer that it has already given.  `Yields`
forgets the fuel: it states that some amount of fuel is enough.
-/

namespace CodingExamples.Library

/-- What a bounded evaluation produces. -/
inductive Outcome (Fault Result : Type) where
  | timeout
  | fault (reason : Fault)
  | value (result : Result)
deriving DecidableEq, Repr

namespace Outcome

variable {Fault Result Next : Type}

/-- Run the continuation on the returned value, if there is one. -/
def bind (first : Outcome Fault Result)
    (next : Result → Outcome Fault Next) : Outcome Fault Next :=
  match first with
  | .timeout => .timeout
  | .fault reason => .fault reason
  | .value result => next result

instance : Monad (Outcome Fault) where
  pure := .value
  bind := bind

@[simp]
theorem pure_eq_value (result : Result) :
    (pure result : Outcome Fault Result) = .value result :=
  rfl

@[simp]
theorem fault_bind (reason : Fault)
    (next : Result → Outcome Fault Next) :
    ((.fault reason : Outcome Fault Result) >>= next) = .fault reason :=
  rfl

@[simp]
theorem value_bind (result : Result)
    (next : Result → Outcome Fault Next) :
    ((.value result : Outcome Fault Result) >>= next) = next result :=
  rfl

/-- Lift an optional value, such as an array read, with a fault for `none`. -/
def ofOption (reason : Fault) : Option Result → Outcome Fault Result
  | none => .fault reason
  | some result => .value result

@[simp]
theorem ofOption_none (reason : Fault) :
    ofOption reason (none : Option Result) = .fault reason :=
  rfl

@[simp]
theorem ofOption_some (reason : Fault) (result : Result) :
    ofOption reason (some result) = .value result :=
  rfl

/-- The result of a sequence comes from a value of its first part. -/
theorem bind_eq_value_iff
    {first : Outcome Fault Result} {next : Result → Outcome Fault Next}
    {result : Next} :
    (first >>= next) = .value result ↔
      ∃ value, first = .value value ∧ next value = .value result := by
  cases first with
  | timeout =>
      constructor
      · intro impossible
        cases impossible
      · rintro ⟨_, impossible, _⟩
        cases impossible
  | fault reason =>
      constructor
      · intro impossible
        cases impossible
      · rintro ⟨_, impossible, _⟩
        cases impossible
  | value value =>
      rw [value_bind]
      constructor
      · intro returned
        exact ⟨value, rfl, returned⟩
      · rintro ⟨_, same, returned⟩
        cases same
        exact returned

/-! ## The approximation order -/

/-- The second outcome is the first one, unless the first ran out of fuel. -/
def Approximates (first second : Outcome Fault Result) : Prop :=
  first = .timeout ∨ first = second

theorem Approximates.refl (outcome : Outcome Fault Result) :
    Approximates outcome outcome :=
  Or.inr rfl

theorem Approximates.timeout (outcome : Outcome Fault Result) :
    Approximates .timeout outcome :=
  Or.inl rfl

theorem Approximates.trans
    {first second third : Outcome Fault Result}
    (left : Approximates first second)
    (right : Approximates second third) :
    Approximates first third := by
  rcases left with exhausted | equal
  · exact Or.inl exhausted
  · rw [equal]
    exact right

/-- Sequencing is monotone in both of its arguments. -/
theorem Approximates.bind
    {first second : Outcome Fault Result}
    {firstNext secondNext : Result → Outcome Fault Next}
    (head : Approximates first second)
    (tail :
      ∀ result, Approximates (firstNext result) (secondNext result)) :
    Approximates (first >>= firstNext) (second >>= secondNext) := by
  rcases head with exhausted | equal
  · rw [exhausted]
    exact Approximates.timeout _
  · rw [← equal]
    cases first with
    | timeout => exact Approximates.timeout _
    | fault reason => exact Approximates.refl _
    | value result => exact tail result

theorem Approximates.eq_of_ne_timeout
    {first second : Outcome Fault Result}
    (approximation : Approximates first second)
    (finished : first ≠ .timeout) :
    second = first := by
  rcases approximation with exhausted | equal
  · exact absurd exhausted finished
  · exact equal.symm

/-! ## Evaluators with fuel -/

/-- More fuel never changes an answer. -/
def Stable (run : Nat → Outcome Fault Result) : Prop :=
  ∀ fuel, Approximates (run fuel) (run (fuel + 1))

theorem Stable.approximates
    {run : Nat → Outcome Fault Result} (stable : Stable run)
    {small large : Nat} (ordered : small ≤ large) :
    Approximates (run small) (run large) := by
  induction ordered with
  | refl => exact Approximates.refl _
  | step _ ih => exact ih.trans (stable _)

/-- Some amount of fuel makes the evaluator return the value. -/
def Yields (run : Nat → Outcome Fault Result) (result : Result) : Prop :=
  ∃ fuel, run fuel = .value result

theorem Stable.eq_of_le
    {run : Nat → Outcome Fault Result} (stable : Stable run)
    {small large : Nat} (ordered : small ≤ large) {result : Result}
    (returned : run small = .value result) :
    run large = .value result := by
  have finished : run small ≠ .timeout := by
    simp [returned]
  rw [(stable.approximates ordered).eq_of_ne_timeout finished, returned]

/-- An evaluator that is stable yields at most one value. -/
theorem Yields.unique
    {run : Nat → Outcome Fault Result} (stable : Stable run)
    {left right : Result}
    (leftYields : Yields run left) (rightYields : Yields run right) :
    left = right := by
  rcases leftYields with ⟨leftFuel, leftReturned⟩
  rcases rightYields with ⟨rightFuel, rightReturned⟩
  have atMaximum :=
    stable.eq_of_le (Nat.le_max_left leftFuel rightFuel) leftReturned
  rw [stable.eq_of_le (Nat.le_max_right leftFuel rightFuel)
    rightReturned] at atMaximum
  simpa using atMaximum.symm

end Outcome

end CodingExamples.Library
