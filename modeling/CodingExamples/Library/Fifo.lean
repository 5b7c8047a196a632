import Mathlib.Data.List.Basic

/-!
# Reliable byte streams

One direction of a connection holds the symbols that were written and not yet
read, in order.  A write may transfer any non-empty part of what it was asked
to.  A read may return any non-empty part of what is in flight, up to the
request; it returns nothing only at the end of the stream, and waits if
nothing is in flight before that.
-/

namespace CodingExamples.Library.Fifo

variable {Symbol : Type}

/-- A write of `request` symbols may transfer `count` of them. -/
def CanWrite (request count : Nat) : Prop :=
  0 < count ∧ count ≤ request

/-- A read of up to `request` symbols may return the first `count` in flight. -/
def CanRead (flying : List Symbol) (closed : Bool)
    (request count : Nat) : Prop :=
  if count = 0 then
    flying = [] ∧ closed = true
  else
    count ≤ request ∧ count ≤ flying.length

instance (request count : Nat) : Decidable (CanWrite request count) :=
  inferInstanceAs (Decidable (_ ∧ _))

instance [DecidableEq Symbol] (flying : List Symbol) (closed : Bool)
    (request count : Nat) : Decidable (CanRead flying closed request count) :=
  inferInstanceAs (Decidable (ite _ _ _))

theorem CanWrite.all {request : Nat} (positive : 0 < request) :
    CanWrite request request :=
  ⟨positive, Nat.le_refl _⟩

/-- What a read from a stream that is still open returns. -/
theorem canRead_open_iff
    {flying : List Symbol} {request count : Nat} :
    CanRead flying false request count ↔
      0 < count ∧ count ≤ request ∧ count ≤ flying.length := by
  rw [CanRead]
  split_ifs with empty
  · simp [empty]
  · simp [Nat.pos_of_ne_zero empty]

/-- Nothing can be read while nothing is in flight on an open stream. -/
theorem not_canRead_nil {request count : Nat} :
    ¬ CanRead ([] : List Symbol) false request count := by
  intro readable
  rcases canRead_open_iff.mp readable with ⟨positive, _, inside⟩
  exact absurd inside (Nat.not_le.mpr positive)

theorem canRead_one
    {flying : List Symbol} (nonempty : flying ≠ [])
    {request : Nat} (positive : 0 < request) (closed : Bool) :
    CanRead flying closed request 1 := by
  rw [CanRead, if_neg Nat.one_ne_zero]
  exact ⟨positive, List.length_pos_iff.mpr nonempty⟩

/-- Reading all that is in flight. -/
theorem canRead_all
    {flying : List Symbol} (nonempty : flying ≠ [])
    {request : Nat} (enough : flying.length ≤ request) (closed : Bool) :
    CanRead flying closed request flying.length := by
  have positive : flying.length ≠ 0 :=
    Nat.ne_of_gt (List.length_pos_iff.mpr nonempty)
  rw [CanRead, if_neg positive]
  exact ⟨enough, Nat.le_refl _⟩

end CodingExamples.Library.Fifo
