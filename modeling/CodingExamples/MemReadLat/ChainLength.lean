import CodingExamples.Library.CycleLengths
import CodingExamples.MemReadLat.Uniformity
import Mathlib.Data.Set.Card

/-!
# How much memory the chain covers

The pointers of the shuffled array are a permutation of its slots, and the
chain goes round in the cycle of the first one.  As every permutation comes
from exactly one sequence of numbers below `n - i`, each number of slots that
are measured, from 1 to those that were asked for, comes from as many
sequences.
-/

namespace CodingExamples.MemReadLat.ChainLength

open CodingExamples.Library.CycleLengths
open CodingExamples.MemReadLat.Shuffle
open CodingExamples.MemReadLat.Uniformity
open Equiv Function

/-- The slots that the chain visits, however long it is followed. -/
def visited (array : List Nat) : Set Nat :=
  {slot | ∃ steps, follow array steps = some slot}

section Represents

variable {n : Nat} [NeZero n] {array : List Nat} {σ : Perm (Fin n)}

/-- One round of the chain visits all that it ever visits. -/
theorem visited_eq_image (same : Represents array σ) :
    visited array =
      (fun steps => (σ^[steps] 0).val) ''
        (Finset.range (minimalPeriod σ 0) : Set Nat) := by
  have followed (steps : Nat) :
      follow array steps = some (σ^[steps] 0).val := by
    rw [same.follow, Perm.iterate_eq_pow]
  ext slot
  constructor
  · rintro ⟨steps, arrived⟩
    rw [followed, Option.some.injEq] at arrived
    refine ⟨steps % minimalPeriod σ 0, ?_, ?_⟩
    · rw [Finset.coe_range]
      exact Nat.mod_lt _ (minimalPeriod_pos σ 0)
    · beta_reduce
      rw [iterate_mod_minimalPeriod_eq, arrived]
  · rintro ⟨steps, _, rfl⟩
    exact ⟨steps, followed steps⟩

theorem ncard_visited (same : Represents array σ) :
    (visited array).ncard = minimalPeriod σ 0 := by
  have different :
      Set.InjOn (fun steps => (σ^[steps] 0).val)
        (Finset.range (minimalPeriod σ 0) : Set Nat) := by
    intro left leftInside right rightInside equal
    rw [Finset.coe_range] at leftInside rightInside
    exact
      iterate_injOn_Iio_minimalPeriod leftInside rightInside
        (Fin.ext equal)
  rw [visited_eq_image same, different.ncard_image, Set.ncard_coe_finset,
    Finset.card_range]

end Represents

/--
For exactly `(n - 1)!` of the `n!` sequences of numbers below `n - i`, the
chain of the shuffled array visits a given number of different slots from 1 to
`n`.
-/
theorem card_visited_eq
    (n size : Nat) (positive : 1 ≤ size) (bounded : size ≤ n) :
    Nat.card
        {draws : Draws n //
          ∃ result, shuffle (initial n) n draws.rand = some result ∧
            (visited result).ncard = size} =
      (n - 1).factorial := by
  have : NeZero n := ⟨by omega⟩
  have slots : Nat.card (Fin n) = n - 1 + 1 := by
    rw [Nat.card_eq_fintype_card, Fintype.card_fin]
    omega
  have lengths :=
    card_minimalPeriod_eq (0 : Fin n) slots positive (by omega)
  rw [← lengths]
  apply Nat.card_congr
  refine
    Equiv.subtypeEquiv (Equiv.ofBijective _ arrangement_bijective) ?_
  intro draws
  rcases exists_shuffle_arrangement draws with ⟨result, ran, represents⟩
  rw [ran]
  simp only [Option.some.injEq, exists_eq_left', ofBijective_apply]
  rw [ncard_visited represents]

theorem card_visited_eq_two :
    Nat.card
        {draws : Draws 4 //
          ∃ result, shuffle (initial 4) 4 draws.rand = some result ∧
            (visited result).ncard = 2} = 6 :=
  card_visited_eq 4 2 (by decide) (by decide)

end CodingExamples.MemReadLat.ChainLength
