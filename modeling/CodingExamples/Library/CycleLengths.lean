import Mathlib.Data.Fintype.BigOperators
import Mathlib.Data.Fintype.Perm
import Mathlib.Dynamics.PeriodicPts.Lemmas
import Mathlib.GroupTheory.Perm.Option
import Mathlib.SetTheory.Cardinal.NatCard

/-!
# The length of the cycle of a point

A permutation of some points and a new one comes from a permutation of the
points: the new point is left alone, or it is inserted into the cycle of one
of them, which gets longer by one.  By induction, a given point is in a cycle
of each length for as many permutations: for `size + 1` points, `size !`
permutations have each length from 1 on.
-/

namespace CodingExamples.Library.CycleLengths

open Equiv Function

/-- In a finite set, every point is in a cycle. -/
theorem minimalPeriod_pos
    {Point : Type} [Finite Point] (σ : Perm Point) (point : Point) :
    0 < minimalPeriod σ point :=
  minimalPeriod_pos_of_mem_periodicPts
    (σ.injective.mem_periodicPts point)

section Insert

variable {Point : Type} [DecidableEq Point] {σ : Perm Point}

/-- From the new point on, the cycle of the other one is followed. -/
theorem iterate_insert
    {target : Point} {steps : Nat} (early : steps < minimalPeriod σ target) :
    (Perm.decomposeOption.symm (some target, σ))^[steps + 1] none =
      some (σ^[steps] target) := by
  induction steps with
  | zero => simp
  | succ steps ih =>
      have moved : σ^[steps + 1] target ≠ target := by
        intro returned
        have short : minimalPeriod σ target ≤ steps + 1 :=
          IsPeriodicPt.minimalPeriod_le (Nat.succ_pos steps) returned
        omega
      rw [iterate_succ_apply', ih (Nat.lt_of_succ_lt early)]
      rw [iterate_succ_apply'] at moved ⊢
      simp only [Perm.decomposeOption_symm_apply, Perm.mul_apply,
        optionCongr_apply, Option.map_some]
      apply swap_apply_of_ne_of_ne
      · exact Option.some_ne_none _
      · intro same
        exact moved (Option.some.inj same)

theorem minimalPeriod_insert [Finite Point] (target : Point) :
    minimalPeriod (Perm.decomposeOption.symm (some target, σ)) none =
      minimalPeriod σ target + 1 := by
  have positive := minimalPeriod_pos σ target
  rcases Nat.exists_eq_add_one.mpr positive with ⟨last, period⟩
  apply Nat.le_antisymm
  · apply IsPeriodicPt.minimalPeriod_le (Nat.succ_pos _)
    have around := iterate_minimalPeriod (f := σ) (x := target)
    rw [period, iterate_succ_apply'] at around
    rw [IsPeriodicPt, IsFixedPt, period, iterate_succ_apply',
      iterate_insert (by omega)]
    simp [around]
  · by_contra shorter
    have first :=
      minimalPeriod_pos (Perm.decomposeOption.symm (some target, σ)) none
    rcases Nat.exists_eq_add_one.mpr first with ⟨steps, returns⟩
    have home :=
      iterate_minimalPeriod
        (f := Perm.decomposeOption.symm (some target, σ)) (x := none)
    rw [returns, iterate_insert (by omega)] at home
    cases home

theorem minimalPeriod_alone :
    minimalPeriod (Perm.decomposeOption.symm (none, σ)) none = 1 := by
  rw [minimalPeriod_eq_one_iff_isFixedPt]
  simp [IsFixedPt]

end Insert

/-- Another name of the points changes no lengths. -/
theorem card_congr
    {Point Other : Type} (rename : Point ≃ Other) (point : Point)
    (length : Nat) :
    Nat.card {σ : Perm Point // minimalPeriod σ point = length} =
      Nat.card
        {σ : Perm Other // minimalPeriod σ (rename point) = length} := by
  apply Nat.card_congr
  refine Equiv.subtypeEquiv rename.permCongr ?_
  intro σ
  have conjugate : Semiconj rename σ (rename.permCongr σ) := by
    intro other
    simp [permCongr_apply]
  have same :
      minimalPeriod σ point =
        minimalPeriod (rename.permCongr σ) (rename point) := by
    rw [minimalPeriod_eq_minimalPeriod_iff]
    intro steps
    rw [IsPeriodicPt, IsFixedPt, IsPeriodicPt, IsFixedPt,
      ← conjugate.iterate_right steps point, rename.apply_eq_iff_eq]
  rw [same]

/-- The permutations with a new point, by what it is inserted before. -/
theorem card_option
    {Point : Type} [Fintype Point] [DecidableEq Point] (length : Nat) :
    Nat.card
        {σ : Perm (Option Point) // minimalPeriod σ none = length + 1} =
      (if length = 0 then (Nat.card Point).factorial else 0) +
        ∑ target : Point,
          Nat.card {σ : Perm Point // minimalPeriod σ target = length} := by
  have decompose :
      {σ : Perm (Option Point) // minimalPeriod σ none = length + 1} ≃
        (target : Option Point) ×
          {σ : Perm Point //
            minimalPeriod (Perm.decomposeOption.symm (target, σ)) none =
              length + 1} :=
    (Equiv.subtypeEquiv Perm.decomposeOption (by intro σ; simp)).trans
      (Equiv.subtypeProdEquivSigmaSubtype
        fun (target : Option Point) (σ : Perm Point) =>
          minimalPeriod (Perm.decomposeOption.symm (target, σ)) none =
            length + 1)
  rw [Nat.card_congr decompose, Nat.card_sigma, Fintype.sum_option]
  congr 1
  · simp only [minimalPeriod_alone]
    split
    · case isTrue alone =>
        subst alone
        simp [Nat.card_eq_fintype_card, Fintype.card_perm]
    · case isFalse others =>
        simp [others]
  · apply Finset.sum_congr rfl
    intro target _
    simp only [minimalPeriod_insert, Nat.add_right_cancel_iff]

/-- The other points. -/
theorem card_rest
    {Point : Type} [Finite Point] [DecidableEq Point] {size : Nat}
    (point : Point) (points : Nat.card Point = size + 1) :
    Nat.card {other : Point // other ≠ point} = size := by
  have whole := Nat.card_congr (optionSubtypeNe point)
  rw [Finite.card_option, points] at whole
  exact Nat.add_right_cancel whole

theorem card_minimalPeriod_zero
    {Point : Type} [Finite Point] (point : Point) :
    Nat.card {σ : Perm Point // minimalPeriod σ point = 0} = 0 := by
  rw [Nat.card_eq_zero, isEmpty_subtype]
  left
  intro σ
  exact Nat.ne_of_gt (minimalPeriod_pos σ point)

/-- As many permutations have each length of the cycle of a point. -/
theorem card_minimalPeriod_eq
    {size : Nat} {Point : Type} [Finite Point] (point : Point)
    (points : Nat.card Point = size + 1) {length : Nat}
    (positive : 1 ≤ length) (bounded : length ≤ size + 1) :
    Nat.card {σ : Perm Point // minimalPeriod σ point = length} =
      size.factorial := by
  classical
  induction size generalizing Point length with
  | zero =>
      have single : length = 0 + 1 := by
        omega
      have rest := card_rest point points
      have : Fintype {other // other ≠ point} := Fintype.ofFinite _
      rw [single, ← optionSubtypeNe_none point, ← card_congr, card_option,
        if_pos rfl, rest]
      simp only [card_minimalPeriod_zero, Finset.sum_const_zero,
        Nat.add_zero]
  | succ size ih =>
      have rest := card_rest point points
      have : Fintype {other // other ≠ point} := Fintype.ofFinite _
      rcases Nat.exists_eq_add_one.mpr positive with ⟨previous, rfl⟩
      rw [← optionSubtypeNe_none point, ← card_congr, card_option, rest]
      cases previous with
      | zero =>
          simp only [card_minimalPeriod_zero, Finset.sum_const_zero,
            if_pos, Nat.add_zero]
      | succ previous =>
          have each (target : {other // other ≠ point}) :
              Nat.card
                  {σ : Perm {other // other ≠ point} //
                    minimalPeriod σ target = previous + 1} =
                size.factorial :=
            ih target rest (Nat.succ_pos previous) (by omega)
          simp only [each, Finset.sum_const, Finset.card_univ, smul_eq_mul]
          rw [if_neg (Nat.succ_ne_zero previous), Nat.zero_add,
            ← Nat.card_eq_fintype_card, rest, Nat.factorial_succ]

end CodingExamples.Library.CycleLengths
