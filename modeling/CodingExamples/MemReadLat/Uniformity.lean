import CodingExamples.MemReadLat.Shuffle
import Mathlib.Data.Fintype.BigOperators
import Mathlib.Data.Fintype.Perm
import Mathlib.Data.Nat.Factorial.BigOperators
import Mathlib.SetTheory.Cardinal.Finite

/-!
# How often the chain visits all elements

Iteration `i` of `shuffle` uses a number below `n - i`.  Different sequences of
such numbers give different arrangements, and there are as many of the former
as of the latter: every arrangement of the pointers comes from exactly one
sequence.  The chain visits all elements for `(n - 1)!` of them, one in `n`.

This counts the sequences.  How likely `rand` makes each of them, and whether
it can make all of them, is not part of the model.
-/

namespace CodingExamples.MemReadLat.Uniformity

open CodingExamples.MemReadLat.Shuffle
open Equiv Equiv.Perm

/-! ## Draws -/

/-- A number below `n - i` for each iteration `i`. -/
abbrev Draws (n : Nat) : Type :=
  (i : Fin (n - 1)) → Fin (n - i)

/-- Results of `rand` from which these numbers are drawn. -/
def Draws.rand {n : Nat} (draws : Draws n) (i : Nat) : Nat :=
  if inside : i < n - 1 then (draws ⟨i, inside⟩).val else 0

/-- The numbers that are drawn from the results of `rand`. -/
def drawsOf (n : Nat) (rand : Nat → Nat) : Draws n :=
  fun i => ⟨rand i % (n - i), Nat.mod_lt _ (by have := i.isLt; omega)⟩

theorem Draws.rand_mod
    {n : Nat} (draws : Draws n) {i : Nat} (inside : i < n - 1) :
    draws.rand i % (n - i) = draws ⟨i, inside⟩ := by
  rw [Draws.rand, dif_pos inside]
  exact Nat.mod_eq_of_lt (draws ⟨i, inside⟩).isLt

theorem card_draws {n : Nat} (positive : 1 ≤ n) :
    Nat.card (Draws n) = n.factorial := by
  have product :=
    Nat.factorial_mul_descFactorial (Nat.sub_le n 1)
  rw [Nat.sub_sub_self positive, Nat.factorial_one, one_mul,
    Nat.descFactorial_eq_prod_range] at product
  rw [Nat.card_pi, ← product, ← Fin.prod_univ_eq_prod_range]
  simp only [Nat.card_eq_fintype_card, Fintype.card_fin]

/-- All numbers of a range but the first. -/
theorem card_ne_zero (size : Nat) :
    Nat.card {number : Fin size // number.val ≠ 0} = size - 1 := by
  cases size with
  | zero => simp
  | succ size =>
      have others :
          Nat.card {number : Fin (size + 1) // number ≠ 0} = size := by
        rw [Nat.card_eq_fintype_card, Fintype.card_subtype,
          Finset.filter_ne', Finset.card_erase_of_mem (Finset.mem_univ 0),
          Finset.card_univ, Fintype.card_fin, Nat.add_sub_cancel]
      rw [Nat.add_sub_cancel]
      refine Eq.trans (Nat.card_congr ?_) others
      exact
        Equiv.subtypeEquivRight fun number =>
          not_congr Fin.val_eq_zero_iff

/-- The sequences that never draw the first number of a range. -/
theorem card_draws_ne_zero (n : Nat) :
    Nat.card {draws : Draws n // ∀ i, (draws i).val ≠ 0} =
      (n - 1).factorial := by
  have product := Nat.descFactorial_eq_prod_range (n - 1) (n - 1)
  rw [Nat.descFactorial_self] at product
  have separate :
      {draws : Draws n // ∀ i, (draws i).val ≠ 0} ≃
        ((i : Fin (n - 1)) → {number : Fin (n - i) // number.val ≠ 0}) :=
    Equiv.subtypePiEquivPi
      (p := fun (i : Fin (n - 1)) (number : Fin (n - i)) => number.val ≠ 0)
  rw [Nat.card_congr separate, Nat.card_pi, product,
    ← Fin.prod_univ_eq_prod_range]
  apply Finset.prod_congr rfl
  intro i _
  rw [card_ne_zero]
  omega

/-! ## Arrangements -/

section Arrangements

variable {n : Nat} [NeZero n]

/-- Only the numbers that are drawn matter. -/
theorem exchanges_congr
    {left right : Nat → Nat} {iterations : List Nat}
    (same : ∀ i ∈ iterations, left i % (n - i) = right i % (n - i)) :
    exchanges n left iterations = exchanges n right iterations := by
  rw [exchanges, exchanges]
  congr 1
  apply List.map_congr_left
  intro i member
  rw [transposition, transposition, draw, draw, same i member]

/-- Where the first iteration puts the element: it is not touched again. -/
theorem exchanges_apply_first
    {rand : Nat → Nat} {first count : Nat} (last : first + count + 1 ≤ n) :
    exchanges n rand (List.range' first (count + 1)) (Fin.ofNat n first) =
      Fin.ofNat n (draw n rand first) := by
  have inside : first < n := by
    omega
  have kept :
      exchanges n rand (List.range' (first + 1) count) (Fin.ofNat n first) =
        Fin.ofNat n first := by
    apply exchanges_apply_of_lt (by omega)
    rw [val_ofNat inside]
    exact Nat.lt_succ_self first
  rw [exchanges] at kept
  rw [exchanges, List.range'_succ, List.map_cons, List.prod_cons,
    Perm.mul_apply, kept, transposition, swap_apply_left]

/-- The exchanges determine what was drawn, one iteration after the other. -/
theorem draws_eq_of_exchanges_eq
    {left right : Nat → Nat} {first count : Nat}
    (last : first + count + 1 = n)
    (same :
      exchanges n left (List.range' first count) =
        exchanges n right (List.range' first count)) :
    ∀ i, first ≤ i → i < n - 1 → left i % (n - i) = right i % (n - i) := by
  induction count generalizing first with
  | zero =>
      intro i behind before
      omega
  | succ count ih =>
      have inside : first < n := by
        omega
      have drawn : draw n left first = draw n right first := by
        have image := congrArg (fun σ => σ (Fin.ofNat n first)) same
        simp only [exchanges_apply_first (by omega : first + count + 1 ≤ n)]
          at image
        rw [Fin.ext_iff, val_ofNat (draw_lt inside),
          val_ofNat (draw_lt inside)] at image
        exact image
      have rest :
          exchanges n left (List.range' (first + 1) count) =
            exchanges n right (List.range' (first + 1) count) := by
        rw [exchanges, exchanges, List.range'_succ, List.map_cons,
          List.map_cons, List.prod_cons, List.prod_cons, transposition,
          transposition, drawn] at same
        exact mul_left_cancel same
      intro i behind before
      rcases Nat.lt_or_eq_of_le behind with after | rfl
      · exact ih (by omega) rest i after before
      · rw [draw, draw] at drawn
        exact Nat.add_left_cancel drawn

/-- The arrangement that the shuffle makes of the pointers. -/
def arrangement (draws : Draws n) : Perm (Fin n) :=
  exchanges n draws.rand (List.range (n - 1))

theorem arrangement_injective :
    Function.Injective (arrangement (n := n)) := by
  intro left right same
  have positive := Nat.pos_of_ne_zero (NeZero.ne n)
  rw [arrangement, arrangement, List.range_eq_range'] at same
  have drawn := draws_eq_of_exchanges_eq (by omega) same
  funext i
  apply Fin.ext
  have equal := drawn i (Nat.zero_le i) i.isLt
  rw [left.rand_mod i.isLt, right.rand_mod i.isLt] at equal
  exact equal

theorem arrangement_bijective :
    Function.Bijective (arrangement (n := n)) := by
  rw [Nat.bijective_iff_injective_and_card]
  refine ⟨arrangement_injective, ?_⟩
  rw [card_draws (Nat.pos_of_ne_zero (NeZero.ne n)),
    Nat.card_eq_fintype_card, Fintype.card_perm, Fintype.card_fin]

end Arrangements

/-! ## Arrays -/

section Arrays

variable {n : Nat} [NeZero n]

omit [NeZero n] in
theorem represents_unique
    {array : List Nat} {σ τ : Perm (Fin n)}
    (left : Represents array σ) (right : Represents array τ) : σ = τ := by
  ext slot
  have image := left.getElem? slot
  rw [right.getElem?, Option.some.injEq] at image
  exact image.symm

omit [NeZero n] in
/-- Every list of all slots is a permutation of them. -/
theorem exists_represents
    {target : List Nat} (slots : target.Perm (initial n)) :
    ∃ σ : Perm (Fin n), Represents target σ := by
  have size : target.length = n := by
    rw [slots.length_eq, initial, List.length_range]
  have bound (i : Nat) (inside : i < target.length) : target[i] < n := by
    have member := slots.mem_iff.mp (List.getElem_mem inside)
    rw [initial, List.mem_range] at member
    exact member
  have different : target.Nodup := slots.nodup_iff.mpr List.nodup_range
  let image (slot : Fin n) : Fin n :=
    have inside : slot.val < target.length := by
      rw [size]
      exact slot.isLt
    ⟨target[slot.val], bound slot inside⟩
  have injective : Function.Injective image := by
    intro left right same
    rw [Fin.ext_iff] at same
    exact Fin.ext ((different.getElem_inj_iff).mp same)
  refine
    ⟨Equiv.ofBijective image (Finite.injective_iff_bijective.mp injective),
      ?_⟩
  apply List.ext_getElem
  · rw [size, List.length_ofFn]
  · intro i _ _
    rw [List.getElem_ofFn]
    rfl

theorem exists_shuffle_arrangement (draws : Draws n) :
    ∃ result, shuffle (initial n) n draws.rand = some result ∧
      Represents result (arrangement draws) :=
  exists_shuffle draws.rand

/-- The shuffle makes an array if and only if it makes its permutation. -/
theorem shuffle_eq_some_iff
    {target : List Nat} {σ : Perm (Fin n)} (same : Represents target σ)
    (draws : Draws n) :
    shuffle (initial n) n draws.rand = some target ↔
      arrangement draws = σ := by
  rcases exists_shuffle_arrangement draws with ⟨result, ran, represents⟩
  rw [ran, Option.some.injEq]
  constructor
  · rintro rfl
    exact represents_unique represents same
  · intro equal
    rw [equal] at represents
    exact represents.trans same.symm

/-- The chain visits all elements if no range gives its first number. -/
theorem shuffled_covers_iff (draws : Draws n) :
    (∃ result, shuffle (initial n) n draws.rand = some result ∧
        Covers result) ↔
      ∀ i, (draws i).val ≠ 0 := by
  have positive := Nat.pos_of_ne_zero (NeZero.ne n)
  rcases exists_shuffle_arrangement draws with ⟨result, ran, represents⟩
  have everything : (Set.univ : Set (Fin n)) = slotsFrom n 0 := by
    ext slot
    exact ⟨fun _ => Nat.zero_le slot.val, fun _ => trivial⟩
  have covers :
      Covers result ↔
        ∀ i, 0 ≤ i → i < n - 1 → draws.rand i % (n - i) ≠ 0 := by
    rw [represents.covers_iff, everything, arrangement,
      List.range_eq_range', exchanges_isCycleOn_iff (by omega)]
  rw [ran]
  simp only [Option.some.injEq, exists_eq_left']
  rw [covers]
  constructor
  · intro all i
    rw [← draws.rand_mod i.isLt]
    exact all i (Nat.zero_le i) i.isLt
  · intro all i _ inside
    rw [draws.rand_mod inside]
    exact all ⟨i, inside⟩

end Arrays

/--
The result of `shuffle` depends on the numbers `rand() % (n - i)` only; each
of the `n!` arrangements of the pointers comes from exactly one of the `n!`
sequences of numbers below `n - i`; and for exactly `(n - 1)!` of these
sequences the chain visits all elements before it returns to the first one.
-/
theorem shuffle_uniform (n : Nat) (positive : 1 ≤ n) :
    (∀ rand,
        shuffle (initial n) n rand =
          shuffle (initial n) n (drawsOf n rand).rand) ∧
      (∀ target : List Nat, target.Perm (initial n) →
        ∃! draws : Draws n,
          shuffle (initial n) n draws.rand = some target) ∧
      Nat.card (Draws n) = n.factorial ∧
      Nat.card
          {draws : Draws n //
            ∃ result, shuffle (initial n) n draws.rand = some result ∧
              Covers result} =
        (n - 1).factorial := by
  have : NeZero n := ⟨Nat.ne_of_gt positive⟩
  refine ⟨?_, ?_, card_draws positive, ?_⟩
  · intro rand
    have drawn :
        exchanges n rand (List.range (n - 1)) =
          arrangement (drawsOf n rand) := by
      apply exchanges_congr
      intro i member
      rw [List.mem_range] at member
      rw [Draws.rand_mod _ member]
      rfl
    rcases exists_shuffle (n := n) rand with ⟨result, ran, represents⟩
    rw [drawn] at represents
    rw [ran]
    exact ((shuffle_eq_some_iff represents _).mpr rfl).symm
  · intro target slots
    rcases exists_represents slots with ⟨σ, represents⟩
    rcases arrangement_bijective.existsUnique σ with
      ⟨draws, arranged, unique⟩
    refine ⟨draws, (shuffle_eq_some_iff represents draws).mpr arranged, ?_⟩
    intro other ran
    exact unique other ((shuffle_eq_some_iff represents other).mp ran)
  · rw [← card_draws_ne_zero]
    exact
      Nat.card_congr (Equiv.subtypeEquivRight shuffled_covers_iff)

theorem shuffle_uniform_three :
    (∃! draws : Draws 3,
        shuffle (initial 3) 3 draws.rand = some [1, 2, 0]) ∧
      Nat.card (Draws 3) = 6 ∧
      Nat.card
          {draws : Draws 3 //
            ∃ result, shuffle (initial 3) 3 draws.rand = some result ∧
              Covers result} = 2 := by
  have uniform := shuffle_uniform 3 (by decide)
  exact ⟨uniform.2.1 [1, 2, 0] (by decide), uniform.2.2.1, uniform.2.2.2⟩

end CodingExamples.MemReadLat.Uniformity
