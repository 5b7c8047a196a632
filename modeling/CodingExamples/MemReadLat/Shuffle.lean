import CodingExamples.Library.CycleInsertion
import Mathlib.Algebra.BigOperators.Group.List.Basic
import Mathlib.Data.Fintype.Card

/-!
# The chain of pointers

`test_cache` fills an array with pointers to its own elements, shuffles it and
follows the pointers.  A pointer is the index of the element that it points to,
so that the array is a permutation of its indices.

`shuffle` makes every permutation, with the right numbers.  The chain from the
first element visits all of them only if the permutation is one cycle, which
means that no element was exchanged with itself.
-/

namespace CodingExamples.MemReadLat.Shuffle

open CodingExamples.Library.CycleInsertion
open Equiv Equiv.Perm

/-- The loop of `test_cache` that fills the array. -/
def initial (arraySize : Nat) : List Nat :=
  List.range arraySize

/-- Exchange `array[i]` and `array[j]`, `none` outside of the array. -/
def exchange (array : List Nat) (i j : Nat) : Option (List Nat) := do
  let tmp ← array[i]?
  let other ← array[j]?
  return (array.set i other).set j tmp

/-- `j = i + rand() % (n - i)`. -/
def draw (n : Nat) (rand : Nat → Nat) (i : Nat) : Nat :=
  i + rand i % (n - i)

/-- `shuffle(array, n)`, with the results of `rand`. -/
def shuffle (array : List Nat) (n : Nat) (rand : Nat → Nat) :
    Option (List Nat) :=
  if n ≤ 1 then
    some array
  else
    (List.range (n - 1)).foldlM
      (fun array i => exchange array i (draw n rand i)) array

/-- `p` when `p = (ptr*)*p` has been executed a number of times. -/
def follow (array : List Nat) : Nat → Option Nat
  | 0 => some 0
  | steps + 1 => (follow array steps).bind fun p => array[p]?

/-- The chain visits all elements before it returns to the first one. -/
def Covers (array : List Nat) : Prop :=
  ∀ slot < array.length, ∃ steps,
    follow array steps = some slot ∧
      ∀ earlier, 0 < earlier → earlier ≤ steps →
        follow array earlier ≠ some 0

/-! ## The permutation of an array -/

section Represents

variable {n : Nat}

/-- Each element of the array points to its image. -/
def Represents (array : List Nat) (σ : Perm (Fin n)) : Prop :=
  array = List.ofFn fun slot => (σ slot).val

theorem Represents.length
    {array : List Nat} {σ : Perm (Fin n)} (same : Represents array σ) :
    array.length = n := by
  rw [same, List.length_ofFn]

theorem Represents.getElem?
    {array : List Nat} {σ : Perm (Fin n)} (same : Represents array σ)
    (slot : Fin n) : array[slot.val]? = some (σ slot).val := by
  rw [same, List.getElem?_ofFn, dif_pos slot.isLt]

theorem Represents.lt
    {array : List Nat} {σ : Perm (Fin n)} (same : Represents array σ) :
    ∀ p ∈ array, p < array.length := by
  intro p member
  rw [same.length]
  rw [same, List.mem_ofFn] at member
  rcases member with ⟨slot, rfl⟩
  exact (σ slot).isLt

theorem initial_represents (n : Nat) :
    Represents (initial n) (1 : Perm (Fin n)) := by
  apply List.ext_getElem
  · simp [initial]
  · intro i _ _
    simp [initial]

/-- An exchange comes before the permutation. -/
theorem Represents.exchange
    {array : List Nat} {σ : Perm (Fin n)} (same : Represents array σ)
    (i j : Fin n) :
    ∃ result, exchange array i j = some result ∧
      Represents result (σ * swap i j) := by
  refine ⟨(array.set i (σ j).val).set j (σ i).val, ?_, ?_⟩
  · simp [Shuffle.exchange, same.getElem?]
  · apply List.ext_getElem
    · simp [same.length]
    · intro k inside bound
      rw [List.length_ofFn] at bound
      have old : array[k]? = some (σ ⟨k, bound⟩).val := same.getElem? ⟨k, bound⟩
      rw [List.getElem_set, List.getElem_ofFn, Perm.mul_apply]
      by_cases second : j.val = k
      · subst second
        rw [if_pos rfl, swap_apply_right]
      · have notSecond : (⟨k, bound⟩ : Fin n) ≠ j := by
          rintro rfl
          exact second rfl
        rw [if_neg second, List.getElem_set]
        by_cases first : i.val = k
        · subst first
          rw [if_pos rfl, swap_apply_left]
        · have notFirst : (⟨k, bound⟩ : Fin n) ≠ i := by
            rintro rfl
            exact first rfl
          rw [if_neg first, swap_apply_of_ne_of_ne notFirst notSecond]
          rw [List.getElem?_eq_some_iff] at old
          exact old.2

/-- The chain follows the permutation. -/
theorem Represents.follow
    [NeZero n] {array : List Nat} {σ : Perm (Fin n)}
    (same : Represents array σ) (steps : Nat) :
    follow array steps = some ((σ ^ steps) 0).val := by
  induction steps with
  | zero => rfl
  | succ steps ih =>
      rw [Shuffle.follow, ih, Option.bind_some, same.getElem?, pow_succ',
        Perm.mul_apply]

end Represents

/-! ## The exchanges of the loop -/

section Exchanges

variable {n : Nat} [NeZero n] {rand : Nat → Nat}

/-- The two elements that are exchanged in an iteration. -/
def transposition (n : Nat) [NeZero n] (rand : Nat → Nat) (i : Nat) :
    Perm (Fin n) :=
  swap (Fin.ofNat n i) (Fin.ofNat n (draw n rand i))

/-- The exchanges of some iterations. -/
def exchanges (n : Nat) [NeZero n] (rand : Nat → Nat)
    (iterations : List Nat) : Perm (Fin n) :=
  (iterations.map (transposition n rand)).prod

omit [NeZero n] in
theorem draw_lt {i : Nat} (inside : i < n) : draw n rand i < n := by
  have remainder := Nat.mod_lt (rand i) (Nat.sub_pos_of_lt inside)
  rw [draw]
  omega

theorem val_ofNat {i : Nat} (inside : i < n) : (Fin.ofNat n i).val = i :=
  Nat.mod_eq_of_lt inside

theorem exists_foldlM_exchange
    (rand : Nat → Nat)
    {array : List Nat} {σ : Perm (Fin n)} (same : Represents array σ)
    {iterations : List Nat} (inside : ∀ i ∈ iterations, i < n) :
    ∃ result,
      iterations.foldlM (fun array i => exchange array i (draw n rand i))
          array = some result ∧
        Represents result (σ * exchanges n rand iterations) := by
  induction iterations generalizing array σ with
  | nil =>
      refine ⟨array, rfl, ?_⟩
      rw [exchanges, List.map_nil, List.prod_nil, mul_one]
      exact same
  | cons i rest ih =>
      rw [List.forall_mem_cons] at inside
      rcases same.exchange (Fin.ofNat n i) (Fin.ofNat n (draw n rand i)) with
        ⟨middle, exchanged, next⟩
      rw [val_ofNat inside.1, val_ofNat (draw_lt inside.1)] at exchanged
      rcases ih next inside.2 with ⟨result, ran, final⟩
      refine ⟨result, ?_, ?_⟩
      · rw [List.foldlM_cons, exchanged]
        exact ran
      · rw [exchanges, List.map_cons, List.prod_cons, ← mul_assoc]
        exact final

/-- The iterations from an index on do not exchange what is before it. -/
theorem exchanges_apply_of_lt
    {first count : Nat} (last : first + count ≤ n) {slot : Fin n}
    (before : slot.val < first) :
    exchanges n rand (List.range' first count) slot = slot := by
  induction count generalizing first with
  | zero => rfl
  | succ count ih =>
      have inside : first < n := by
        omega
      have left : slot ≠ Fin.ofNat n first := by
        intro same
        rw [same, val_ofNat inside] at before
        exact Nat.lt_irrefl _ before
      have right : slot ≠ Fin.ofNat n (draw n rand first) := by
        intro same
        rw [same, val_ofNat (draw_lt inside), draw] at before
        omega
      have behind : slot.val < first + 1 := by
        omega
      have rest := ih (by omega) behind
      rw [exchanges] at rest
      rw [exchanges, List.range'_succ, List.map_cons, List.prod_cons,
        Perm.mul_apply, rest, transposition,
        swap_apply_of_ne_of_ne left right]

/-- The slots from an index on. -/
def slotsFrom (n first : Nat) : Set (Fin n) :=
  {slot | first ≤ slot.val}

theorem ofNat_mem_slotsFrom_iff {first i : Nat} (inside : i < n) :
    Fin.ofNat n i ∈ slotsFrom n first ↔ first ≤ i := by
  show first ≤ (Fin.ofNat n i).val ↔ first ≤ i
  rw [val_ofNat inside]

/-- An element is exchanged with another one if `rand` does not draw it. -/
theorem ofNat_draw_ne_iff {i : Nat} (inside : i < n) :
    Fin.ofNat n (draw n rand i) ≠ Fin.ofNat n i ↔ rand i % (n - i) ≠ 0 := by
  rw [Ne, Fin.ext_iff, val_ofNat (draw_lt inside), val_ofNat inside, draw]
  omega

theorem slotsFrom_eq_insert {first : Nat} (inside : first < n) :
    slotsFrom n first =
      insert (Fin.ofNat n first) (slotsFrom n (first + 1)) := by
  ext slot
  rw [Set.mem_insert_iff, Fin.ext_iff, val_ofNat inside]
  show first ≤ slot.val ↔ slot.val = first ∨ first + 1 ≤ slot.val
  omega

/-- The last exchanges make one cycle if all of them make it longer. -/
theorem exchanges_isCycleOn_iff
    {first count : Nat} (last : first + count + 1 = n) :
    (exchanges n rand (List.range' first count)).IsCycleOn
        (slotsFrom n first) ↔
      ∀ i, first ≤ i → i < n - 1 → rand i % (n - i) ≠ 0 := by
  induction count generalizing first with
  | zero =>
      have single : (slotsFrom n first).Subsingleton := by
        intro left leftInside right rightInside
        have leftBound : first ≤ left.val := leftInside
        have rightBound : first ≤ right.val := rightInside
        apply Fin.ext
        omega
      apply iff_of_true
      · exact single.isCycleOn_one
      · intro i behind before
        omega
  | succ count ih =>
      have inside : first < n := by
        omega
      have fixed :
          exchanges n rand (List.range' (first + 1) count)
              (Fin.ofNat n first) =
            Fin.ofNat n first := by
        apply exchanges_apply_of_lt (by omega)
        rw [val_ofNat inside]
        exact Nat.lt_succ_self first
      have new : Fin.ofNat n first ∉ slotsFrom n (first + 1) := by
        rw [ofNat_mem_slotsFrom_iff inside]
        exact Nat.not_succ_le_self first
      have nonempty : (slotsFrom n (first + 1)).Nonempty := by
        refine ⟨Fin.ofNat n (first + 1), ?_⟩
        rw [ofNat_mem_slotsFrom_iff (by omega)]
      have within :
          Fin.ofNat n (draw n rand first) ∈
            insert (Fin.ofNat n first) (slotsFrom n (first + 1)) := by
        rw [← slotsFrom_eq_insert inside,
          ofNat_mem_slotsFrom_iff (draw_lt inside), draw]
        exact Nat.le_add_right _ _
      have step := isCycleOn_insert_iff fixed new nonempty within
      rw [ofNat_draw_ne_iff inside, ih (by omega),
        ← slotsFrom_eq_insert inside] at step
      rw [exchanges, List.range'_succ, List.map_cons, List.prod_cons]
      refine step.trans ⟨?_, ?_⟩
      · rintro ⟨now, later⟩ i behind before
        rcases Nat.lt_or_eq_of_le behind with after | rfl
        · exact later i after before
        · exact now
      · intro all
        refine ⟨all first (Nat.le_refl first) (by omega), ?_⟩
        intro i behind before
        exact all i (by omega) before

end Exchanges

/-! ## The chain -/

section Chain

variable {n : Nat} [NeZero n] {array : List Nat} {σ : Perm (Fin n)}

/-- The chain visits all elements if the permutation is one cycle. -/
theorem Represents.covers_iff (same : Represents array σ) :
    Covers array ↔ σ.IsCycleOn Set.univ := by
  constructor
  · intro covers
    have reached (slot : Fin n) : σ.SameCycle 0 slot := by
      have inside : slot.val < array.length := by
        rw [same.length]
        exact slot.isLt
      rcases covers slot.val inside with ⟨steps, arrived, _⟩
      rw [same.follow, Option.some.injEq, ← Fin.ext_iff] at arrived
      refine ⟨steps, ?_⟩
      rw [zpow_natCast]
      exact arrived
    refine ⟨σ.bijective.bijOn_univ, ?_⟩
    intro left _ right _
    exact (reached left).symm.trans (reached right)
  · intro cycle slot inside
    rw [same.length] at inside
    have whole : σ.IsCycleOn (Finset.univ : Finset (Fin n)) := by
      rw [Finset.coe_univ]
      exact cycle
    rcases
        whole.exists_pow_eq (Finset.mem_univ 0)
          (Finset.mem_univ ⟨slot, inside⟩) with
      ⟨steps, early, arrived⟩
    refine ⟨steps, by rw [same.follow, arrived], ?_⟩
    intro earlier positive before
    rw [same.follow, Ne, Option.some.injEq]
    intro returned
    have home : (σ ^ earlier) 0 = 0 := Fin.ext returned
    rw [whole.pow_apply_eq (Finset.mem_univ 0)] at home
    have bound := Nat.le_of_dvd positive home
    omega

end Chain

/-- Without elements to exchange, the loop is not reached. -/
theorem shuffle_eq (array : List Nat) (n : Nat) (rand : Nat → Nat) :
    shuffle array n rand =
      (List.range (n - 1)).foldlM
        (fun array i => exchange array i (draw n rand i)) array := by
  rw [shuffle]
  split
  · case isTrue small =>
      rw [Nat.sub_eq_zero_of_le small]
      rfl
  · rfl

/-- The shuffled array is a permutation of its slots. -/
theorem exists_shuffle {n : Nat} [NeZero n] (rand : Nat → Nat) :
    ∃ result, shuffle (initial n) n rand = some result ∧
      Represents result (exchanges n rand (List.range (n - 1))) := by
  have inside : ∀ i ∈ List.range (n - 1), i < n := by
    intro i member
    rw [List.mem_range] at member
    omega
  rcases exists_foldlM_exchange rand (initial_represents n) inside
    with ⟨result, ran, same⟩
  rw [one_mul] at same
  exact ⟨result, (shuffle_eq _ n rand).trans ran, same⟩

/--
For every array that is not empty and all results of `rand`, the chain of the
shuffled array visits all elements before it returns to the first one, if and
only if no iteration draws its own index, the first one of its range.
-/
theorem shuffle_covers_iff
    (n : Nat) (positive : 1 ≤ n) (rand : Nat → Nat) :
    ∃ result, shuffle (initial n) n rand = some result ∧
      (Covers result ↔ ∀ i < n - 1, rand i % (n - i) ≠ 0) := by
  have : NeZero n := ⟨Nat.ne_of_gt positive⟩
  rcases exists_shuffle (n := n) rand with ⟨result, ran, same⟩
  refine ⟨result, ran, ?_⟩
  have everything : (Set.univ : Set (Fin n)) = slotsFrom n 0 := by
    ext slot
    exact ⟨fun _ => Nat.zero_le slot.val, fun _ => trivial⟩
  rw [List.range_eq_range'] at same
  rw [same.covers_iff, everything, exchanges_isCycleOn_iff (by omega)]
  constructor
  · intro all i before
    exact all i (Nat.zero_le i) before
  · intro all i _ before
    exact all i before

theorem shuffle_covers_iff_four :
    ∃ result,
      shuffle (initial 4) 4 (fun i => 5 * i + 7) = some result ∧
        (Covers result ↔
          ∀ i < 4 - 1, (fun i => 5 * i + 7) i % (4 - i) ≠ 0) :=
  shuffle_covers_iff 4 (by decide) fun i => 5 * i + 7

/-- Two elements that are not exchanged. -/
theorem exists_not_covers :
    ¬ ∀ n, 1 ≤ n → ∀ rand : Nat → Nat,
        ∃ result, shuffle (initial n) n rand = some result ∧
          Covers result := by
  intro always
  rcases always 2 (by decide) (fun _ => 0) with ⟨result, ran, covers⟩
  have unchanged : shuffle (initial 2) 2 (fun _ => 0) = some [0, 1] := by
    decide
  rw [unchanged, Option.some.injEq] at ran
  rw [← ran] at covers
  have stuck (steps : Nat) : follow [0, 1] steps = some 0 := by
    induction steps with
    | zero => rfl
    | succ steps ih =>
        rw [follow, ih]
        rfl
  rcases covers 1 (by decide) with ⟨steps, arrived, _⟩
  rw [stuck] at arrived
  cases arrived

end CodingExamples.MemReadLat.Shuffle
