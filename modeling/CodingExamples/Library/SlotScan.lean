import Mathlib.Data.List.Sort

/-!
# Scanning a table

A scan looks at the indices from one on in their order.  What it finds at an
index is a value or nothing; its hits are the values with their indices.
-/

namespace CodingExamples.Library.SlotScan

variable {Value : Type}

/-- The hits at the indices from `i` on below a bound. -/
def hitsFrom (found : Nat → Option Value) (bound i : Nat) :
    List (Nat × Value) :=
  (List.range' i (bound - i)).filterMap fun j =>
    (found j).map fun value => (j, value)

section Scan

variable {found : Nat → Option Value} {bound i : Nat}

theorem hitsFrom_eq (inside : i < bound) :
    hitsFrom found bound i =
      ((found i).map fun value => (i, value)).toList ++
        hitsFrom found bound (i + 1) := by
  have count : bound - i = bound - (i + 1) + 1 := by
    omega
  rw [hitsFrom, hitsFrom, count, List.range'_succ, List.filterMap_cons]
  cases found i <;> rfl

/-- Nothing is found at the first index. -/
theorem hitsFrom_of_none
    (inside : i < bound) (nothing : found i = none) :
    hitsFrom found bound i = hitsFrom found bound (i + 1) := by
  rw [hitsFrom_eq inside, nothing]
  rfl

theorem hitsFrom_of_some
    {value : Value} (inside : i < bound) (hit : found i = some value) :
    hitsFrom found bound i = (i, value) :: hitsFrom found bound (i + 1) := by
  rw [hitsFrom_eq inside, hit]
  rfl

theorem mem_hitsFrom_iff {j : Nat} {value : Value} :
    (j, value) ∈ hitsFrom found bound i ↔
      i ≤ j ∧ j < bound ∧ found j = some value := by
  rw [hitsFrom, List.mem_filterMap]
  constructor
  · rintro ⟨index, inside, hit⟩
    rcases Option.map_eq_some_iff.mp hit with ⟨entry, same, pair⟩
    cases pair
    rw [List.mem_range'_1] at inside
    exact ⟨inside.1, by omega, same⟩
  · rintro ⟨behind, inside, hit⟩
    refine ⟨j, ?_, ?_⟩
    · rw [List.mem_range'_1]
      omega
    · rw [hit]
      rfl

/-- There are no hits where nothing is found. -/
theorem hitsFrom_eq_nil
    (nothing : ∀ j, i ≤ j → j < bound → found j = none) :
    hitsFrom found bound i = [] := by
  apply List.eq_nil_iff_forall_not_mem.mpr
  rintro ⟨j, value⟩ member
  rcases mem_hitsFrom_iff.mp member with ⟨behind, inside, hit⟩
  rw [nothing j behind inside] at hit
  cases hit

/-- The hits are in the order of their indices. -/
theorem hitsFrom_pairwise :
    (hitsFrom found bound i).Pairwise fun first second =>
      first.1 < second.1 := by
  rw [hitsFrom, List.pairwise_filterMap]
  have ordered : (List.range' i (bound - i)).Pairwise (· < ·) :=
    List.pairwise_lt_range'
  apply ordered.imp
  intro first second before hit left other right
  rcases Option.map_eq_some_iff.mp left with ⟨_, _, rfl⟩
  rcases Option.map_eq_some_iff.mp right with ⟨_, _, rfl⟩
  exact before

theorem hitsFrom_nodup : (hitsFrom found bound i).Nodup := by
  apply hitsFrom_pairwise.imp
  rintro first second before rfl
  exact Nat.lt_irrefl _ before

end Scan

end CodingExamples.Library.SlotScan
