import CodingExamples.Library.InterpolatedArea
import CodingExamples.TrafficTraceGen.GenSize

/-!
# The average of the generated sizes

`dist_avg_size` adds up trapezoids.  That is the area under the interpolated
table, which the sizes of all numbers that the random number generator can
return approximate from below: `random` returns multiples of a power of two.
The rate of flows that is computed from the average asks for no more than
the throughput.
-/

namespace CodingExamples.TrafficTraceGen.AverageSize

open CodingExamples.Library.Interpolation
open CodingExamples.Library.InterpolatedArea
open CodingExamples.TrafficTraceGen.Distribution
open CodingExamples.TrafficTraceGen.GenSize

/-- The body of the loop of `dist_avg_size`. -/
def addMean (dist : List Row) (size : ℚ) (i : Nat) : Except PyError ℚ := do
  let row ← item dist i
  let previous ← item dist (i - 1)
  let prob := row.1 - previous.1
  let mean := (row.2 + previous.2) / 2
  return size + prob * mean

/-- `dist_avg_size(dist)`. -/
def distAvgSize (dist : List Row) : Except PyError ℚ :=
  (List.range' 1 (dist.length - 1)).foldlM (addMean dist) 0

/-- The average number of flows per second, for a throughput in Mbps. -/
def flowRate (throughput avgSize : ℚ) : Except PyError ℚ :=
  divide (throughput * 1024 * 1024) (avgSize * 8)

/-! ## The trapezoids -/

theorem foldlM_addMean
    {dist before rest : List Row} {previous : Row}
    (split : dist = before ++ previous :: rest) (size : ℚ) :
    (List.range' (before.length + 1) rest.length).foldlM (addMean dist) size =
      .ok (size + trapezoids previous rest) := by
  induction rest generalizing before previous size with
  | nil =>
      rw [trapezoids, add_zero]
      rfl
  | cons row rest ih =>
      have next : dist = (before ++ [previous]) ++ row :: rest := by
        rw [split, List.append_assoc]
        rfl
      have nextLength : (before ++ [previous]).length = before.length + 1 :=
        List.length_append
      have first : item dist (before.length + 1 : Nat) = .ok row := by
        rw [next, ← nextLength]
        exact item_length (before ++ [previous]) row rest
      have second :
          item dist ((before.length + 1 : Nat) - 1) = .ok previous := by
        rw [split, Nat.cast_add, Nat.cast_one, Int.add_sub_cancel]
        exact item_length before previous (row :: rest)
      have body :
          addMean dist size (before.length + 1) =
            .ok (size +
              (row.1 - previous.1) * ((previous.2 + row.2) / 2)) := by
        rw [addMean, first, second, add_comm previous.2]
        rfl
      have others :=
        ih next (size + (row.1 - previous.1) * ((previous.2 + row.2) / 2))
      rw [nextLength] at others
      rw [List.length_cons, List.range'_succ, List.foldlM_cons, body,
        trapezoids, ← add_assoc]
      exact others

theorem distAvgSize_eq (first : Row) (rest : List Row) :
    distAvgSize (first :: rest) = .ok (trapezoids first rest) := by
  have behind : first :: rest = [] ++ first :: rest :=
    rfl
  have added := foldlM_addMean behind 0
  rw [zero_add] at added
  exact added

/-! ## The sizes -/

section Sizes

variable {first : Row} {rest : List Row}

/-- From the first row on, the size is the truncated interpolation. -/
theorem genSize_eq_interpolated
    (ascending : Ascending (first :: rest)) {x : ℚ} (above : first.1 ≤ x) :
    genSize (first :: rest) x = .ok (int (interpolated first rest x)) := by
  rw [interpolated]
  rcases above.eq_or_lt with equal | above
  · rw [if_neg equal.not_lt]
    exact genSize_of_first_eq equal
  · rw [if_pos above, genSize_of_first_lt ascending above]
    cases scan first rest x <;> rfl

theorem interpolated_nonneg
    (shaped : Shaped (first :: rest)) (x : ℚ) :
    0 ≤ interpolated first rest x := by
  have nonnegative := shaped.nonnegative first List.mem_cons_self
  rw [interpolated]
  split
  case isTrue above =>
    cases scanned : scan first rest x with
    | none => exact le_rfl
    | some value =>
        exact
          nonnegative.trans (previous_le_scan shaped.ascending above scanned)
  case isFalse => exact nonnegative

/-- At the value of the last row, the size is no more than its size. -/
theorem interpolated_last_le
    (shaped : Shaped (first :: rest)) {last : Row}
    (isLast : (first :: rest).getLast? = some last) :
    interpolated first rest last.1 ≤ last.2 := by
  have largest := shaped.le_last List.mem_cons_self isLast
  rw [interpolated]
  split
  case isTrue above =>
    cases scanned : scan first rest last.1 with
    | none =>
        exact shaped.nonnegative last (List.mem_of_getLast? isLast)
    | some value =>
        have member : last ∈ rest := by
          rcases List.mem_cons.mp (List.mem_of_getLast? isLast) with
            rfl | member
          · exact absurd above (lt_irrefl _)
          · exact member
        exact scan_le shaped.ascending above scanned member le_rfl
  case isFalse => exact largest.2

/-- The mean of the interpolated table, for a table from 0 to 1. -/
theorem mean_interpolated
    (shaped : Shaped (first :: rest)) (zero : first.1 = 0) {last : Row}
    (isLast : (first :: rest).getLast? = some last) {count : Nat}
    (positive : 0 < count) :
    trapezoids first rest - (last.2 - first.2) / count ≤
        mean (interpolated first rest) count ∧
      mean (interpolated first rest) count ≤ trapezoids first rest := by
  have total := shaped.last_eq_one isLast
  have encloses :=
    areaTo_encloses shaped.ascending (List.mem_of_getLast? isLast)
  have whole : areaTo first rest 1 = trapezoids first rest := by
    apply areaTo_last
    intro row member
    rw [← total]
    exact (shaped.le_last (List.mem_cons_of_mem _ member) isLast).1
  have nothing := areaTo_first shaped.ascending
  have start : interpolated first rest 0 = first.2 := by
    rw [interpolated, zero, if_neg (lt_irrefl _)]
  have finish := interpolated_last_le shaped isLast
  rw [zero, total] at encloses
  rw [zero] at nothing
  rw [total] at finish
  have lower := area_le_mean encloses positive
  have upper := mean_le_area encloses positive
  rw [whole, nothing, sub_zero] at lower upper
  rw [start] at lower
  refine ⟨le_trans ?_ lower, upper⟩
  gcongr

/-- Truncation takes less than one byte from each size. -/
theorem mean_int
    (shaped : Shaped (first :: rest)) {count : Nat} (positive : 0 < count) :
    mean (interpolated first rest) count - 1 <
        mean (fun x => (int (interpolated first rest x) : ℚ)) count ∧
      mean (fun x => (int (interpolated first rest x) : ℚ)) count ≤
        mean (interpolated first rest) count := by
  have countPositive : (0 : ℚ) < count := by
    exact_mod_cast positive
  have truncated (x : ℚ) :
      int (interpolated first rest x) = ⌊interpolated first rest x⌋ :=
    int_of_nonneg (interpolated_nonneg shaped x)
  constructor
  · rw [mean, mean, div_sub_one countPositive.ne',
      div_lt_div_iff_of_pos_right countPositive, sub_lt_iff_lt_add]
    have ones : (count : ℚ) = ∑ _k ∈ Finset.range count, (1 : ℚ) := by
      simp
    rw [ones, ← Finset.sum_add_distrib, ← ones]
    apply Finset.sum_lt_sum_of_nonempty
    · exact Finset.nonempty_range_iff.mpr positive.ne'
    · intro k _
      rw [truncated]
      exact Int.lt_floor_add_one _
  · rw [mean, mean]
    gcongr with k
    rw [truncated]
    exact Int.floor_le _

end Sizes

/--
In exact rational arithmetic, the mean of the sizes of all multiples of
`1 / count` below 1 is at most the computed average, and by less than one byte
and the last step below it.  Flows of that mean at the computed rate need no
more than the throughput.
-/
theorem mean_genSize
    (dist : List Row) (shaped : Shaped dist) (first last : Row)
    (isFirst : dist.head? = some first) (isLast : dist.getLast? = some last)
    (zero : first.1 = 0) (count : Nat) (positive : 0 < count) :
    ∃ avgSize, distAvgSize dist = .ok avgSize ∧
      ∃ size : ℚ → Int,
        (∀ k < count, genSize dist (k / count) = .ok (size (k / count))) ∧
          avgSize - (last.2 - first.2) / count - 1 <
            mean (fun x => (size x : ℚ)) count ∧
          mean (fun x => (size x : ℚ)) count ≤ avgSize ∧
          ∀ throughput rate, 0 ≤ throughput →
            flowRate throughput avgSize = .ok rate →
              rate * (mean (fun x => (size x : ℚ)) count * 8) ≤
                throughput * 1024 * 1024 := by
  cases dist with
  | nil => cases isFirst
  | cons head rest =>
      cases isFirst
      have areas := mean_interpolated shaped zero isLast positive
      have truncated := mean_int shaped positive
      refine
        ⟨trapezoids first rest, distAvgSize_eq first rest,
          fun x => int (interpolated first rest x), ?_, ?_, ?_, ?_⟩
      · intro k _
        apply genSize_eq_interpolated shaped.ascending
        rw [zero]
        positivity
      · linarith
      · exact truncated.2.trans areas.2
      · intro throughput rate nonnegative computed
        rw [flowRate, divide] at computed
        split at computed
        case isTrue => cases computed
        case isFalse nonzero =>
          cases computed
          have sizes :
              0 ≤ mean (fun x => (int (interpolated first rest x) : ℚ))
                count := by
            rw [mean]
            apply div_nonneg _ (Nat.cast_nonneg count)
            apply Finset.sum_nonneg
            intro k _
            rw [int_of_nonneg (interpolated_nonneg shaped _)]
            exact_mod_cast Int.floor_nonneg.mpr (interpolated_nonneg shaped _)
          have average := sizes.trans (truncated.2.trans areas.2)
          have bits : 0 < trapezoids first rest * 8 :=
            lt_of_le_of_ne (by positivity) (Ne.symm nonzero)
          calc
            throughput * 1024 * 1024 / (trapezoids first rest * 8) *
                (mean (fun x => (int (interpolated first rest x) : ℚ))
                  count * 8) ≤
                throughput * 1024 * 1024 / (trapezoids first rest * 8) *
                  (trapezoids first rest * 8) := by
              gcongr
              exact truncated.2.trans areas.2
            _ = throughput * 1024 * 1024 := div_mul_cancel₀ _ bits.ne'

/-- A table with a jump. -/
def jump : List Row :=
  [(0, 10), (1 / 2, 15), (1 / 2, 20), (1, 40)]

/-- All numbers with 53 bits behind the point. -/
theorem mean_genSize_jump :
    ∃ avgSize, distAvgSize jump = .ok avgSize ∧
      ∃ size : ℚ → Int,
        (∀ k : Nat, k < 2 ^ 53 →
          genSize jump (k / (2 ^ 53 : Nat)) =
            .ok (size (k / (2 ^ 53 : Nat)))) ∧
          avgSize - 30 / (2 ^ 53 : Nat) - 1 <
            mean (fun x => (size x : ℚ)) (2 ^ 53) ∧
          mean (fun x => (size x : ℚ)) (2 ^ 53) ≤ avgSize := by
  have shaped : Shaped jump :=
    { ascending := by norm_num [Ascending, jump]
      nonnegative := by norm_num [jump]
      last := rfl }
  rcases mean_genSize jump shaped (0, 10) (1, 40) rfl rfl rfl (2 ^ 53)
      (Nat.two_pow_pos 53) with
    ⟨avgSize, average, size, generated, lower, upper, -⟩
  refine ⟨avgSize, average, size, generated, ?_, upper⟩
  have range : (40 : ℚ) - 10 = 30 := by
    norm_num
  rwa [range] at lower

end CodingExamples.TrafficTraceGen.AverageSize
