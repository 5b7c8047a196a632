import CodingExamples.TrafficTraceGen.Distribution

/-!
# The generated sizes

Above the value of the first row, `gen_size` is the truncated interpolation
of a sorted table.  Below that value the row before the first one is the last
row of the table, so that the line through the first and the last row is
continued downwards, and there is no such line if both have the value 1.
-/

namespace CodingExamples.TrafficTraceGen.GenSize

open CodingExamples.Library.Interpolation
open CodingExamples.TrafficTraceGen.Distribution

/-- Both columns are sorted, no size is negative, and the last value is 1. -/
structure Shaped (dist : List Row) : Prop where
  ascending : Ascending dist
  nonnegative : ∀ row ∈ dist, 0 ≤ row.2
  last : dist.getLast?.map Prod.fst = some 1

theorem Shaped.exists_last {dist : List Row} (shaped : Shaped dist) :
    ∃ last, dist.getLast? = some last ∧ last.1 = 1 :=
  Option.map_eq_some_iff.mp shaped.last

theorem Shaped.last_eq_one {dist : List Row} (shaped : Shaped dist) {last : Row}
    (isLast : dist.getLast? = some last) :
    last.1 = 1 := by
  rcases shaped.exists_last with ⟨other, isOther, total⟩
  rw [isLast, Option.some.injEq] at isOther
  rw [isOther]
  exact total

theorem Shaped.first_le
    {first : Row} {rest : List Row} (shaped : Shaped (first :: rest))
    {row : Row} (member : row ∈ first :: rest) :
    first.1 ≤ row.1 := by
  rcases List.mem_cons.mp member with rfl | member
  · exact le_rfl
  · exact ((List.pairwise_cons.mp shaped.ascending).1 row member).1

theorem Shaped.le_last
    {dist : List Row} (shaped : Shaped dist) {row last : Row}
    (member : row ∈ dist) (isLast : dist.getLast? = some last) :
    row.1 ≤ last.1 ∧ row.2 ≤ last.2 := by
  rcases List.getLast?_eq_some_iff.mp isLast with ⟨front, rfl⟩
  rcases List.mem_append.mp member with member | member
  · have order := (List.pairwise_append.mp shaped.ascending).2.2
    exact order row member last List.mem_cons_self
  · rw [List.mem_singleton.mp member]
    exact ⟨le_rfl, le_rfl⟩

/-! ## The three cases of the first row -/

section First

variable {first : Row} {rest : List Row} {x : ℚ}

theorem genSize_of_first_lt
    (ascending : Ascending (first :: rest)) (above : first.1 < x) :
    genSize (first :: rest) x =
      .ok (((scan first rest x).map int).getD 0) := by
  rw [genSize, genSizeFrom, if_neg above.not_gt, if_neg above.ne]
  have behind : first :: rest = [] ++ first :: rest :=
    rfl
  exact genSizeFrom_eq_scan behind ascending above

theorem genSize_of_first_eq (equal : first.1 = x) :
    genSize (first :: rest) x = .ok (int first.2) := by
  rw [genSize, genSizeFrom, if_neg (not_lt.mpr equal.le), if_pos equal]

/-- The row before the first one is the last one. -/
theorem genSize_below
    {last : Row} (isLast : (first :: rest).getLast? = some last)
    (below : x < first.1) :
    genSize (first :: rest) x = (do
      let slope ← divide (first.2 - last.2) (first.1 - last.1)
      let offset ←
        divide (first.1 * last.2 - last.1 * first.2) (first.1 - last.1)
      return int (slope * x + offset)) := by
  have previous : item (first :: rest) ((0 : Nat) - 1) = .ok last :=
    item_last isLast
  have current : item (first :: rest) (0 : Nat) = .ok first :=
    item_length [] first rest
  rw [genSize, genSizeFrom, if_pos below, previous, current]
  rfl

theorem genSize_of_lt_first
    {last : Row} (isLast : (first :: rest).getLast? = some last)
    (below : x < first.1) (apart : first.1 - last.1 ≠ 0) :
    genSize (first :: rest) x = .ok (int (line last first x)) :=
  (genSize_below isLast below).trans (divide_line apart x)

theorem genSize_zeroDivisionError
    {last : Row} (isLast : (first :: rest).getLast? = some last)
    (below : x < first.1) (flat : first.1 - last.1 = 0) :
    genSize (first :: rest) x = .error .zeroDivisionError := by
  have division (size : ℚ) :
      divide size (first.1 - last.1) = .error .zeroDivisionError :=
    if_pos flat
  rw [genSize_below isLast below, division]
  rfl

/-- The value of the interpolated table, from its first row on. -/
inductive Interpolates (first : Row) (rest : List Row) (x : ℚ) : ℚ → Prop where
  | first (equal : first.1 = x) : Interpolates first rest x first.2
  | later {value : ℚ} (above : first.1 < x)
      (scanned : scan first rest x = some value) :
      Interpolates first rest x value

/-- From the first row on, below the last value, the table is interpolated. -/
theorem genSize_of_first_le
    (shaped : Shaped (first :: rest)) (above : first.1 ≤ x) (below : x < 1) :
    ∃ value, genSize (first :: rest) x = .ok (int value) ∧
      Interpolates first rest x value := by
  rcases above.eq_or_lt with equal | above
  · exact ⟨first.2, genSize_of_first_eq equal, .first equal⟩
  · have generated := genSize_of_first_lt shaped.ascending above
    cases scanned : scan first rest x with
    | some value =>
        rw [scanned] at generated
        exact ⟨value, generated, .later above scanned⟩
    | none =>
        rw [scan_eq_none_iff] at scanned
        rcases shaped.exists_last with ⟨last, isLast, total⟩
        rcases List.mem_cons.mp (List.mem_of_getLast? isLast) with
          isFirst | member
        · rw [← isFirst, total] at above
          exact absurd below above.not_gt
        · have beyond := scanned last member
          rw [total] at beyond
          exact absurd below beyond.not_gt

theorem Interpolates.between
    {value : ℚ} (interpolates : Interpolates first rest x value)
    (ascending : Ascending (first :: rest)) :
    (∀ row ∈ first :: rest, row.1 < x → row.2 ≤ value) ∧
      ∀ row ∈ first :: rest, x ≤ row.1 → value ≤ row.2 := by
  have fromFirst := (List.pairwise_cons.mp ascending).1
  cases interpolates with
  | first equal =>
      constructor
      · intro row member small
        rcases List.mem_cons.mp member with rfl | member
        · exact le_rfl
        · exact absurd (equal ▸ (fromFirst row member).1) small.not_ge
      · intro row member _
        rcases List.mem_cons.mp member with rfl | member
        · exact le_rfl
        · exact (fromFirst row member).2
  | later above scanned =>
      constructor
      · intro row member small
        exact le_scan ascending above scanned member small
      · intro row member large
        rcases List.mem_cons.mp member with rfl | member
        · exact absurd above large.not_gt
        · exact scan_le ascending above scanned member large

theorem Interpolates.monotone
    {y value next : ℚ} (interpolates : Interpolates first rest x value)
    (nextInterpolates : Interpolates first rest y next)
    (ascending : Ascending (first :: rest)) (order : x ≤ y) :
    value ≤ next := by
  cases interpolates with
  | first equal =>
      cases nextInterpolates with
      | first _ => exact le_rfl
      | later above scanned =>
          exact previous_le_scan ascending above scanned
  | later above scanned =>
      cases nextInterpolates with
      | first equal => exact absurd (above.trans_le order) equal.not_lt
      | later _ scannedNext =>
          exact scan_monotone ascending above order scanned scannedNext

/-- The value of a row gives the size of the first row with that value. -/
theorem genSize_of_find
    (ascending : Ascending (first :: rest)) {row : Row}
    (found :
      (first :: rest).find? (fun row => decide (row.1 = x)) = some row) :
    genSize (first :: rest) x = .ok (int row.2) := by
  by_cases equal : first.1 = x
  · have same : first = row := by
      simpa [equal] using found
    rw [genSize_of_first_eq equal, same]
  · have later :
        rest.find? (fun row => decide (row.1 = x)) = some row := by
      simpa [equal] using found
    have reached : row.1 = x := by
      simpa using List.find?_some later
    rcases List.pairwise_cons.mp ascending with ⟨fromFirst, restAscending⟩
    have atLeast := (fromFirst row (List.mem_of_find?_eq_some later)).1
    rw [reached] at atLeast
    rw [genSize_of_first_lt ascending (lt_of_le_of_ne atLeast equal),
      scan_of_find restAscending later]
    rfl

/-- Between two rows the size is between their sizes. -/
theorem genSize_between
    (shaped : Shaped (first :: rest)) {low high : Row}
    (lowMember : low ∈ first :: rest) (highMember : high ∈ first :: rest)
    (above : low.1 < x) (below : x < high.1) :
    ∃ size, genSize (first :: rest) x = .ok size ∧
      int low.2 ≤ size ∧ size ≤ int high.2 := by
  have start : first.1 ≤ low.1 := shaped.first_le lowMember
  rcases shaped.exists_last with ⟨last, isLast, total⟩
  have most : high.1 ≤ 1 := total ▸ (shaped.le_last highMember isLast).1
  rcases genSize_of_first_le shaped (start.trans above.le)
      (below.trans_le most) with
    ⟨value, generated, interpolates⟩
  have bounds := interpolates.between shaped.ascending
  exact
    ⟨int value, generated, int_monotone (bounds.1 low lowMember above),
      int_monotone (bounds.2 high highMember below.le)⟩

end First

/-! ## Tables that start at 0 -/

/--
In a sorted table from 0 to 1 no number leads to a division by zero, the size
does not descend, every row gives the size of the first row with its value,
and between two rows the size is between their sizes.
-/
theorem genSize_spec
    (dist : List Row) (shaped : Shaped dist)
    (start : dist.head?.map Prod.fst = some 0) :
    (∀ x, ∃ size, genSize dist x = .ok size) ∧
      (∀ x y, 0 ≤ x → x ≤ y → y < 1 →
        ∃ small large, genSize dist x = .ok small ∧
          genSize dist y = .ok large ∧ small ≤ large) ∧
      (∀ row ∈ dist, ∃ earliest,
        dist.find? (fun other => decide (other.1 = row.1)) = some earliest ∧
          genSize dist row.1 = .ok (int earliest.2)) ∧
      ∀ before low high after, dist = before ++ low :: high :: after →
        ∀ x, low.1 < x → x < high.1 →
          ∃ size, genSize dist x = .ok size ∧
            int low.2 ≤ size ∧ size ≤ int high.2 := by
  cases dist with
  | nil => simp at start
  | cons first rest =>
      have zero : first.1 = 0 := by
        simpa using start
      refine ⟨?_, ?_, ?_, ?_⟩
      · intro x
        rcases lt_trichotomy x first.1 with below | equal | above
        · rcases shaped.exists_last with ⟨last, isLast, total⟩
          have apart : first.1 - last.1 ≠ 0 := by
            rw [zero, total]
            norm_num
          exact ⟨_, genSize_of_lt_first isLast below apart⟩
        · exact ⟨_, genSize_of_first_eq equal.symm⟩
        · exact ⟨_, genSize_of_first_lt shaped.ascending above⟩
      · intro x y nonnegative order below
        rw [← zero] at nonnegative
        rcases genSize_of_first_le shaped nonnegative (order.trans_lt below)
          with ⟨value, generated, interpolates⟩
        rcases genSize_of_first_le shaped (nonnegative.trans order) below
          with ⟨next, nextGenerated, nextInterpolates⟩
        exact
          ⟨int value, int next, generated, nextGenerated,
            int_monotone
              (interpolates.monotone nextInterpolates shaped.ascending order)⟩
      · intro row member
        have occurs : ((first :: rest).find? fun other =>
            decide (other.1 = row.1)).isSome := by
          rw [List.find?_isSome]
          exact ⟨row, member, by simp⟩
        rcases Option.isSome_iff_exists.mp occurs with ⟨earliest, found⟩
        exact ⟨earliest, found, genSize_of_find shaped.ascending found⟩
      · intro before low high after split x above below
        have lowMember : low ∈ first :: rest := by
          simp [split]
        have highMember : high ∈ first :: rest := by
          simp [split]
        exact genSize_between shaped lowMember highMember above below

/-- A table with a jump: two rows have the value one half. -/
theorem genSize_spec_jump :
    genSize [(0, 10), (1 / 2, 15), (1 / 2, 20), (1, 40)] (1 / 2) = .ok 15 ∧
      ∃ size,
        genSize [(0, 10), (1 / 2, 15), (1 / 2, 20), (1, 40)] (2 / 3) =
            .ok size ∧
          20 ≤ size ∧ size ≤ 40 := by
  have shaped : Shaped [(0, 10), (1 / 2, 15), (1 / 2, 20), (1, 40)] :=
    { ascending := by norm_num [Ascending]
      nonnegative := by norm_num
      last := rfl }
  have spec := genSize_spec _ shaped rfl
  constructor
  · rcases spec.2.2.1 (1 / 2, 20) (by simp) with ⟨earliest, found, size⟩
    have same : (1 / 2, 15) = earliest := by
      simpa using found
    rw [size, ← same]
    decide +kernel
  · rcases spec.2.2.2 [(0, 10), (1 / 2, 15)] (1 / 2, 20) (1, 40) [] rfl (2 / 3)
        (by norm_num) (by norm_num) with
      ⟨size, generated, atLeast, atMost⟩
    refine ⟨size, generated, ?_, ?_⟩
    · exact le_of_eq_of_le (by decide +kernel) atLeast
    · exact atMost.trans_eq (by decide +kernel)

/-! ## Tables that start above 0 -/

/--
Below the first row the continued line falls by no more than truncation
takes away.
-/
def StaysAtFirst (first last : Row) (x : ℚ) : Prop :=
  let fall := (last.2 - first.2) * (first.1 - x)
  let run := 1 - first.1
  fall ≤ Int.fract first.2 * run ∨
    first.2 < 1 ∧ fall < (first.2 + 1) * run

instance (first last : Row) (x : ℚ) : Decidable (StaysAtFirst first last x) :=
  inferInstanceAs (Decidable (_ ∨ _))

/-- The line from the last row, continued downwards from the first. -/
theorem line_last
    {first last : Row} (total : last.1 = 1) (apart : first.1 < 1) (x : ℚ) :
    line last first x =
      first.2 - (last.2 - first.2) * (first.1 - x) / (1 - first.1) := by
  have backwards : first.1 - last.1 ≠ 0 := by
    rw [total]
    exact (sub_neg.mpr apart).ne
  rw [line_eq_right backwards, total, ← neg_sub 1 first.1,
    ← neg_sub last.2 first.2, neg_mul, neg_div_neg_eq]

/-- When the size that is generated below the first row is large enough. -/
theorem int_first_le_line_iff
    {first last : Row} {x : ℚ} (nonnegative : 0 ≤ first.2)
    (total : last.1 = 1) (apart : first.1 < 1) :
    int first.2 ≤ int (line last first x) ↔ StaysAtFirst first last x := by
  have run : 0 < 1 - first.1 := sub_pos.mpr apart
  have whole :
      (⌊first.2⌋ : ℚ) ≤ line last first x ↔
        (last.2 - first.2) * (first.1 - x) ≤
          Int.fract first.2 * (1 - first.1) := by
    rw [line_last total apart, le_sub_comm, Int.self_sub_floor,
      div_le_iff₀ run]
  have minusOne :
      -1 < line last first x ↔
        (last.2 - first.2) * (first.1 - x) <
          (first.2 + 1) * (1 - first.1) := by
    rw [line_last total apart, lt_sub_comm, sub_neg_eq_add,
      div_lt_iff₀ run]
  rw [int_le_int_iff nonnegative, whole, minusOne]
  rfl

section Range

variable {first last : Row} {rest : List Row} {x : ℚ}

/-- Not below the first row, the size is in the range of the table. -/
theorem exists_size_of_first_le
    (shaped : Shaped (first :: rest))
    (isLast : (first :: rest).getLast? = some last) (above : first.1 ≤ x)
    (upper : x < 1) :
    ∃ size, genSize (first :: rest) x = .ok size ∧
      int first.2 ≤ size ∧ size ≤ int last.2 := by
  have largest := shaped.le_last List.mem_cons_self isLast
  rcases above.eq_or_lt with equal | above
  · exact
      ⟨int first.2, genSize_of_first_eq equal, le_rfl,
        int_monotone largest.2⟩
  · exact
      genSize_between shaped List.mem_cons_self
        (List.mem_of_getLast? isLast) above
        (shaped.last_eq_one isLast ▸ upper)

/-- Below the first row, the continued line decides. -/
theorem exists_size_iff_of_lt_first
    (shaped : Shaped (first :: rest))
    (isLast : (first :: rest).getLast? = some last) (below : x < first.1) :
    (∃ size, genSize (first :: rest) x = .ok size ∧
      int first.2 ≤ size ∧ size ≤ int last.2) ↔
      first.1 < 1 ∧ StaysAtFirst first last x := by
  have total := shaped.last_eq_one isLast
  have largest := shaped.le_last List.mem_cons_self isLast
  have nonnegative := shaped.nonnegative first List.mem_cons_self
  by_cases apart : first.1 < 1
  · have generated :=
      genSize_of_lt_first isLast below (total ▸ (sub_neg.mpr apart).ne)
    have run : 0 < 1 - first.1 := sub_pos.mpr apart
    have rise : 0 ≤ last.2 - first.2 := sub_nonneg.mpr largest.2
    have behind : 0 ≤ first.1 - x := sub_nonneg.mpr below.le
    have falls : line last first x ≤ first.2 := by
      rw [line_last total apart]
      exact sub_le_self _ (by positivity)
    rw [and_iff_right apart,
      ← int_first_le_line_iff nonnegative total apart]
    constructor
    · rintro ⟨size, sized, atLeast, _⟩
      rw [generated, Except.ok.injEq] at sized
      rw [sized]
      exact atLeast
    · intro atLeast
      exact ⟨_, generated, atLeast, int_monotone (falls.trans largest.2)⟩
  · -- The first row already has the value 1.
    have flat : first.1 - last.1 = 0 := by
      rw [total]
      exact
        sub_eq_zero.mpr (le_antisymm (total ▸ largest.1) (not_lt.mp apart))
    have failed := genSize_zeroDivisionError isLast below flat
    refine iff_of_false ?_ (fun both => apart both.1)
    rintro ⟨size, sized, _⟩
    rw [failed] at sized
    cases sized

end Range

/--
For a sorted table that ends at 1, a number is answered with a size between
the truncations of the smallest and the largest exactly if it is not below
the first row, or if the line continued from there still truncates to the
smallest size.
-/
theorem genSize_in_range_iff
    (dist : List Row) (shaped : Shaped dist) (first last : Row)
    (isFirst : dist.head? = some first) (isLast : dist.getLast? = some last)
    (x : ℚ) (upper : x < 1) :
    (∃ size, genSize dist x = .ok size ∧
      int first.2 ≤ size ∧ size ≤ int last.2) ↔
      first.1 ≤ x ∨ first.1 < 1 ∧ StaysAtFirst first last x := by
  cases dist with
  | nil => cases isFirst
  | cons head rest =>
      cases isFirst
      by_cases above : first.1 ≤ x
      · exact
          iff_of_true (exists_size_of_first_le shaped isLast above upper)
            (Or.inl above)
      · rw [or_iff_right above]
        exact
          exists_size_iff_of_lt_first shaped isLast (not_le.mp above)

/-- Half of the numbers are below the first row, and one tenth is too small. -/
theorem genSize_in_range_iff_two_rows :
    (∃ size, genSize [(1 / 2, 10), (1, 20)] (3 / 4) = .ok size ∧
      int 10 ≤ size ∧ size ≤ int 20) ∧
      ¬ ∃ size, genSize [(1 / 2, 10), (1, 20)] (1 / 10) = .ok size ∧
        int 10 ≤ size ∧ size ≤ int 20 := by
  have shaped : Shaped [(1 / 2, 10), (1, 20)] :=
    { ascending := by norm_num [Ascending]
      nonnegative := by norm_num
      last := rfl }
  constructor
  · rw [genSize_in_range_iff _ shaped (1 / 2, 10) (1, 20) rfl rfl (3 / 4)
      (by norm_num)]
    exact Or.inl (by norm_num)
  · rw [genSize_in_range_iff _ shaped (1 / 2, 10) (1, 20) rfl rfl (1 / 10)
      (by norm_num)]
    decide +kernel

/-- A file with the one line `1000 1` leads to a division by zero. -/
theorem genSize_not_in_range :
    ¬ ∀ lines dist, loadDistFile lines = .ok dist → Shaped dist →
      ∀ first last, dist.head? = some first → dist.getLast? = some last →
        0 ≤ first.1 → ∀ x, 0 ≤ x → x < 1 →
          ∃ size, genSize dist x = .ok size ∧
            int first.2 ≤ size ∧ size ≤ int last.2 := by
  intro inRange
  have loaded :
      loadDistFile ["1000 1\n".toList] = .ok [(1, 1000)] := by
    decide +kernel
  have shaped : Shaped [(1, 1000)] :=
    { ascending := List.pairwise_singleton _ _
      nonnegative := by norm_num
      last := rfl }
  have failed :
      genSize [(1, 1000)] (1 / 2) = .error .zeroDivisionError := by
    decide +kernel
  rcases inRange _ _ loaded shaped (1, 1000) (1, 1000) rfl rfl (by norm_num)
      (1 / 2) (by norm_num) (by norm_num) with
    ⟨size, sized, _⟩
  rw [failed] at sized
  cases sized

end CodingExamples.TrafficTraceGen.GenSize
