import CodingExamples.Library.Interpolation

/-!
# The area under an interpolated table

The area under a function that does not descend is between the rectangles at
the two ends of each interval.  The mean of its values at equidistant points
therefore differs from the area by no more than the last step.

Under an interpolated table the area is made of trapezoids.
-/

namespace CodingExamples.Library.InterpolatedArea

open CodingExamples.Library.Interpolation

variable {K : Type*} [Field K] [LinearOrder K]

/-! ## Areas and means -/

/-- The area from one argument to another is between the two rectangles. -/
def Encloses (area value : K → K) (low high : K) : Prop :=
  ∀ x y, low ≤ x → x ≤ y → y ≤ high →
    (y - x) * value x ≤ area y - area x ∧
      area y - area x ≤ (y - x) * value y

/-- The mean of the values at equidistant points from 0 on. -/
def mean (value : K → K) (count : Nat) : K :=
  (∑ k ∈ Finset.range count, value (k / count)) / count

section Mean

variable [IsStrictOrderedRing K] {area value : K → K} {count : Nat}

/-- The two rectangles of one step. -/
theorem step_enclosed
    (encloses : Encloses area value 0 1) {k : Nat} (inside : k < count) :
    value (k / count) / count ≤
        area ((k + 1 : Nat) / count) - area (k / count) ∧
      area ((k + 1 : Nat) / count) - area (k / count) ≤
        value ((k + 1 : Nat) / count) / count := by
  have positive : (0 : K) < count := by
    exact_mod_cast Nat.zero_lt_of_lt inside
  have width : ((k + 1 : Nat) / count : K) - k / count = 1 / count := by
    rw [← sub_div, Nat.cast_succ, add_sub_cancel_left]
  have bounds :=
    encloses (k / count) ((k + 1 : Nat) / count) (by positivity)
      (by gcongr; omega)
      (by
        rw [div_le_one positive]
        exact_mod_cast inside)
  rwa [width, one_div_mul_eq_div, one_div_mul_eq_div] at bounds

/-- The steps add up to the area from 0 to 1. -/
theorem sum_steps (area : K → K) (positive : 0 < count) :
    ∑ k ∈ Finset.range count,
        (area ((k + 1 : Nat) / count) - area ((k : Nat) / count)) =
      area 1 - area 0 := by
  have nonzero : (count : K) ≠ 0 := by
    exact_mod_cast positive.ne'
  rw [Finset.sum_range_sub fun k => area ((k : Nat) / count),
    div_self nonzero, Nat.cast_zero, zero_div]

theorem mean_le_area
    (encloses : Encloses area value 0 1) (positive : 0 < count) :
    mean value count ≤ area 1 - area 0 := by
  rw [mean, Finset.sum_div, ← sum_steps area positive]
  apply Finset.sum_le_sum
  intro k member
  exact (step_enclosed encloses (Finset.mem_range.mp member)).1

theorem area_le_mean
    (encloses : Encloses area value 0 1) (positive : 0 < count) :
    area 1 - area 0 - (value 1 - value 0) / count ≤ mean value count := by
  have nonzero : (count : K) ≠ 0 := by
    exact_mod_cast positive.ne'
  have above :
      area 1 - area 0 ≤
        ∑ k ∈ Finset.range count, value ((k + 1 : Nat) / count) / count := by
    rw [← sum_steps area positive]
    apply Finset.sum_le_sum
    intro k member
    exact (step_enclosed encloses (Finset.mem_range.mp member)).2
  -- Both sums have the same terms but for the first and the last one.
  have shifted :
      ∑ k ∈ Finset.range count, value ((k + 1 : Nat) / count) / count =
        mean value count + (value 1 - value 0) / count := by
    have both :=
      Finset.sum_range_sub (fun k => value ((k : Nat) / count) / count) count
    rw [Finset.sum_sub_distrib, div_self nonzero, Nat.cast_zero, zero_div,
      ← sub_div] at both
    rw [mean, Finset.sum_div, ← both, add_sub_cancel]
  rw [shifted] at above
  linarith

end Mean

/-! ## Trapezoids -/

/-- The value of the table, from its first point on. -/
def interpolated (first : K × K) (rest : List (K × K)) (x : K) : K :=
  if first.1 < x then (scan first rest x).getD 0 else first.2

/-- The area from the first point to an argument. -/
def areaTo (first : K × K) : List (K × K) → K → K
  | [], _ => 0
  | point :: rest, x =>
      if x < point.1 then
        (x - first.1) * ((first.2 + line first point x) / 2)
      else
        (point.1 - first.1) * ((first.2 + point.2) / 2) + areaTo point rest x

/-- The area under the whole table. -/
def trapezoids (first : K × K) : List (K × K) → K
  | [] => 0
  | point :: rest =>
      (point.1 - first.1) * ((first.2 + point.2) / 2) + trapezoids point rest

section Scan

variable {first point : K × K} {rest : List (K × K)} {x : K}

/-- Behind the next point, the value is that of the other points. -/
theorem interpolated_of_point_lt
    (ascending : Ascending (first :: point :: rest)) (above : point.1 < x) :
    interpolated first (point :: rest) x = interpolated point rest x := by
  have order := (List.pairwise_cons.mp ascending).1 point List.mem_cons_self
  rw [interpolated, if_pos (order.1.trans_lt above), scan,
    if_neg above.not_gt, if_neg above.ne, interpolated, if_pos above]

theorem interpolated_point_le
    (ascending : Ascending (first :: point :: rest)) :
    interpolated first (point :: rest) point.1 ≤ point.2 := by
  have order := (List.pairwise_cons.mp ascending).1 point List.mem_cons_self
  rw [interpolated]
  split
  · rw [scan, if_neg (lt_irrefl _), if_pos rfl, Option.getD_some]
  · exact order.2

theorem areaTo_first (ascending : Ascending (first :: rest)) :
    areaTo first rest first.1 = 0 := by
  induction rest generalizing first with
  | nil => rfl
  | cons point rest ih =>
      rcases List.pairwise_cons.mp ascending with ⟨order, restAscending⟩
      rw [areaTo]
      rcases (order point List.mem_cons_self).1.eq_or_lt with equal | apart
      · rw [if_neg (not_lt.mpr equal.ge), ← equal, sub_self, zero_mul,
          zero_add, equal]
        exact ih restAscending
      · rw [if_pos apart, sub_self, zero_mul]

theorem areaTo_last (beyond : ∀ point ∈ rest, point.1 ≤ x) :
    areaTo first rest x = trapezoids first rest := by
  induction rest generalizing first with
  | nil => rfl
  | cons point rest ih =>
      rw [List.forall_mem_cons] at beyond
      rw [areaTo, if_neg (not_lt.mpr beyond.1), trapezoids, ih beyond.2]

end Scan

variable [IsStrictOrderedRing K]

section Line

variable {left right : K × K}

theorem line_left (apart : left.1 < right.1) :
    line left right left.1 = left.2 := by
  rw [line_eq_left (sub_pos.mpr apart).ne', sub_self, mul_zero, zero_div,
    add_zero]

theorem line_right (apart : left.1 < right.1) :
    line left right right.1 = right.2 := by
  rw [line_eq_right (sub_pos.mpr apart).ne', sub_self, mul_zero, zero_div,
    sub_zero]

/-- The area between two arguments on a line. -/
theorem line_area (apart : left.1 < right.1) (x y : K) :
    (y - left.1) * ((left.2 + line left right y) / 2) -
        (x - left.1) * ((left.2 + line left right x) / 2) =
      (y - x) * ((line left right x + line left right y) / 2) := by
  have nonzero : right.1 - left.1 ≠ 0 := (sub_pos.mpr apart).ne'
  rw [line_eq_left nonzero, line_eq_left nonzero]
  field_simp
  ring

end Line

section Table

variable {first point : K × K} {rest : List (K × K)} {x y : K}

/-- Up to the next point, the value is on the line. -/
theorem interpolated_of_lt
    (apart : first.1 ≤ x) (inside : x < point.1) :
    interpolated first (point :: rest) x = line first point x := by
  rw [interpolated]
  rcases apart.eq_or_lt with equal | above
  · rw [← equal] at inside ⊢
    rw [if_neg (lt_irrefl _), line_left inside]
  · rw [if_pos above, scan, if_pos inside, Option.getD_some]

/-- The area up to the next point, from an argument before it. -/
theorem areaTo_point_sub
    (ascending : Ascending (first :: point :: rest)) (above : first.1 ≤ x)
    (inside : x < point.1) :
    areaTo first (point :: rest) point.1 - areaTo first (point :: rest) x =
      (point.1 - x) * ((line first point x + point.2) / 2) := by
  have apart := above.trans_lt inside
  have piece := line_area apart x point.1
  rw [line_right apart] at piece
  rw [areaTo, areaTo, if_neg (lt_irrefl _), if_pos inside,
    areaTo_first (List.pairwise_cons.mp ascending).2, add_zero]
  exact piece

/-- Behind the next point only the other trapezoids matter. -/
theorem areaTo_sub_of_le
    (one : point.1 ≤ x) (other : point.1 ≤ y) :
    areaTo first (point :: rest) y - areaTo first (point :: rest) x =
      areaTo point rest y - areaTo point rest x := by
  rw [areaTo, areaTo, if_neg (not_lt.mpr one), if_neg (not_lt.mpr other)]
  ring

/-- The value at the next point is no higher than any value behind it. -/
theorem point_le_interpolated
    (ascending : Ascending (first :: point :: rest)) (order : point.1 ≤ y)
    (above : first.1 < y) (inside : ∃ last ∈ point :: rest, y ≤ last.1) :
    point.2 ≤ interpolated first (point :: rest) y := by
  rw [interpolated, if_pos above]
  rcases order.eq_or_lt with rfl | behind
  · rw [scan, if_neg (lt_irrefl _), if_pos rfl, Option.getD_some]
  · cases scanned : scan first (point :: rest) y with
    | some value =>
        rw [Option.getD_some]
        exact
          le_scan ascending above scanned
            (List.mem_cons_of_mem _ List.mem_cons_self) behind
    | none =>
        rcases inside with ⟨last, member, below⟩
        rw [scan_eq_none_iff] at scanned
        exact absurd below (scanned last member).not_ge

/-- An argument on the first line, and one behind the next point. -/
theorem enclosed_across
    (ascending : Ascending (first :: point :: rest)) (above : first.1 ≤ x)
    (inside : x < point.1) (behind : point.1 ≤ y)
    (upper : point.2 ≤ interpolated first (point :: rest) y)
    (enclosed :
      (y - point.1) * interpolated point rest point.1 ≤
          areaTo point rest y - areaTo point rest point.1 ∧
        areaTo point rest y - areaTo point rest point.1 ≤
          (y - point.1) * interpolated point rest y) :
    (y - x) * interpolated first (point :: rest) x ≤
        areaTo first (point :: rest) y - areaTo first (point :: rest) x ∧
      areaTo first (point :: rest) y - areaTo first (point :: rest) x ≤
        (y - x) * interpolated first (point :: rest) y := by
  have step := (List.pairwise_cons.mp ascending).1 point List.mem_cons_self
  have lower : line first point x ≤ point.2 :=
    line_le (above.trans_lt inside) step.2 inside.le
  have start : interpolated point rest point.1 = point.2 :=
    if_neg (lt_irrefl _)
  have same :
      (y - point.1) * interpolated first (point :: rest) y =
        (y - point.1) * interpolated point rest y := by
    rcases behind.eq_or_lt with rfl | behind
    · rw [sub_self, zero_mul, zero_mul]
    · rw [interpolated_of_point_lt ascending behind]
  have firstPart := areaTo_point_sub ascending above inside
  have secondPart :
      areaTo first (point :: rest) y - areaTo first (point :: rest) point.1 =
        areaTo point rest y - areaTo point rest point.1 :=
    areaTo_sub_of_le le_rfl behind
  rw [start, ← same] at enclosed
  rw [interpolated_of_lt above inside]
  have before : 0 ≤ (point.1 - x) * (point.2 - line first point x) :=
    mul_nonneg (sub_nonneg.mpr inside.le) (sub_nonneg.mpr lower)
  constructor
  · have after : 0 ≤ (y - point.1) * (point.2 - line first point x) :=
      mul_nonneg (sub_nonneg.mpr behind) (sub_nonneg.mpr lower)
    linarith
  · have after :
        0 ≤ (point.1 - x) *
          (interpolated first (point :: rest) y - point.2) :=
      mul_nonneg (sub_nonneg.mpr inside.le) (sub_nonneg.mpr upper)
    linarith

/-- Two arguments behind the next point. -/
theorem enclosed_behind
    (ascending : Ascending (first :: point :: rest)) (passed : point.1 ≤ x)
    (apart : x < y)
    (enclosed :
      (y - x) * interpolated point rest x ≤
          areaTo point rest y - areaTo point rest x ∧
        areaTo point rest y - areaTo point rest x ≤
          (y - x) * interpolated point rest y) :
    (y - x) * interpolated first (point :: rest) x ≤
        areaTo first (point :: rest) y - areaTo first (point :: rest) x ∧
      areaTo first (point :: rest) y - areaTo first (point :: rest) x ≤
        (y - x) * interpolated first (point :: rest) y := by
  have lower :
      interpolated first (point :: rest) x ≤ interpolated point rest x := by
    rcases passed.eq_or_lt with rfl | passed
    · have start : interpolated point rest point.1 = point.2 :=
        if_neg (lt_irrefl _)
      rw [start]
      exact interpolated_point_le ascending
    · exact (interpolated_of_point_lt ascending passed).le
  rw [areaTo_sub_of_le passed (passed.trans apart.le),
    interpolated_of_point_lt ascending (passed.trans_lt apart)]
  refine ⟨le_trans ?_ enclosed.1, enclosed.2⟩
  exact mul_le_mul_of_nonneg_left lower (sub_nonneg.mpr apart.le)

theorem areaTo_encloses
    (ascending : Ascending (first :: rest)) {last : K × K}
    (member : last ∈ first :: rest) :
    Encloses (areaTo first rest) (interpolated first rest) first.1 last.1 := by
  induction rest generalizing first with
  | nil =>
      cases List.mem_singleton.mp member
      intro x y above order below
      have same : y = x := le_antisymm (below.trans above) order
      rw [same, sub_self, sub_self, zero_mul]
      exact ⟨le_rfl, le_rfl⟩
  | cons point rest ih =>
      rcases List.pairwise_cons.mp ascending with ⟨fromFirst, restAscending⟩
      have step := fromFirst point List.mem_cons_self
      intro x y above order below
      by_cases equal : x = y
      · rw [equal, sub_self, sub_self, zero_mul]
        exact ⟨le_rfl, le_rfl⟩
      have apart : x < y := lt_of_le_of_ne order equal
      have ahead : first.1 < y := above.trans_lt apart
      have later : last ∈ point :: rest := by
        rcases List.mem_cons.mp member with rfl | later
        · exact absurd below ahead.not_ge
        · exact later
      rcases lt_or_ge y point.1 with inside | behind
      · -- Both arguments are on the first line.
        have run := above.trans_lt (apart.trans inside)
        have lines := line_monotone run step.2 order
        rw [interpolated_of_lt above (apart.trans inside),
          interpolated_of_lt ahead.le inside, areaTo, areaTo,
          if_pos inside, if_pos (apart.trans inside), line_area run]
        constructor <;> gcongr <;> linarith
      · have upper : point.2 ≤ interpolated first (point :: rest) y :=
          point_le_interpolated ascending behind ahead ⟨last, later, below⟩
        have rest := ih restAscending later
        rcases lt_or_ge x point.1 with inside | passed
        · exact
            enclosed_across ascending above inside behind upper
              (rest point.1 y le_rfl behind below)
        · exact
            enclosed_behind ascending passed apart
              (rest x y passed order below)

end Table

end CodingExamples.Library.InterpolatedArea
