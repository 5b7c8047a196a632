import Mathlib

/-!
# Interpolation in a sorted table

The line through two points is computed as a slope times the argument plus an
offset, both over the same difference.  A table of points is scanned for the
first one that is not below the argument: at such a point its own value is
taken, and below it the line from the point before.

If neither column of the table ever descends, the scanned value lies above
the values of all points below the argument and under those of all others,
and it does not descend either.
-/

namespace CodingExamples.Library.Interpolation

/-! ## The line through two points -/

section Line

variable {K : Type*} [Field K]

/-- The line through two points, as a slope and an offset. -/
def line (left right : K × K) (x : K) : K :=
  (right.2 - left.2) / (right.1 - left.1) * x +
    (right.1 * left.2 - left.1 * right.2) / (right.1 - left.1)

theorem line_eq_right
    {left right : K × K} (apart : right.1 - left.1 ≠ 0) (x : K) :
    line left right x =
      right.2 -
        (right.2 - left.2) * (right.1 - x) / (right.1 - left.1) := by
  rw [line, eq_sub_iff_add_eq, div_mul_eq_mul_div, ← add_div, ← add_div,
    div_eq_iff apart]
  ring

theorem line_eq_left
    {left right : K × K} (apart : right.1 - left.1 ≠ 0) (x : K) :
    line left right x =
      left.2 +
        (right.2 - left.2) * (x - left.1) / (right.1 - left.1) := by
  rw [line, div_mul_eq_mul_div, ← add_div, div_eq_iff apart, add_mul,
    div_mul_cancel₀ _ apart]
  ring

end Line

section Ordered

variable {K : Type*} [Field K] [LinearOrder K] [IsStrictOrderedRing K]
  {left right : K × K} {x : K}

theorem le_line
    (apart : left.1 < right.1) (ascending : left.2 ≤ right.2)
    (above : left.1 ≤ x) :
    left.2 ≤ line left right x := by
  have run : 0 < right.1 - left.1 := sub_pos.mpr apart
  have rise : 0 ≤ right.2 - left.2 := sub_nonneg.mpr ascending
  have ahead : 0 ≤ x - left.1 := sub_nonneg.mpr above
  rw [line_eq_left run.ne']
  exact le_add_of_nonneg_right (by positivity)

theorem line_le
    (apart : left.1 < right.1) (ascending : left.2 ≤ right.2)
    (below : x ≤ right.1) :
    line left right x ≤ right.2 := by
  have run : 0 < right.1 - left.1 := sub_pos.mpr apart
  have rise : 0 ≤ right.2 - left.2 := sub_nonneg.mpr ascending
  have behind : 0 ≤ right.1 - x := sub_nonneg.mpr below
  rw [line_eq_right run.ne']
  exact sub_le_self _ (by positivity)

theorem line_monotone
    (apart : left.1 < right.1) (ascending : left.2 ≤ right.2) :
    Monotone (line left right) := by
  intro x y below
  have run : 0 < right.1 - left.1 := sub_pos.mpr apart
  have rise : 0 ≤ right.2 - left.2 := sub_nonneg.mpr ascending
  rw [line, line]
  gcongr

end Ordered

/-! ## The scan -/

section Scan

variable {K : Type*} [Field K] [LinearOrder K]

/-- The value at the first point that is not below the argument. -/
def scan (previous : K × K) : List (K × K) → K → Option K
  | [], _ => none
  | point :: rest, x =>
      if x < point.1 then
        some (line previous point x)
      else if point.1 = x then
        some point.2
      else
        scan point rest x

/-- Neither column ever descends. -/
def Ascending (table : List (K × K)) : Prop :=
  table.Pairwise fun earlier later =>
    earlier.1 ≤ later.1 ∧ earlier.2 ≤ later.2

/-- Where the scan can stop at the first point, and where it goes on. -/
theorem scan_cons_eq_some_iff
    {previous point : K × K} {rest : List (K × K)} {x value : K} :
    scan previous (point :: rest) x = some value ↔
      (x < point.1 ∧ line previous point x = value) ∨
        (point.1 = x ∧ point.2 = value) ∨
          (point.1 < x ∧ scan point rest x = some value) := by
  rw [scan]
  rcases lt_trichotomy x point.1 with inside | equal | above
  · simp [inside, inside.ne', inside.not_gt]
  · simp [equal]
  · simp [above, above.ne, above.not_gt]

theorem scan_eq_none_iff (previous : K × K) (table : List (K × K)) (x : K) :
    scan previous table x = none ↔ ∀ point ∈ table, point.1 < x := by
  induction table generalizing previous with
  | nil => simp [scan]
  | cons point rest ih =>
      rw [scan, List.forall_mem_cons]
      by_cases below : x < point.1
      · simp [below, below.not_gt]
      · by_cases equal : point.1 = x
        · simp [equal]
        · have above : point.1 < x :=
            lt_of_le_of_ne (not_lt.mp below) equal
          simp [below, equal, above, ih]

/-- At a point of the table, the first such point gives the value. -/
theorem scan_of_find
    {previous : K × K} {table : List (K × K)} (ascending : Ascending table)
    {x : K} {point : K × K}
    (found : table.find? (fun point => decide (point.1 = x)) = some point) :
    scan previous table x = some point.2 := by
  induction table generalizing previous with
  | nil => simp at found
  | cons first rest ih =>
      rcases List.pairwise_cons.mp ascending with ⟨below, restAscending⟩
      by_cases equal : first.1 = x
      · have same : first = point := by
          simpa [equal] using found
        rw [scan, if_neg (not_lt.mpr equal.le), if_pos equal, same]
      · have later :
            rest.find? (fun point => decide (point.1 = x)) = some point := by
          simpa [equal] using found
        have reached : point.1 = x := by
          simpa using List.find?_some later
        have notBelow : ¬ x < first.1 := by
          rw [← reached]
          exact not_lt.mpr (below point (List.mem_of_find?_eq_some later)).1
        rw [scan, if_neg notBelow, if_neg equal]
        exact ih restAscending later

variable [IsStrictOrderedRing K]

/-- Behind a point below the argument, the value is no lower. -/
theorem previous_le_scan
    {previous : K × K} {table : List (K × K)} {x value : K}
    (ascending : Ascending (previous :: table)) (below : previous.1 < x)
    (scanned : scan previous table x = some value) :
    previous.2 ≤ value := by
  induction table generalizing previous with
  | nil => cases scanned
  | cons first rest ih =>
      rcases List.pairwise_cons.mp ascending with ⟨behind, restAscending⟩
      have step := behind first List.mem_cons_self
      rcases scan_cons_eq_some_iff.mp scanned with
        ⟨inside, rfl⟩ | ⟨_, rfl⟩ | ⟨above, scanned⟩
      · exact le_line (below.trans inside) step.2 below.le
      · exact step.2
      · exact step.2.trans (ih restAscending above scanned)

/-- The value is no lower than that of any point below the argument. -/
theorem le_scan
    {previous : K × K} {table : List (K × K)} {x value : K}
    (ascending : Ascending (previous :: table)) (below : previous.1 < x)
    (scanned : scan previous table x = some value)
    {point : K × K} (member : point ∈ previous :: table)
    (small : point.1 < x) :
    point.2 ≤ value := by
  induction table generalizing previous with
  | nil => cases scanned
  | cons first rest ih =>
      rcases List.mem_cons.mp member with rfl | member
      · exact previous_le_scan ascending below scanned
      · have restAscending := (List.pairwise_cons.mp ascending).2
        have start : first.1 ≤ point.1 := by
          rcases List.mem_cons.mp member with rfl | later
          · exact le_rfl
          · exact ((List.pairwise_cons.mp restAscending).1 point later).1
        rcases scan_cons_eq_some_iff.mp scanned with
          ⟨inside, _⟩ | ⟨equal, _⟩ | ⟨above, scanned⟩
        · exact absurd (start.trans_lt small) inside.not_gt
        · exact absurd (start.trans_lt small) equal.not_lt
        · exact ih restAscending above scanned member

/-- The value is no higher than that of any other point. -/
theorem scan_le
    {previous : K × K} {table : List (K × K)} {x value : K}
    (ascending : Ascending (previous :: table)) (below : previous.1 < x)
    (scanned : scan previous table x = some value)
    {point : K × K} (member : point ∈ table) (large : x ≤ point.1) :
    value ≤ point.2 := by
  induction table generalizing previous with
  | nil => cases scanned
  | cons first rest ih =>
      rcases List.pairwise_cons.mp ascending with ⟨behind, restAscending⟩
      have step := behind first List.mem_cons_self
      have onward : first.2 ≤ point.2 := by
        rcases List.mem_cons.mp member with rfl | later
        · exact le_rfl
        · exact ((List.pairwise_cons.mp restAscending).1 point later).2
      rcases scan_cons_eq_some_iff.mp scanned with
        ⟨inside, rfl⟩ | ⟨_, rfl⟩ | ⟨above, scanned⟩
      · exact (line_le (below.trans inside) step.2 inside.le).trans onward
      · exact onward
      · rcases List.mem_cons.mp member with rfl | later
        · exact absurd above large.not_gt
        · exact ih restAscending above scanned later

/-- The value does not descend. -/
theorem scan_monotone
    {previous : K × K} {table : List (K × K)} {x y value next : K}
    (ascending : Ascending (previous :: table)) (below : previous.1 < x)
    (order : x ≤ y)
    (scanned : scan previous table x = some value)
    (scannedNext : scan previous table y = some next) :
    value ≤ next := by
  induction table generalizing previous with
  | nil => cases scanned
  | cons first rest ih =>
      rcases List.pairwise_cons.mp ascending with ⟨behind, restAscending⟩
      have step := behind first List.mem_cons_self
      have member : first ∈ previous :: first :: rest := by
        simp
      rcases scan_cons_eq_some_iff.mp scannedNext with
        ⟨inside, rfl⟩ | ⟨equal, rfl⟩ | ⟨beyond, onward⟩
      · -- Both arguments are on the line to the first point.
        rcases scan_cons_eq_some_iff.mp scanned with
          ⟨started, rfl⟩ | ⟨reached, _⟩ | ⟨above, _⟩
        · exact line_monotone (below.trans started) step.2 order
        · exact absurd inside (reached ▸ order).not_gt
        · exact absurd inside (above.trans_le order).not_gt
      · exact
          scan_le ascending below scanned List.mem_cons_self
            (order.trans equal.ge)
      · rcases scan_cons_eq_some_iff.mp scanned with
          ⟨started, _⟩ | ⟨reached, rfl⟩ | ⟨above, scanned⟩
        · have upper :=
            scan_le ascending below scanned List.mem_cons_self started.le
          have lower :=
            le_scan ascending (below.trans_le order) scannedNext member
              beyond
          exact upper.trans lower
        · exact
            le_scan ascending (below.trans_le order) scannedNext member
              beyond
        · exact ih restAscending above scanned onward

end Scan

end CodingExamples.Library.Interpolation
