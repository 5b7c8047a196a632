import CodingExamples.Re2Demo.Regexec

/-!
# The accesses of the wrapper

With room for at least one submatch, all accesses are inside of the two
arrays.  With less room the wrapper copies nothing, and then looks at the
submatch before the first one in order to decide whether the array ends with a
submatch that is not set.
-/

namespace CodingExamples.Re2Demo.Accesses

open CodingExamples.Library.Outcome
open CodingExamples.Re2Demo.Regexec

/--
For every array of the given size, all submatches that are read and all
entries that are written exist.
-/
def InBounds (found : Match) (ovecsize : Int) : Prop :=
  ∀ ovector : List Int, ovector.length = ovecsize →
    ∃ (rc : Int) (filled : List Int),
      mscRegexecEx (some found.submatches) ovector ovecsize =
        .value (rc, filled)

/-- Without room for a submatch, `submatches[-1]` is read. -/
theorem mscRegexecEx_of_lt_three
    (found : Match) (ovector : List Int) {ovecsize : Int}
    (nonnegative : 0 ≤ ovecsize) (small : ovecsize < 3) :
    mscRegexecEx (some found.submatches) ovector ovecsize =
      .fault .outsideSubmatches := by
  have room : ovecsize.tdiv 3 = 0 := by
    rw [Int.tdiv_eq_ediv_of_nonneg nonnegative]
    omega
  rcases lastNonemptySubmatch_eq (Nat.le_refl found.submatches.length)
      found.whole.lt_length found.whole with
    ⟨last, search, _⟩
  have nothing : (min (last + 1 : Int) 0).toNat = 0 := by
    omega
  have negative : load found.submatches (0 - 1) = .fault .outsideSubmatches :=
    if_pos (by decide)
  simp only [mscRegexecEx, search, value_bind, room, nothing, fill,
    pure_eq_value]
  rw [if_neg (by omega), negative]
  rfl

/--
For every match and every size, the accesses are inside of the arrays exactly
if there is room for one submatch.
-/
theorem inBounds_iff
    (found : Match) (ovecsize : Int) (nonnegative : 0 ≤ ovecsize) :
    InBounds found ovecsize ↔ 3 ≤ ovecsize := by
  constructor
  · intro inBounds
    by_contra small
    rcases inBounds (List.replicate ovecsize.toNat 0) (by simp; omega) with
      ⟨rc, filled, returned⟩
    rw [mscRegexecEx_of_lt_three found _ nonnegative (by omega)] at returned
    cases returned
  · intro capacity ovector length
    rcases exists_extracted found capacity (Int.le_of_eq length.symm) with
      ⟨last, size, filled, search, run, extracted⟩
    rcases exists_faithful found search run extracted with
      ⟨rc, returned, _⟩
    exact ⟨rc, filled, returned⟩

theorem inBounds_iff_gap : InBounds gap 3 ↔ 3 ≤ (3 : Int) :=
  inBounds_iff gap 3 (by decide)

/-- An array of two entries has no room for the matched text. -/
theorem not_inBounds :
    ¬ ∀ (found : Match) (ovecsize : Int), 0 ≤ ovecsize →
        InBounds found ovecsize := by
  intro always
  rcases always gap 2 (by decide) [0, 0] rfl with ⟨rc, filled, returned⟩
  have read :
      mscRegexecEx (some gap.submatches) [0, 0] 2 =
        .fault .outsideSubmatches := by
    decide
  rw [read] at returned
  cases returned

end CodingExamples.Re2Demo.Accesses
