import CodingExamples.Library.Outcome
import Mathlib.Algebra.Ring.Nat
import Mathlib.Data.List.Basic

/-!
# The return code of the PCRE-style wrapper

`msc_regexec_ex` copies the submatches that RE2 has found into an array of
`int` and imitates the return code of PCRE.  The array takes `ovecsize / 3`
submatches; the code 0 says that a submatch which is set did not fit, and
`main` then shows as many submatches as there is room for.

RE2 itself is outside of this model.  A match is the array of submatches that
it has filled in, of which the first one is set.  Accesses outside of either
array are faults.
-/

namespace CodingExamples.Re2Demo.Regexec

open CodingExamples.Library
open CodingExamples.Library.Outcome

/-- A `StringPiece` with data: where it starts in the subject, and its length. -/
structure Piece where
  start : Nat
  length : Nat
deriving DecidableEq, Repr

/-- `submatches`; a piece whose `data()` is NULL is `none`. -/
abbrev Submatches := List (Option Piece)

/-- What can go wrong in the wrapper. -/
inductive Fault where
  | outsideSubmatches
  | outsideOvector
deriving DecidableEq, Repr

/-- The conversion of a wider number to `int`. -/
def toInt (number : Int) : Int :=
  number.bmod (2 ^ 32)

/-- `submatches[index]`. -/
def load (submatches : Submatches) (index : Int) :
    Outcome Fault (Option Piece) :=
  if index < 0 then
    .fault .outsideSubmatches
  else
    .ofOption .outsideSubmatches submatches[index.toNat]?

/-- `ovector[index] = value`. -/
def store (ovector : List Int) (index : Nat) (value : Int) :
    Outcome Fault (List Int) :=
  if index < ovector.length then
    .value (ovector.set index value)
  else
    .fault .outsideOvector

/-- The `while` loop for the last submatch that is set, below a bound. -/
def lastNonemptySubmatch (submatches : Submatches) :
    Nat → Outcome Fault Nat
  | 0 => .fault .outsideSubmatches
  | index + 1 => do
      let submatch ← load submatches index
      if submatch.isSome then
        pure index
      else
        lastNonemptySubmatch submatches index

/-- The body of the loop that fills the array. -/
def fillEntry (submatches : Submatches) (i : Nat) (ovector : List Int) :
    Outcome Fault (List Int) := do
  match ← load submatches i with
  | none =>
      let ovector ← store ovector (2 * i) (-1)
      store ovector (2 * i + 1) (-1)
  | some piece =>
      let low := toInt piece.start
      let ovector ← store ovector (2 * i) low
      store ovector (2 * i + 1) (toInt (low + piece.length))

/-- The loop that fills the array, with some passes left to do. -/
def fill (submatches : Submatches) :
    Nat → Nat → List Int → Outcome Fault (List Int)
  | 0, _, ovector => pure ovector
  | passes + 1, i, ovector => do
      let ovector ← fillEntry submatches i ovector
      fill submatches passes (i + 1) ovector

/-- The loop over `i` down to 0 that truncates the tail; 0 if it finds nothing. -/
def truncateTail (submatches : Submatches) : Nat → Outcome Fault Int
  | 0 => pure 0
  | i + 1 => do
      let submatch ← load submatches i
      if submatch.isSome then
        pure (i + 1)
      else
        truncateTail submatches i

/--
`msc_regexec_ex(re, s, slen, startoffset, ovector, ovecsize)`: the return code
and the array.  `found` is what `re.Match` has stored if it returns true.
-/
def mscRegexecEx (found : Option Submatches) (ovector : List Int)
    (ovecsize : Int) : Outcome Fault (Int × List Int) :=
  match found with
  | none => pure (-1, ovector)
  | some submatches => do
      let last ← lastNonemptySubmatch submatches submatches.length
      let room := ovecsize.tdiv 3
      let count := min (last + 1 : Int) room
      let ovector ← fill submatches count.toNat 0 ovector
      if (last + 1 : Int) ≤ room then
        pure (last + 1, ovector)
      else
        let submatch ← load submatches (room - 1)
        if submatch.isNone then
          let rc ← truncateTail submatches (room - 1).toNat
          pure (rc, ovector)
        else
          pure (0, ovector)

/-- The number of submatches that `main` shows for a return code. -/
def shown (rc ovecsize : Int) : Int :=
  if rc = 0 then ovecsize.tdiv 3 else rc

/-! ## Matches -/

/-- The submatch at an index is set. -/
def IsSet (submatches : Submatches) (index : Nat) : Prop :=
  ∃ piece, submatches[index]? = some (some piece)

/-- A match of RE2: the first submatch is the matched text. -/
structure Match where
  submatches : Submatches
  whole : IsSet submatches 0

/-- Two entries of the array say where a submatch is. -/
def Reported (submatch : Option Piece) (low high : Int) : Prop :=
  match submatch with
  | none => low = -1 ∧ high = -1
  | some piece =>
      low = toInt piece.start ∧ high = toInt (piece.start + piece.length)

/-- The offsets that fit into an `int` are stored as they are. -/
theorem toInt_eq {offset : Nat} (fits : offset < 2 ^ 31) :
    toInt offset = offset := by
  rw [toInt]
  exact Int.bmod_eq_of_le (by omega) (by omega)

/-- Adding to a number that was converted already. -/
theorem toInt_toInt_add (left right : Int) :
    toInt (toInt left + right) = toInt (left + right) :=
  Int.bmod_add_bmod

theorem load_eq (submatches : Submatches) {index : Nat}
    (inside : index < submatches.length) :
    load submatches index = .value submatches[index] := by
  rw [load, if_neg (by omega), Int.toNat_natCast,
    List.getElem?_eq_getElem inside]
  rfl

theorem isSet_iff {submatches : Submatches} {index : Nat}
    (inside : index < submatches.length) :
    IsSet submatches index ↔ submatches[index].isSome = true := by
  rw [IsSet, List.getElem?_eq_getElem inside, Option.isSome_iff_exists]
  simp

theorem IsSet.lt_length {submatches : Submatches} {index : Nat}
    (set : IsSet submatches index) : index < submatches.length := by
  rcases set with ⟨piece, read⟩
  exact (List.getElem?_eq_some_iff.mp read).1

/-! ## The loops -/

/-- The `while` loop finds the last submatch that is set. -/
theorem lastNonemptySubmatch_eq
    {submatches : Submatches} {bound : Nat}
    (inside : bound ≤ submatches.length)
    {index : Nat} (below : index < bound) (set : IsSet submatches index) :
    ∃ last,
      lastNonemptySubmatch submatches bound = .value last ∧
        last < bound ∧
        IsSet submatches last ∧
        ∀ later, last < later → later < bound → ¬ IsSet submatches later := by
  induction bound with
  | zero => omega
  | succ bound ih =>
      have here : bound < submatches.length := inside
      rw [lastNonemptySubmatch, load_eq submatches here, value_bind]
      by_cases setHere : IsSet submatches bound
      · refine ⟨bound, ?_, Nat.lt_succ_self bound, setHere, ?_⟩
        · rw [if_pos ((isSet_iff here).mp setHere)]
          rfl
        · intro later after before
          omega
      · have earlier : index < bound := by
          rcases Nat.lt_succ_iff_lt_or_eq.mp below with earlier | equal
          · exact earlier
          · exact absurd (equal ▸ set) setHere
        rcases ih (Nat.le_of_succ_le inside) earlier with
          ⟨last, found, before, setLast, unset⟩
        refine ⟨last, ?_, Nat.lt_succ_of_lt before, setLast, ?_⟩
        · rw [if_neg (fun isSome => setHere ((isSet_iff here).mpr isSome))]
          exact found
        · intro later after laterBelow
          rcases Nat.lt_succ_iff_lt_or_eq.mp laterBelow with below | equal
          · exact unset later after below
          · rw [equal]
            exact setHere

/-- The loop that truncates the tail looks for the same submatch. -/
theorem truncateTail_eq
    {submatches : Submatches} {bound last : Nat}
    (found : lastNonemptySubmatch submatches bound = .value last) :
    truncateTail submatches bound = .value (last + 1 : Int) := by
  induction bound with
  | zero => cases found
  | succ bound ih =>
      rw [lastNonemptySubmatch, bind_eq_value_iff] at found
      rcases found with ⟨submatch, read, found⟩
      rw [truncateTail, read, value_bind]
      split at found
      · case isTrue isSome =>
          cases found
          rw [if_pos isSome]
          rfl
      · case isFalse isNone =>
          rw [if_neg isNone]
          exact ih found

theorem store_eq
    {ovector : List Int} {index : Nat} (inside : index < ovector.length)
    (value : Int) :
    store ovector index value = .value (ovector.set index value) :=
  if_pos inside

/-- The two entries of a submatch in the array say where it is. -/
def EntryReported (submatches : Submatches) (ovector : List Int)
    (index : Nat) : Prop :=
  ∃ submatch low high,
    submatches[index]? = some submatch ∧
      ovector[2 * index]? = some low ∧
      ovector[2 * index + 1]? = some high ∧
      Reported submatch low high

/-- One pass of the loop stores the two entries of one submatch. -/
theorem fillEntry_eq
    {submatches : Submatches} {index : Nat} {ovector : List Int}
    (inside : index < submatches.length)
    (room : 2 * index + 1 < ovector.length) :
    ∃ low high,
      fillEntry submatches index ovector =
          .value ((ovector.set (2 * index) low).set (2 * index + 1) high) ∧
        Reported submatches[index] low high := by
  rw [fillEntry, load_eq submatches inside, value_bind]
  cases submatches[index] with
  | none =>
      refine ⟨-1, -1, ?_, rfl, rfl⟩
      show (store ovector (2 * index) (-1) >>= _) = _
      rw [store_eq (by omega), value_bind, store_eq]
      rwa [List.length_set]
  | some piece =>
      refine ⟨_, _, ?_, rfl, rfl⟩
      show (store ovector (2 * index) (toInt piece.start) >>= _) = _
      rw [store_eq (by omega), value_bind, store_eq, toInt_toInt_add]
      rwa [List.length_set]

theorem EntryReported.set
    {submatches : Submatches} {ovector : List Int} {index : Nat}
    (reported : EntryReported submatches ovector index)
    {position : Nat} (later : 2 * index + 1 < position) (value : Int) :
    EntryReported submatches (ovector.set position value) index := by
  rcases reported with ⟨submatch, low, high, read, first, second, reported⟩
  refine ⟨submatch, low, high, read, ?_, ?_, reported⟩
  · rwa [List.getElem?_set_ne (by omega)]
  · rwa [List.getElem?_set_ne (by omega)]

/-- A pass adds one more submatch to those that are reported. -/
theorem entryReported_of_pass
    {submatches : Submatches} {index : Nat} {ovector : List Int}
    {low high : Int} (inside : index < submatches.length)
    (room : 2 * index + 1 < ovector.length)
    (here : Reported submatches[index] low high)
    (earlier : ∀ before < index, EntryReported submatches ovector before) :
    ∀ before < index + 1,
      EntryReported submatches
        ((ovector.set (2 * index) low).set (2 * index + 1) high) before := by
  intro before below
  rcases Nat.lt_succ_iff_lt_or_eq.mp below with before | equal
  · exact ((earlier _ before).set (by omega) low).set (by omega) high
  · subst equal
    refine
      ⟨submatches[before], low, high, List.getElem?_eq_getElem inside, ?_, ?_,
        here⟩
    · rw [List.getElem?_set_ne (by omega), List.getElem?_set_self (by omega)]
    · rw [List.getElem?_set_self]
      rwa [List.length_set]

/-- The loop reports every submatch that it passes. -/
theorem fill_eq
    (submatches : Submatches) (passes index : Nat) (ovector : List Int)
    (inside : index + passes ≤ submatches.length)
    (room : 2 * (index + passes) ≤ ovector.length)
    (earlier : ∀ before < index, EntryReported submatches ovector before) :
    ∃ filled,
      fill submatches passes index ovector = .value filled ∧
        filled.length = ovector.length ∧
        ∀ before < index + passes,
          EntryReported submatches filled before := by
  induction passes generalizing index ovector with
  | zero => exact ⟨ovector, rfl, rfl, earlier⟩
  | succ passes ih =>
      have here : index < submatches.length := by
        omega
      have roomHere : 2 * index + 1 < ovector.length := by
        omega
      rcases fillEntry_eq here roomHere with ⟨low, high, stored, reported⟩
      rw [fill, stored, value_bind]
      rcases ih (index + 1) _ (by omega)
          (by simp only [List.length_set]; omega)
          (entryReported_of_pass here roomHere reported earlier) with
        ⟨filled, run, length, all⟩
      refine ⟨filled, run, ?_, ?_⟩
      · rw [length, List.length_set, List.length_set]
      · intro before below
        exact all before (by omega)

/-- A submatch that ends below the bounds of `int` is reported exactly. -/
theorem EntryReported.inRange
    {submatches : Submatches} {ovector : List Int} {index : Nat}
    (reported : EntryReported submatches ovector index) {piece : Piece}
    (read : submatches[index]? = some (some piece))
    (fits : piece.start + piece.length < 2 ^ 31) :
    ovector[2 * index]? = some (piece.start : Int) ∧
      ovector[2 * index + 1]? = some (piece.start + piece.length : Int) := by
  rcases reported with ⟨submatch, low, high, same, first, second, values⟩
  rw [read] at same
  cases same
  simp only [Reported] at values
  have startFits : piece.start < 2 ^ 31 :=
    Nat.lt_of_le_of_lt (Nat.le_add_right _ _) fits
  constructor
  · rw [first, values.1, toInt_eq startFits]
  · rw [second, values.2, ← Int.natCast_add, toInt_eq fits]

/-! ## The return code -/

/--
The number of submatches that `main` shows is what PCRE would have it be, and
the array reports all of them.
-/
structure Faithful (submatches : Submatches) (ovecsize rc : Int)
    (ovector : List Int) (room count : Nat) : Prop where
  capacity : ovecsize.tdiv 3 = room
  shows : shown rc ovecsize = count
  positive : 1 ≤ count
  bounded : count ≤ room
  reported : ∀ index < count, EntryReported submatches ovector index
  inRange :
    ∀ index < count, ∀ piece, submatches[index]? = some (some piece) →
      piece.start + piece.length < 2 ^ 31 →
        ovector[2 * index]? = some (piece.start : Int) ∧
          ovector[2 * index + 1]? = some (piece.start + piece.length : Int)
  lastSet : IsSet submatches (count - 1)
  complete :
    ∀ index < room, IsSet submatches index → index < count
  zero_iff :
    rc = 0 ↔
      IsSet submatches (room - 1) ∧
        ∃ index, room ≤ index ∧ IsSet submatches index

/-- What the wrapper knows when both of its first loops have ended. -/
structure Extracted (submatches : Submatches) (ovecsize : Int)
    (ovector : List Int) (room last : Nat) : Prop where
  capacity : ovecsize.tdiv 3 = room
  positive : 1 ≤ room
  setLast : IsSet submatches last
  le_last : ∀ index, IsSet submatches index → index ≤ last
  reported :
    ∀ index < min (last + 1) room, EntryReported submatches ovector index

section ReturnCode

variable {submatches : Submatches} {ovecsize : Int} {ovector : List Int}
  {room last : Nat}

/-- Everything up to the last submatch that is set has room. -/
theorem Extracted.faithful_of_fits
    (extracted : Extracted submatches ovecsize ovector room last)
    (fits : last + 1 ≤ room) :
    Faithful submatches ovecsize (last + 1) ovector room (last + 1) := by
  have reported (index : Nat) (below : index < last + 1) :
      EntryReported submatches ovector index :=
    extracted.reported index (by omega)
  exact
    { capacity := extracted.capacity
      shows := by rw [shown, if_neg (by omega)]; omega
      positive := by omega
      bounded := fits
      reported
      inRange := fun index below _ => (reported index below).inRange
      lastSet := extracted.setLast
      complete := fun index _ set =>
        Nat.lt_succ_of_le (extracted.le_last index set)
      zero_iff := by
        constructor
        · intro zero
          omega
        · rintro ⟨_, index, outside, set⟩
          have := extracted.le_last index set
          omega }

/-- The array is full, and its last submatch is set. -/
theorem Extracted.faithful_of_full
    (extracted : Extracted submatches ovecsize ovector room last)
    (overflows : room ≤ last) (setBoundary : IsSet submatches (room - 1)) :
    Faithful submatches ovecsize 0 ovector room room := by
  have reported (index : Nat) (below : index < room) :
      EntryReported submatches ovector index :=
    extracted.reported index (by omega)
  exact
    { capacity := extracted.capacity
      shows := by rw [shown, if_pos rfl, extracted.capacity]
      positive := extracted.positive
      bounded := Nat.le_refl room
      reported
      inRange := fun index below _ => (reported index below).inRange
      lastSet := setBoundary
      complete := fun index below _ => below
      zero_iff := by
        constructor
        · intro _
          exact ⟨setBoundary, last, overflows, extracted.setLast⟩
        · intro _
          rfl }

/-- The array ends with submatches that are not set. -/
theorem Extracted.faithful_of_truncated
    (extracted : Extracted submatches ovecsize ovector room last)
    (overflows : room ≤ last)
    (unsetBoundary : ¬ IsSet submatches (room - 1))
    {tail : Nat} (below : tail < room - 1) (setTail : IsSet submatches tail)
    (unset :
      ∀ later, tail < later → later < room - 1 → ¬ IsSet submatches later) :
    Faithful submatches ovecsize (tail + 1) ovector room (tail + 1) := by
  have reported (index : Nat) (before : index < tail + 1) :
      EntryReported submatches ovector index :=
    extracted.reported index (by omega)
  exact
    { capacity := extracted.capacity
      shows := by rw [shown, if_neg (by omega)]; omega
      positive := by omega
      bounded := by omega
      reported
      inRange := fun index below _ => (reported index below).inRange
      lastSet := setTail
      complete := by
        intro index inside set
        by_contra after
        rcases Nat.lt_or_ge index (room - 1) with before | atBoundary
        · exact unset index (by omega) before set
        · have equal : index = room - 1 := by
            omega
          exact unsetBoundary (equal ▸ set)
      zero_iff := by
        constructor
        · intro zero
          omega
        · rintro ⟨set, _⟩
          exact absurd set unsetBoundary }

end ReturnCode

/-- The two first loops of the wrapper. -/
theorem exists_extracted
    (found : Match) {ovector : List Int} {ovecsize : Int}
    (capacity : 3 ≤ ovecsize) (room : ovecsize ≤ ovector.length) :
    ∃ (last size : Nat) (filled : List Int),
      lastNonemptySubmatch found.submatches found.submatches.length =
          .value last ∧
        fill found.submatches (min (last + 1 : Int) size).toNat 0 ovector =
          .value filled ∧
        Extracted found.submatches ovecsize filled size last := by
  obtain ⟨size, sizeEq⟩ : ∃ size : Nat, ovecsize.tdiv 3 = size := by
    rw [Int.tdiv_eq_ediv_of_nonneg (by omega)]
    exact ⟨(ovecsize / 3).toNat, by omega⟩
  have sizeBounds : 1 ≤ size ∧ 2 * size ≤ ovector.length := by
    rw [Int.tdiv_eq_ediv_of_nonneg (by omega)] at sizeEq
    omega
  rcases lastNonemptySubmatch_eq (Nat.le_refl found.submatches.length)
      found.whole.lt_length found.whole with
    ⟨last, search, inside, setLast, unset⟩
  have passes : (min (last + 1 : Int) size).toNat = min (last + 1) size := by
    omega
  rcases fill_eq found.submatches (min (last + 1) size) 0 ovector (by omega)
      (by omega) (by intro before below; omega) with
    ⟨filled, run, length, reported⟩
  refine ⟨last, size, filled, search, ?_, ?_⟩
  · rw [passes]
    exact run
  · exact
      { capacity := sizeEq
        positive := sizeBounds.1
        setLast
        le_last := by
          intro index set
          by_contra after
          exact unset index (Nat.lt_of_not_le after) set.lt_length set
        reported := fun index below => reported index (by omega) }

/-- The code that is returned after the two first loops. -/
theorem exists_faithful
    (found : Match) {ovector : List Int} {ovecsize : Int}
    {last size : Nat} {filled : List Int}
    (search :
      lastNonemptySubmatch found.submatches found.submatches.length =
        .value last)
    (run :
      fill found.submatches (min (last + 1 : Int) size).toNat 0 ovector =
        .value filled)
    (extracted : Extracted found.submatches ovecsize filled size last) :
    ∃ rc : Int,
      mscRegexecEx (some found.submatches) ovector ovecsize =
          .value (rc, filled) ∧
        ∃ count, Faithful found.submatches ovecsize rc filled size count := by
  have start :
      mscRegexecEx (some found.submatches) ovector ovecsize =
        (if (last + 1 : Int) ≤ size then
          pure ((last + 1 : Int), filled)
        else do
          let submatch ← load found.submatches (size - 1)
          if submatch.isNone then
            let rc ←
              truncateTail found.submatches (size - 1 : Int).toNat
            pure (rc, filled)
          else
            pure (0, filled)) := by
    simp only [mscRegexecEx, search, value_bind, extracted.capacity, run]
  by_cases fits : last + 1 ≤ size
  · refine ⟨last + 1, ?_, last + 1,
      extracted.faithful_of_fits fits⟩
    rw [start, if_pos (by omega)]
    rfl
  have overflows : size ≤ last := by
    omega
  have boundary : size - 1 < found.submatches.length := by
    have := extracted.setLast.lt_length
    omega
  have behind : (size : Int) - 1 = (size - 1 : Nat) := by
    have := extracted.positive
    omega
  rw [if_neg (by omega), behind, load_eq _ boundary, value_bind,
    Int.toNat_natCast] at start
  by_cases setBoundary : IsSet found.submatches (size - 1)
  · refine ⟨0, ?_, size,
      extracted.faithful_of_full overflows setBoundary⟩
    have isSome := (isSet_iff boundary).mp setBoundary
    rw [start, if_neg]
    · rfl
    · rw [Option.isNone_iff_eq_none]
      exact Option.isSome_iff_ne_none.mp isSome
  · have wholeBelow : 0 < size - 1 := by
      by_contra first
      have zero : size - 1 = 0 := by
        omega
      exact setBoundary (zero ▸ found.whole)
    rcases lastNonemptySubmatch_eq (Nat.le_of_lt boundary) wholeBelow
        found.whole with
      ⟨tail, tailSearch, below, setTail, unset⟩
    refine ⟨tail + 1, ?_, tail + 1,
      extracted.faithful_of_truncated overflows setBoundary below setTail
        unset⟩
    rw [start, if_pos, truncateTail_eq tailSearch]
    · rfl
    · rw [Option.isNone_iff_eq_none, ← Option.not_isSome_iff_eq_none]
      exact fun isSome => setBoundary ((isSet_iff boundary).mpr isSome)

/--
For every match and every array of at least three entries, the wrapper returns
a code and an array that report the match faithfully.
-/
theorem mscRegexecEx_faithful
    (found : Match) (ovector : List Int) (ovecsize : Int)
    (capacity : 3 ≤ ovecsize) (room : ovecsize ≤ ovector.length) :
    ∃ (rc : Int) (filled : List Int),
      mscRegexecEx (some found.submatches) ovector ovecsize =
          .value (rc, filled) ∧
        ∃ size count,
          Faithful found.submatches ovecsize rc filled size count := by
  rcases exists_extracted found capacity room with
    ⟨last, size, filled, search, run, extracted⟩
  rcases exists_faithful found search run extracted with
    ⟨rc, returned, count, faithful⟩
  exact ⟨rc, filled, returned, size, count, faithful⟩

/-! ## A match with a gap -/

/-- The second of three submatches is not set. -/
def gap : Match where
  submatches := [some ⟨4, 3⟩, none, some ⟨5, 1⟩]
  whole := ⟨_, rfl⟩

/-- With room for two submatches, only the first one is shown. -/
example :
    mscRegexecEx (some gap.submatches) (List.replicate 6 0) 6 =
      .value (1, [4, 7, -1, -1, 0, 0]) := by
  decide

theorem mscRegexecEx_faithful_gap :
    ∃ (rc : Int) (filled : List Int),
      mscRegexecEx (some gap.submatches) (List.replicate 6 0) 6 =
          .value (rc, filled) ∧
        ∃ size count,
          Faithful gap.submatches 6 rc filled size count :=
  mscRegexecEx_faithful gap (List.replicate 6 0) 6 (by decide) (by decide)

end CodingExamples.Re2Demo.Regexec
