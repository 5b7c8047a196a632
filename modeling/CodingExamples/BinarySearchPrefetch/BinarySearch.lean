import CodingExamples.Library.Outcome
import Mathlib.Data.List.Chain

/-!
# Binary search with prefetching

The two programs that are built from the file differ in whether an iteration
prefetches the two elements that the next one can look at.  An iteration is
recorded with the indices that it computes.  An `int` that does not fit, and
an index that is not in the array, is a fault.
-/

namespace CodingExamples.BinarySearchPrefetch.BinarySearch

open CodingExamples.Library
open CodingExamples.Library.Outcome

inductive Fault where
  | overflow
  | outOfBounds
deriving DecidableEq, Repr

/-- `INT_MAX`. -/
def intMax : Int := 0x7fffffff

/-- The value of an expression of type `int`. -/
def int (value : Int) : Outcome Fault Int :=
  if -intMax - 1 ≤ value ∧ value ≤ intMax then
    .value value
  else
    .fault .overflow

/-- `array[index]`. -/
def read (array : List Int) (index : Int) : Outcome Fault Int :=
  if 0 ≤ index then
    .ofOption .outOfBounds array[index.toNat]?
  else
    .fault .outOfBounds

/-- `start` and `end`. -/
structure Vars where
  first : Int
  last : Int
deriving DecidableEq, Repr

/-- Which branch is taken at the end of an iteration. -/
inductive Direction where
  | found
  | up
  | down
deriving DecidableEq, Repr

/-- `mid`, the indices that are prefetched, and the branch. -/
structure Iteration where
  mid : Int
  prefetched : Option (Int × Int)
  direction : Direction
deriving DecidableEq, Repr

/-- `mid = start + (end - start) / 2`. -/
def middle (vars : Vars) : Outcome Fault Int := do
  let distance ← int (vars.last - vars.first)
  int (vars.first + distance.tdiv 2)

/-- The indices of the low path and of the high path. -/
def prefetch (vars : Vars) (mid : Int) : Outcome Fault (Int × Int) := do
  let next ← int (mid + 1)
  let above ← int (vars.last - mid)
  let above ← int (above - 1)
  let low ← int (next + above.tdiv 2)
  let below ← int (mid - vars.first)
  let below ← int (below - 1)
  let high ← int (vars.first + below.tdiv 2)
  return (low, high)

/-- `#ifdef DO_PREFETCH`. -/
def doPrefetch (enabled : Bool) (vars : Vars) (mid : Int) :
    Outcome Fault (Option (Int × Int)) :=
  if enabled then do
    let indices ← prefetch vars mid
    return some indices
  else
    return none

/-- The body of the loop, with the variables after it. -/
def body (enabled : Bool) (array : List Int) (target : Int) (vars : Vars) :
    Outcome Fault (Iteration × Vars) := do
  let mid ← middle vars
  let prefetched ← doPrefetch enabled vars mid
  let value ← read array mid
  if value = target then
    return (⟨mid, prefetched, .found⟩, vars)
  else if value < target then
    let first ← int (mid + 1)
    return (⟨mid, prefetched, .up⟩, { vars with first := first })
  else
    let last ← int (mid - 1)
    return (⟨mid, prefetched, .down⟩, { vars with last := last })

/-- The loop, with the iterations that it makes. -/
def loop (enabled : Bool) (array : List Int) (target : Int) :
    Nat → Vars → Outcome Fault (Int × List Iteration)
  | 0, _ => .timeout
  | fuel + 1, vars =>
      if vars.first ≤ vars.last then do
        let (iteration, next) ← body enabled array target vars
        if iteration.direction = .found then
          return (iteration.mid, [iteration])
        else
          let (result, rest) ← loop enabled array target fuel next
          return (result, iteration :: rest)
      else
        return (-1, [])

/-- `binary_search(array, len, target)`. -/
def binarySearch (enabled : Bool) (array : List Int) (len target : Int)
    (fuel : Nat) : Outcome Fault (Int × List Iteration) := do
  let last ← int (len - 1)
  loop enabled array target fuel ⟨0, last⟩

/-! ## One iteration -/

/-- The interval of indices is inside the array, and may be empty. -/
structure Bounded (len : Int) (vars : Vars) : Prop where
  first : 0 ≤ vars.first
  ordered : vars.first ≤ vars.last + 1
  last : vars.last < len

def Vars.mid (vars : Vars) : Int :=
  vars.first + (vars.last - vars.first).tdiv 2

/-- The index of the low path. -/
def Vars.low (vars : Vars) : Int :=
  vars.mid + 1 + (vars.last - vars.mid - 1).tdiv 2

/-- The index of the high path. -/
def Vars.high (vars : Vars) : Int :=
  vars.first + (vars.mid - vars.first - 1).tdiv 2

/-- The variables behind an iteration that goes up. -/
def Vars.up (vars : Vars) : Vars :=
  { vars with first := vars.mid + 1 }

/-- The variables behind an iteration that goes down. -/
def Vars.down (vars : Vars) : Vars :=
  { vars with last := vars.mid - 1 }

def Vars.prefetched (enabled : Bool) (vars : Vars) : Option (Int × Int) :=
  if enabled then some (vars.low, vars.high) else none

/-- The number of indices that are left. -/
def Vars.size (vars : Vars) : Nat :=
  (vars.last + 1 - vars.first).toNat

section Vars

variable {vars : Vars} {len : Int}

/-- C divides -1 by 2 to 0, as it divides 0 and 1. -/
theorem tdiv_two_bounds (distance : Int) (least : -1 ≤ distance) :
    0 ≤ distance.tdiv 2 ∧ 2 * distance.tdiv 2 ≤ distance + 1 ∧
      distance ≤ 2 * distance.tdiv 2 + 1 := by
  rcases Int.lt_or_eq_of_le least with more | rfl
  · rw [Int.tdiv_eq_ediv_of_nonneg (by omega)]
    omega
  · decide

/-- Behind a distance that is not negative. -/
theorem tdiv_two_le (distance : Int) (nonneg : 0 ≤ distance) :
    2 * distance.tdiv 2 ≤ distance := by
  rw [Int.tdiv_eq_ediv_of_nonneg nonneg]
  omega

theorem Vars.mid_bounds (before : vars.first ≤ vars.last) :
    vars.first ≤ vars.mid ∧ vars.mid ≤ vars.last := by
  have bounds :=
    tdiv_two_bounds (vars.last - vars.first) (by omega)
  have half := tdiv_two_le (vars.last - vars.first) (by omega)
  rw [Vars.mid]
  omega

/-- The index of the low path can be the one behind the interval. -/
theorem Vars.low_bounds (before : vars.first ≤ vars.last) :
    vars.mid < vars.low ∧ vars.low ≤ vars.last + 1 := by
  have mid := vars.mid_bounds before
  have bounds :=
    tdiv_two_bounds (vars.last - vars.mid - 1) (by omega)
  rw [Vars.low]
  omega

theorem Vars.high_bounds (before : vars.first ≤ vars.last) :
    vars.first ≤ vars.high ∧ vars.high ≤ vars.mid := by
  have mid := vars.mid_bounds before
  have bounds :=
    tdiv_two_bounds (vars.mid - vars.first - 1) (by omega)
  rw [Vars.high]
  omega

/-- The low path is the middle of the interval above. -/
theorem Vars.mid_up (vars : Vars) : vars.up.mid = vars.low := by
  rw [Vars.mid, Vars.up, Vars.low, Int.sub_sub]

/-- The high path is the middle of the interval below. -/
theorem Vars.mid_down (vars : Vars) : vars.down.mid = vars.high := by
  have distance :
      vars.mid - 1 - vars.first = vars.mid - vars.first - 1 := by
    omega
  rw [Vars.mid, Vars.down, Vars.high, distance]

theorem Bounded.up
    (bounded : Bounded len vars) (before : vars.first ≤ vars.last) :
    Bounded len vars.up := by
  have mid := vars.mid_bounds before
  have first := bounded.first
  constructor
  · show 0 ≤ vars.mid + 1
    omega
  · show vars.mid + 1 ≤ vars.last + 1
    omega
  · exact bounded.last

theorem Bounded.down
    (bounded : Bounded len vars) (before : vars.first ≤ vars.last) :
    Bounded len vars.down := by
  have mid := vars.mid_bounds before
  have last := bounded.last
  constructor
  · exact bounded.first
  · show vars.first ≤ vars.mid - 1 + 1
    omega
  · show vars.mid - 1 < len
    omega

theorem Vars.size_up_lt (before : vars.first ≤ vars.last) :
    vars.up.size < vars.size := by
  have mid := vars.mid_bounds before
  show
    (vars.last + 1 - (vars.mid + 1)).toNat <
      (vars.last + 1 - vars.first).toNat
  omega

theorem Vars.size_down_lt (before : vars.first ≤ vars.last) :
    vars.down.size < vars.size := by
  have mid := vars.mid_bounds before
  show
    (vars.mid - 1 + 1 - vars.first).toNat <
      (vars.last + 1 - vars.first).toNat
  omega

end Vars

section Body

variable {vars : Vars} {len : Int}

theorem int_eq (value : Int) (least : -1 ≤ value) (most : value ≤ intMax) :
    int value = .value value := by
  rw [int, if_pos]
  rw [intMax] at most ⊢
  omega

/-- Everything that is computed before the comparison is an `int`. -/
theorem middle_eq
    (bounded : Bounded len vars) (fits : len ≤ intMax)
    (before : vars.first ≤ vars.last) :
    middle vars = .value vars.mid := by
  have mid := vars.mid_bounds before
  rcases bounded with ⟨first, _, last⟩
  rw [middle, int_eq _ (by omega) (by omega), value_bind]
  exact int_eq (vars.mid) (by omega) (by omega)

theorem doPrefetch_eq
    (bounded : Bounded len vars) (fits : len ≤ intMax)
    (before : vars.first ≤ vars.last) (enabled : Bool) :
    doPrefetch enabled vars vars.mid =
      .value (vars.prefetched enabled) := by
  have mid := vars.mid_bounds before
  have low := vars.low_bounds before
  have high := vars.high_bounds before
  rcases bounded with ⟨first, _, last⟩
  cases enabled with
  | false => rfl
  | true =>
      have lowPath :
          int (vars.mid + 1 + (vars.last - vars.mid - 1).tdiv 2) =
            .value vars.low :=
        int_eq (vars.low) (by omega) (by omega)
      have highPath :
          int (vars.first + (vars.mid - vars.first - 1).tdiv 2) =
            .value vars.high :=
        int_eq (vars.high) (by omega) (by omega)
      have next := int_eq (vars.mid + 1) (by omega) (by omega)
      have above :=
        int_eq (vars.last - vars.mid) (by omega) (by omega)
      have aboveLess :=
        int_eq (vars.last - vars.mid - 1) (by omega) (by omega)
      have below :=
        int_eq (vars.mid - vars.first) (by omega) (by omega)
      have belowLess :=
        int_eq (vars.mid - vars.first - 1) (by omega) (by omega)
      simp only [doPrefetch, prefetch, next, above, aboveLess, below,
        belowLess, lowPath, highPath, value_bind, pure_eq_value,
        Vars.prefetched, if_true]

/-- The middle of an interval is in the array. -/
theorem exists_getElem?_mid
    {array : List Int} (bounded : Bounded array.length vars)
    (before : vars.first ≤ vars.last) :
    ∃ value, array[vars.mid.toNat]? = some value := by
  have mid := vars.mid_bounds before
  have first := bounded.first
  have last := bounded.last
  have inside : vars.mid.toNat < array.length := by
    omega
  exact ⟨array[vars.mid.toNat], List.getElem?_eq_getElem inside⟩

section Branch

variable {array : List Int} (target : Int) {value : Int}
  (fits : (array.length : Int) ≤ intMax) (bounded : Bounded array.length vars)
  (before : vars.first ≤ vars.last)
  (present : array[vars.mid.toNat]? = some value) (enabled : Bool)

include fits bounded before present

/-- The branch depends on the element in the middle. -/
theorem body_eq :
    body enabled array target vars =
      if value = target then
        .value (⟨vars.mid, vars.prefetched enabled, .found⟩, vars)
      else if value < target then
        .value (⟨vars.mid, vars.prefetched enabled, .up⟩, vars.up)
      else
        .value (⟨vars.mid, vars.prefetched enabled, .down⟩, vars.down) := by
  have mid := vars.mid_bounds before
  have first := bounded.first
  have last := bounded.last
  have element : read array vars.mid = .value value := by
    rw [read, if_pos (by omega), present]
    rfl
  have next := int_eq (vars.mid + 1) (by omega) (by omega)
  have previous := int_eq (vars.mid - 1) (by omega) (by omega)
  rw [body, middle_eq bounded fits before, value_bind,
    doPrefetch_eq bounded fits before, value_bind, element, value_bind, next,
    previous]
  rfl

end Branch

end Body

/-! ## Searches -/

/-- What a search does from some variables on. -/
inductive Search (enabled : Bool) (array : List Int) (target : Int) :
    Vars → Int → List Iteration → Prop where
  | absent {vars : Vars} (empty : vars.last < vars.first) :
      Search enabled array target vars (-1) []
  | found {vars : Vars} (before : vars.first ≤ vars.last)
      (present : array[vars.mid.toNat]? = some target) :
      Search enabled array target vars vars.mid
        [⟨vars.mid, vars.prefetched enabled, .found⟩]
  | up {vars : Vars} {value result : Int} {rest : List Iteration}
      (before : vars.first ≤ vars.last)
      (present : array[vars.mid.toNat]? = some value) (less : value < target)
      (search : Search enabled array target vars.up result rest) :
      Search enabled array target vars result
        (⟨vars.mid, vars.prefetched enabled, .up⟩ :: rest)
  | down {vars : Vars} {value result : Int} {rest : List Iteration}
      (before : vars.first ≤ vars.last)
      (present : array[vars.mid.toNat]? = some value)
      (greater : target < value)
      (search : Search enabled array target vars.down result rest) :
      Search enabled array target vars result
        (⟨vars.mid, vars.prefetched enabled, .down⟩ :: rest)

/-- With more fuel than there are indices, the loop ends without a fault. -/
theorem exists_search
    (enabled : Bool) {array : List Int} (fits : (array.length : Int) ≤ intMax)
    (target : Int) {vars : Vars} (bounded : Bounded array.length vars) :
    ∃ result trace,
      Search enabled array target vars result trace ∧
        ∀ fuel, vars.size < fuel →
          loop enabled array target fuel vars = .value (result, trace) := by
  generalize measure : vars.size = size
  induction size using Nat.strongRecOn generalizing vars with
  | ind size ih =>
      by_cases before : vars.first ≤ vars.last
      · rcases exists_getElem?_mid bounded before with ⟨value, present⟩
        have branch :=
          body_eq target fits bounded before present enabled
        rcases Int.lt_trichotomy value target with less | rfl | greater
        · have smaller := vars.size_up_lt before
          rcases ih vars.up.size (by omega) (bounded.up before) rfl with
            ⟨result, rest, search, ends⟩
          refine ⟨result, _, .up before present less search, ?_⟩
          intro fuel enough
          cases fuel with
          | zero => omega
          | succ fuel =>
              rw [if_neg (by omega), if_pos less] at branch
              rw [loop, if_pos before, branch, value_bind]
              dsimp only
              rw [if_neg (by decide), ends fuel (by omega)]
              rfl
        · refine ⟨vars.mid, _, .found before present, ?_⟩
          intro fuel enough
          cases fuel with
          | zero => omega
          | succ fuel =>
              rw [if_pos rfl] at branch
              rw [loop, if_pos before, branch]
              rfl
        · have smaller := vars.size_down_lt before
          rcases ih vars.down.size (by omega) (bounded.down before) rfl with
            ⟨result, rest, search, ends⟩
          refine ⟨result, _, .down before present greater search, ?_⟩
          intro fuel enough
          cases fuel with
          | zero => omega
          | succ fuel =>
              rw [if_neg (by omega), if_neg (by omega)] at branch
              rw [loop, if_pos before, branch, value_bind]
              dsimp only
              rw [if_neg (by decide), ends fuel (by omega)]
              rfl
      · refine ⟨-1, [], .absent (by omega), ?_⟩
        intro fuel enough
        cases fuel with
        | zero => omega
        | succ fuel =>
            rw [loop, if_neg before]
            rfl

/-- The whole array. -/
theorem bounded_whole (array : List Int) :
    Bounded array.length ⟨0, (array.length : Int) - 1⟩ := by
  constructor
  · exact Int.le_refl 0
  · show 0 ≤ (array.length : Int) - 1 + 1
    omega
  · show (array.length : Int) - 1 < array.length
    omega

/-- The whole function. -/
theorem exists_binarySearch
    (enabled : Bool) {array : List Int} (fits : (array.length : Int) ≤ intMax)
    (target : Int) :
    ∃ result trace,
      Search enabled array target ⟨0, (array.length : Int) - 1⟩ result
          trace ∧
        ∀ fuel, array.length < fuel →
          binarySearch enabled array array.length target fuel =
            .value (result, trace) := by
  rcases exists_search enabled fits target (bounded_whole array) with
    ⟨result, trace, search, ends⟩
  refine ⟨result, trace, search, ?_⟩
  intro fuel enough
  have size : (⟨0, (array.length : Int) - 1⟩ : Vars).size = array.length := by
    show ((array.length : Int) - 1 + 1 - 0).toNat = array.length
    omega
  rw [binarySearch, int_eq _ (by omega) (by omega), value_bind]
  exact ends fuel (by rw [size]; exact enough)

/-! ## The result -/

section Result

variable {array : List Int} (sorted : array.Pairwise (· ≤ ·))

include sorted

theorem le_of_sorted
    {i j : Nat} (ordered : i ≤ j) {left right : Int}
    (first : array[i]? = some left) (second : array[j]? = some right) :
    left ≤ right := by
  rcases List.getElem?_eq_some_iff.mp first with ⟨_, rfl⟩
  rcases List.getElem?_eq_some_iff.mp second with ⟨_, rfl⟩
  rcases Nat.lt_or_eq_of_le ordered with before | rfl
  · exact List.pairwise_iff_getElem.mp sorted i j _ _ before
  · exact Int.le_refl _

/-- The target is found, or it is not in the interval. -/
theorem Search.found_or_absent
    {enabled : Bool} {target : Int} {vars : Vars} {result : Int}
    {trace : List Iteration}
    (search : Search enabled array target vars result trace)
    (bounded : Bounded array.length vars) :
    (∃ index : Nat, result = index ∧ array[index]? = some target) ∨
      result = -1 ∧
        ∀ index : Nat, vars.first ≤ index → index ≤ vars.last →
          array[index]? ≠ some target := by
  induction search with
  | absent empty =>
      right
      refine ⟨rfl, ?_⟩
      intro index above below
      omega
  | @found vars before present =>
      have mid := vars.mid_bounds before
      have first := bounded.first
      exact .inl ⟨vars.mid.toNat, by omega, present⟩
  | @up vars value result rest before present less search ih =>
      rcases ih (bounded.up before) with found | ⟨same, absent⟩
      · exact .inl found
      · right
        refine ⟨same, ?_⟩
        intro index above below held
        by_cases behind : vars.mid + 1 ≤ index
        · exact absent index behind below held
        · -- All elements up to the middle are too small.
          have smaller :=
            le_of_sorted sorted (by omega : index ≤ vars.mid.toNat) held
              present
          omega
  | @down vars value result rest before present greater search ih =>
      have mid := vars.mid_bounds before
      have first := bounded.first
      rcases ih (bounded.down before) with found | ⟨same, absent⟩
      · exact .inl found
      · right
        refine ⟨same, ?_⟩
        intro index above below held
        by_cases ahead : (index : Int) ≤ vars.mid - 1
        · exact absent index above ahead held
        · -- All elements from the middle on are too large.
          have larger :=
            le_of_sorted sorted (by omega : vars.mid.toNat ≤ index) present
              held
          omega

end Result

/--
Both programs return for every sorted array whose length is an `int` and every
target, without an overflow or an access outside of the array: an index of the
target if it occurs, and -1 if and only if it does not.
-/
theorem binarySearch_correct
    (enabled : Bool) (array : List Int)
    (fits : (array.length : Int) ≤ intMax) (sorted : array.Pairwise (· ≤ ·))
    (target : Int) :
    ∃ result trace,
      (∀ fuel, array.length < fuel →
        binarySearch enabled array array.length target fuel =
          .value (result, trace)) ∧
      (target ∈ array →
        ∃ index : Nat, result = index ∧ array[index]? = some target) ∧
      (result = -1 ↔ target ∉ array) := by
  rcases exists_binarySearch enabled fits target with
    ⟨result, trace, search, ends⟩
  refine ⟨result, trace, ends, ?_⟩
  rcases search.found_or_absent sorted (bounded_whole array) with
    ⟨index, rfl, held⟩ | ⟨rfl, absent⟩
  · have member := List.mem_of_getElem? held
    refine ⟨fun _ => ⟨index, rfl, held⟩, ?_⟩
    constructor
    · intro negative
      omega
    · intro missing
      exact absurd member missing
  · have missing : target ∉ array := by
      intro member
      rcases List.mem_iff_getElem?.mp member with ⟨index, held⟩
      have inside := (List.getElem?_eq_some_iff.mp held).1
      exact absent index (Int.natCast_nonneg index) (by dsimp only; omega) held
    exact ⟨fun member => absurd member missing, fun _ => missing, fun _ => rfl⟩

/-- One element occurs more than once. -/
def duplicates : List Int :=
  [1, 3, 3, 3, 8]

theorem binarySearch_correct_duplicates :
    ∃ result trace,
      (∀ fuel, duplicates.length < fuel →
        binarySearch true duplicates duplicates.length 3 fuel =
          .value (result, trace)) ∧
      (3 ∈ duplicates →
        ∃ index : Nat, result = index ∧ duplicates[index]? = some 3) ∧
      (result = -1 ↔ 3 ∉ duplicates) :=
  binarySearch_correct true duplicates (by decide) (by decide) 3

/-! ## The prefetched indices -/

/-- Both indices are in the array, or just behind it. -/
def InRange (len : Int) (iteration : Iteration) : Prop :=
  ∃ low high,
    iteration.prefetched = some (low, high) ∧
      (0 ≤ low ∧ low ≤ len) ∧ 0 ≤ high ∧ high ≤ len

/-- An iteration has prefetched the element that the next one looks at. -/
def Predicts (iteration next : Iteration) : Prop :=
  ∃ low high,
    iteration.prefetched = some (low, high) ∧
      (iteration.direction = .up ∧ next.mid = low ∨
        iteration.direction = .down ∧ next.mid = high)

section Prefetched

variable {array : List Int} {target result : Int} {vars : Vars}
  {trace : List Iteration}

theorem Search.mid_head
    {enabled : Bool} {iteration : Iteration} {rest : List Iteration}
    (search :
      Search enabled array target vars result (iteration :: rest)) :
    iteration.mid = vars.mid := by
  cases search <;> rfl

theorem inRange
    (bounded : Bounded array.length vars) (before : vars.first ≤ vars.last)
    (direction : Direction) :
    InRange array.length ⟨vars.mid, vars.prefetched true, direction⟩ := by
  have low := vars.low_bounds before
  have high := vars.high_bounds before
  have mid := vars.mid_bounds before
  rcases bounded with ⟨first, _, last⟩
  exact ⟨vars.low, vars.high, rfl, by omega, by omega⟩

theorem Search.prefetched
    (search : Search true array target vars result trace)
    (bounded : Bounded array.length vars) :
    (∀ iteration ∈ trace, InRange array.length iteration) ∧
      trace.IsChain Predicts := by
  induction search with
  | absent empty => exact ⟨by simp, .nil⟩
  | found before present =>
      constructor
      · intro iteration member
        rw [List.mem_singleton.mp member]
        exact inRange bounded before .found
      · exact .singleton _
  | @up vars value result rest before present less search ih =>
      rcases ih (bounded.up before) with ⟨inside, chain⟩
      constructor
      · rw [List.forall_mem_cons]
        exact ⟨inRange bounded before .up, inside⟩
      · cases rest with
        | nil => exact .singleton _
        | cons next rest =>
            refine .cons_cons ?_ chain
            refine ⟨vars.low, vars.high, rfl, .inl ⟨rfl, ?_⟩⟩
            rw [search.mid_head, vars.mid_up]
  | @down vars value result rest before present greater search ih =>
      rcases ih (bounded.down before) with ⟨inside, chain⟩
      constructor
      · rw [List.forall_mem_cons]
        exact ⟨inRange bounded before .down, inside⟩
      · cases rest with
        | nil => exact .singleton _
        | cons next rest =>
            refine .cons_cons ?_ chain
            refine ⟨vars.low, vars.high, rfl, .inr ⟨rfl, ?_⟩⟩
            rw [search.mid_head, vars.mid_down]

end Prefetched

/--
With prefetching, on every array whose length is an `int` and for every
target: the search ends without an overflow and has an iteration for every
element that it reads, both indices of an iteration are in the array or just
behind it, and the next iteration looks at the one of the path that is taken.
-/
theorem prefetch_correct
    (array : List Int) (fits : (array.length : Int) ≤ intMax)
    (target : Int) :
    ∃ result trace,
      (∀ fuel, array.length < fuel →
        binarySearch true array array.length target fuel =
          .value (result, trace)) ∧
      Search true array target ⟨0, (array.length : Int) - 1⟩ result trace ∧
      (∀ iteration ∈ trace, InRange array.length iteration) ∧
      trace.IsChain Predicts := by
  rcases exists_binarySearch true fits target with
    ⟨result, trace, search, ends⟩
  exact
    ⟨result, trace, ends, search, search.prefetched (bounded_whole array)⟩

/-- A search in this array goes up although it contains the target. -/
def unsorted : List Int :=
  [5, 1, 4]

/-- The second iteration looks at the index that the first one prefetched. -/
theorem prefetch_correct_unsorted :
    ∃ trace,
      trace = [⟨1, some (2, 0), .up⟩, ⟨2, some (3, 2), .up⟩] ∧
      (∀ fuel, unsorted.length < fuel →
        binarySearch true unsorted unsorted.length 5 fuel =
          .value (-1, trace)) ∧
      Search true unsorted 5 ⟨0, (unsorted.length : Int) - 1⟩ (-1) trace ∧
      (∀ iteration ∈ trace, InRange unsorted.length iteration) ∧
      trace.IsChain Predicts := by
  rcases prefetch_correct unsorted (by decide) 5 with
    ⟨result, trace, ends, search, inside, chain⟩
  have computed :
      binarySearch true unsorted unsorted.length 5 4 =
        .value (-1, [⟨1, some (2, 0), .up⟩, ⟨2, some (3, 2), .up⟩]) := by
    decide
  have same := (ends 4 (by decide)).symm.trans computed
  cases same
  exact ⟨_, rfl, ends, search, inside, chain⟩

end CodingExamples.BinarySearchPrefetch.BinarySearch
