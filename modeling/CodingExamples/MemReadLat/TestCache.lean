import CodingExamples.Library.CountedLoop
import CodingExamples.MemReadLat.Shuffle

/-!
# The benchmark

`test_cache` computes the number of slots in an `unsigned int` and follows the
pointers of the shuffled array, one hundred at a time.  Sizes are 64 bits wide,
an `unsigned int` is 32 bits wide and a pointer takes eight bytes.  A pointer
is the index of its slot; reading through a pointer to no slot is undefined,
and the run has no result.  `malloc` succeeds.
-/

namespace CodingExamples.MemReadLat.TestCache

open CodingExamples.Library.CountedLoop
open CodingExamples.MemReadLat.Shuffle

/-- `sizeof(ptr)`. -/
def sizeofPtr : BitVec 64 :=
  8

/-- The variable `p` and the pointers that have been dereferenced. -/
structure Chase where
  p : Nat
  reads : List Nat
deriving DecidableEq, Repr

/-- The value of `*p`. -/
def deref (array : List Nat) (chase : Chase) : Option (Nat × Chase) := do
  let value ← array[chase.p]?
  return (value, { chase with reads := chase.reads ++ [chase.p] })

/-- `ONE`: `p = (ptr*)*p`. -/
def one (array : List Nat) (chase : Chase) : Option Chase := do
  let (value, chase) ← deref array chase
  return { chase with p := value }

/-- `FIVE`. -/
def five (array : List Nat) (chase : Chase) : Option Chase :=
  one array chase >>= one array >>= one array >>= one array >>= one array

/-- `TEN`. -/
def ten (array : List Nat) (chase : Chase) : Option Chase :=
  five array chase >>= five array

/-- `FIFTY`. -/
def fifty (array : List Nat) (chase : Chase) : Option Chase :=
  ten array chase >>= ten array >>= ten array >>= ten array >>= ten array

/-- `HUNDRED`. -/
def hundred (array : List Nat) (chase : Chase) : Option Chase :=
  fifty array chase >>= fifty array

/-- What a run of `test_cache` does. -/
structure Run where
  /-- The slots for which memory is allocated. -/
  slots : Nat
  reads : List Nat
deriving DecidableEq, Repr

/-- `test_cache(mem_size, iters)`, with the results of `rand`. -/
def testCache (memSize iters : BitVec 64) (rand : Nat → Nat) :
    Option Run := do
  let arraySize : BitVec 32 := (memSize / sizeofPtr).setWidth 32
  let allocated := arraySize.setWidth 64 * sizeofPtr
  let array ← shuffle (initial arraySize.toNat) arraySize.toNat rand
  let rounds := iters / 100
  let remainIters := iters - rounds * 100
  let chase ← times (hundred array) rounds.toNat ⟨0, []⟩
  let chase ← times (one array) remainIters.toNat chase
  -- The final read keeps `p` alive.
  let (_, chase) ← deref array chase
  return ⟨allocated.toNat / sizeofPtr.toNat, chase.reads⟩

/-! ## The unrolled loop -/

theorem five_eq (array : List Nat) : five array = times (one array) 5 := by
  funext chase
  exact (times_five (one array) chase).symm

theorem ten_eq (array : List Nat) : ten array = times (one array) 10 := by
  funext chase
  have blocks : ten array chase = times (five array) 2 chase :=
    (times_two (five array) chase).symm
  rw [blocks, five_eq, times_times]

theorem fifty_eq (array : List Nat) :
    fifty array = times (one array) 50 := by
  funext chase
  have blocks : fifty array chase = times (ten array) 5 chase :=
    (times_five (ten array) chase).symm
  rw [blocks, ten_eq, times_times]

theorem hundred_eq (array : List Nat) :
    hundred array = times (one array) 100 := by
  funext chase
  have blocks : hundred array chase = times (fifty array) 2 chase :=
    (times_two (fifty array) chase).symm
  rw [blocks, fifty_eq, times_times]

/-- The rounds and the remainder are all iterations. -/
theorem rounds_add_remain (iters : BitVec 64) :
    100 * (iters / 100).toNat + (iters - iters / 100 * 100).toNat =
      iters.toNat := by
  have quotient : (iters / 100).toNat = iters.toNat / 100 :=
    BitVec.toNat_udiv
  have bound := iters.isLt
  have product : (iters / 100 * 100).toNat = iters.toNat / 100 * 100 := by
    rw [BitVec.toNat_mul, quotient]
    exact Nat.mod_eq_of_lt (by simp; omega)
  rw [BitVec.toNat_sub_of_le, product, quotient]
  · omega
  · rw [BitVec.le_def, product]
    omega

/-- Both loops follow one pointer for every iteration. -/
theorem loops_eq (array : List Nat) (iters : BitVec 64) (chase : Chase) :
    (times (hundred array) (iters / 100).toNat chase).bind
        (times (one array) (iters - iters / 100 * 100).toNat) =
      times (one array) iters.toNat chase := by
  rw [hundred_eq, times_times, ← times_add, rounds_add_remain]

/-! ## The slots -/

/-- All pointers so far, and the next one, point to slots of the array. -/
structure Inside (slots count : Nat) (chase : Chase) : Prop where
  next : chase.p < slots
  reads : ∀ p ∈ chase.reads, p < slots
  length_reads : chase.reads.length = count

theorem Inside.deref
    {array : List Nat} {count : Nat} {chase : Chase}
    (closed : ∀ p ∈ array, p < array.length)
    (inside : Inside array.length count chase) :
    ∃ value next, TestCache.deref array chase = some (value, next) ∧
      value < array.length ∧
        Inside array.length (count + 1) next := by
  cases stored : array[chase.p]? with
  | none =>
      rw [List.getElem?_eq_none_iff] at stored
      exact absurd inside.next (not_lt.mpr stored)
  | some value =>
      refine
        ⟨value, { chase with reads := chase.reads ++ [chase.p] }, ?_,
          closed value (List.mem_of_getElem? stored), inside.next, ?_, ?_⟩
      · rw [TestCache.deref, stored]
        rfl
      · intro p member
        rcases List.mem_append.mp member with member | member
        · exact inside.reads p member
        · rw [List.mem_singleton.mp member]
          exact inside.next
      · rw [List.length_append, inside.length_reads]
        rfl

theorem Inside.one
    {array : List Nat} {count : Nat} {chase : Chase}
    (closed : ∀ p ∈ array, p < array.length)
    (inside : Inside array.length count chase) :
    ∃ next, TestCache.one array chase = some next ∧
      Inside array.length (count + 1) next := by
  rcases inside.deref closed with ⟨value, next, read, bound, insideNext⟩
  refine
    ⟨{ next with p := value }, ?_, bound, insideNext.reads,
      insideNext.length_reads⟩
  rw [TestCache.one, read]
  rfl

/-- Reading from an array without slots. -/
theorem deref_nil (chase : Chase) : deref [] chase = none :=
  rfl

theorem toNat_arraySize (memSize : BitVec 64) :
    ((memSize / sizeofPtr).setWidth 32).toNat =
      memSize.toNat / 8 % 2 ^ 32 := by
  rw [BitVec.toNat_setWidth, BitVec.toNat_udiv]
  rfl

/-- The size that is given to `malloc` does not overflow. -/
theorem slots_eq (arraySize : BitVec 32) :
    (arraySize.setWidth 64 * sizeofPtr).toNat / sizeofPtr.toNat =
      arraySize.toNat := by
  have bound := arraySize.isLt
  have product :
      (arraySize.setWidth 64 * sizeofPtr).toNat = arraySize.toNat * 8 := by
    rw [BitVec.toNat_mul, BitVec.toNat_setWidth]
    show arraySize.toNat % 2 ^ 64 * 8 % 2 ^ 64 = arraySize.toNat * 8
    omega
  rw [product]
  exact Nat.mul_div_cancel _ (by decide)

/-- Without the rounds, the benchmark is one loop and a final read. -/
theorem testCache_eq (memSize iters : BitVec 64) (rand : Nat → Nat) :
    testCache memSize iters rand =
      (shuffle (initial (memSize.toNat / 8 % 2 ^ 32))
          (memSize.toNat / 8 % 2 ^ 32) rand).bind fun array =>
        (times (one array) iters.toNat ⟨0, []⟩).bind fun chase =>
          (deref array chase).map fun read =>
            ⟨memSize.toNat / 8 % 2 ^ 32, read.2.reads⟩ := by
  rw [testCache]
  simp only [slots_eq, toNat_arraySize, Option.bind_eq_bind]
  congr 1
  funext array
  rw [← loops_eq, Option.bind_assoc]
  congr 1
  funext chase
  congr 1
  funext chase
  cases deref array chase <;> rfl

/-- With at least one slot, the benchmark runs to its end. -/
theorem exists_testCache
    (memSize iters : BitVec 64) (rand : Nat → Nat)
    (positive : 1 ≤ memSize.toNat / 8 % 2 ^ 32) :
    ∃ run, testCache memSize iters rand = some run ∧
      run.slots = memSize.toNat / 8 % 2 ^ 32 ∧
        run.reads.length = iters.toNat + 1 ∧
          ∀ p ∈ run.reads, p < run.slots := by
  rw [testCache_eq]
  generalize memSize.toNat / 8 % 2 ^ 32 = slots at positive
  have : NeZero slots := ⟨Nat.ne_of_gt positive⟩
  rcases exists_shuffle (n := slots) rand with ⟨array, shuffled, same⟩
  have closed := same.lt
  have start : Inside array.length 0 ⟨0, []⟩ :=
    { next := same.length.symm ▸ positive
      reads := by simp
      length_reads := rfl }
  rcases times_invariant (fun _ _ inside => inside.one closed) iters.toNat
      start with
    ⟨chase, followed, inside⟩
  rcases inside.deref closed with ⟨value, last, read, _, final⟩
  refine ⟨⟨slots, last.reads⟩, ?_, rfl, ?_, ?_⟩
  · rw [shuffled, Option.bind_some, followed, Option.bind_some, read]
    rfl
  · rw [final.length_reads, Nat.zero_add]
  · rw [← same.length]
    exact final.reads

theorem testCache_of_no_slots
    (memSize iters : BitVec 64) (rand : Nat → Nat)
    (empty : memSize.toNat / 8 % 2 ^ 32 = 0) :
    testCache memSize iters rand = none := by
  have shuffled : shuffle (initial 0) 0 rand = some [] :=
    rfl
  rw [testCache_eq, empty, shuffled, Option.bind_some]
  simp only [deref_nil, Option.map_none, Option.bind_fun_none]

/--
For all sizes, numbers of iterations and results of `rand`, the benchmark has
as many slots as fit in the memory and reads from them only, exactly if there
is at least one slot and their number fits in 32 bits.
-/
theorem testCache_reads_slots_iff
    (memSize iters : BitVec 64) (rand : Nat → Nat) :
    (∃ run, testCache memSize iters rand = some run ∧
      run.slots = memSize.toNat / 8 ∧
        run.reads.length = iters.toNat + 1 ∧
          ∀ p ∈ run.reads, p < run.slots) ↔
      8 ≤ memSize.toNat ∧ memSize.toNat < 2 ^ 35 := by
  constructor
  · rintro ⟨run, ran, slots, _⟩
    by_cases empty : memSize.toNat / 8 % 2 ^ 32 = 0
    · rw [testCache_of_no_slots memSize iters rand empty] at ran
      cases ran
    · rcases exists_testCache memSize iters rand (by omega) with
        ⟨_, again, truncated, _⟩
      rw [ran, Option.some.injEq] at again
      rw [← again, slots] at truncated
      omega
  · rintro ⟨one, fits⟩
    have whole : memSize.toNat / 8 % 2 ^ 32 = memSize.toNat / 8 :=
      Nat.mod_eq_of_lt (by omega)
    rcases exists_testCache memSize iters rand (by omega) with
      ⟨run, ran, slots, rest⟩
    exact ⟨run, ran, slots.trans whole, rest⟩

/-- Less memory than one pointer takes. -/
theorem testCache_not_reads_slots :
    ¬ ∀ (memSize iters : BitVec 64) (rand : Nat → Nat),
        ∃ run, testCache memSize iters rand = some run ∧
          run.slots = memSize.toNat / 8 ∧
            run.reads.length = iters.toNat + 1 ∧
              ∀ p ∈ run.reads, p < run.slots := by
  intro always
  rcases always 4 0 (fun _ => 0) with ⟨run, ran, _⟩
  have failed : testCache 4 0 (fun _ => 0) = none := by
    decide
  rw [failed] at ran
  cases ran

end CodingExamples.MemReadLat.TestCache
