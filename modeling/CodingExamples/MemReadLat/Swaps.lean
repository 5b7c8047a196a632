import CodingExamples.Library.CallLoop
import CodingExamples.Library.MachineCounter
import CodingExamples.MemReadLat.Shuffle

/-!
# The exchanges of `shuffle`

`shuffle` computes its indices in unsigned integers of 64 bits.  It is a loop
around `rand`, whose results are `int`s that are not known.  Here the function
runs on an array with any content.  A division by zero and an access outside
of the array are undefined, and they end the run.

On an array that is long enough the run is the one of `Shuffle`.
-/

namespace CodingExamples.MemReadLat.Swaps

open CodingExamples.Library.CallLoop
open CodingExamples.Library.MachineCounter
open CodingExamples.MemReadLat.Shuffle (exchange)

/-- `i` and the array, and the indices of the exchanges up to now. -/
structure Vars where
  i : BitVec 64
  array : List Nat
  exchanged : List (BitVec 64 × BitVec 64)
deriving DecidableEq, Repr

/-- The array, if it is not `NULL`, and the indices of the exchanges. -/
inductive Return where
  | finished (array : Option (List Nat))
      (exchanged : List (BitVec 64 × BitVec 64))
  | undefined (exchanged : List (BitVec 64 × BitVec 64))
deriving DecidableEq, Repr

/-- `i + rand() % (n - i)`, `none` for a division by zero. -/
def draw (n i : BitVec 64) (rand : BitVec 32) : Option (BitVec 64) :=
  if n - i = 0 then
    none
  else
    some (i + rand.signExtend 64 % (n - i))

/-- The loop condition. -/
def loop (n : BitVec 64) (vars : Vars) : Status Vars Return :=
  if vars.i < n - 1 then
    .running vars
  else
    .returned (.finished (some vars.array) vars.exchanged)

/-- The body of the loop. -/
def body (n : BitVec 64) (vars : Vars) (rand : BitVec 32) :
    Status Vars Return :=
  match draw n vars.i rand with
  | none => .returned (.undefined vars.exchanged)
  | some j =>
      let exchanged := vars.exchanged ++ [(vars.i, j)]
      match exchange vars.array vars.i.toNat j.toNat with
      | none => .returned (.undefined exchanged)
      | some array => loop n ⟨vars.i + 1, array, exchanged⟩

/-- `shuffle(array, n)` up to the first call of `rand`. -/
def start (array : Option (List Nat)) (n : BitVec 64) :
    Status Vars Return :=
  match array with
  | none => .returned (.finished none [])
  | some slots =>
      if n ≤ 1 then
        .returned (.finished (some slots) [])
      else
        loop n ⟨0, slots, []⟩

/-- `shuffle(array, n)`. -/
def shuffle (array : Option (List Nat)) (n : BitVec 64)
    (rand : Nat → BitVec 32) : Nat → Status Vars Return :=
  statusAfter (body n) (start array n) rand

/-- The indices of all exchanges that have been tried. -/
def exchangedBy : Status Vars Return → List (BitVec 64 × BitVec 64)
  | .running vars => vars.exchanged
  | .returned (.finished _ exchanged) => exchanged
  | .returned (.undefined exchanged) => exchanged

/-! ## The index that is drawn -/

/-- The results of `rand` as unsigned numbers. -/
def unsigned (rand : Nat → BitVec 32) (i : Nat) : Nat :=
  ((rand i).signExtend 64).toNat

section Draw

variable {n i : BitVec 64}

theorem one_lt_toNat (several : 1 < n) : 1 < n.toNat :=
  several

/-- There is a second element if the loop goes on. -/
theorem toNat_lt_of_lt (several : 1 < n) (inside : i < n - 1) :
    i.toNat + 1 < n.toNat := by
  have positive := Nat.le_of_lt (one_lt_toNat several)
  rw [BitVec.lt_def, toNat_sub_one positive] at inside
  omega

/-- The index is not before `i`, and it is inside of the array. -/
theorem exists_draw
    (several : 1 < n) (inside : i < n - 1) (rand : BitVec 32) :
    ∃ j, draw n i rand = some j ∧
      j.toNat =
        i.toNat + (rand.signExtend 64).toNat % (n.toNat - i.toNat) ∧
        i ≤ j ∧ j < n := by
  have bound := toNat_lt_of_lt several inside
  have size := n.isLt
  have left : (n - i).toNat = n.toNat - i.toNat :=
    BitVec.toNat_sub_of_le (by rw [BitVec.le_def]; omega)
  have nonzero : n - i ≠ 0 := by
    intro zero
    have empty : (n - i).toNat = 0 := congrArg BitVec.toNat zero
    omega
  have remainder :
      (rand.signExtend 64).toNat % (n.toNat - i.toNat) <
        n.toNat - i.toNat :=
    Nat.mod_lt _ (by omega)
  have value :
      (i + rand.signExtend 64 % (n - i)).toNat =
        i.toNat + (rand.signExtend 64).toNat % (n.toNat - i.toNat) := by
    rw [BitVec.toNat_add, BitVec.toNat_umod, left]
    exact Nat.mod_eq_of_lt (by omega)
  refine ⟨_, if_neg nonzero, value, ?_, ?_⟩
  · rw [BitVec.le_def, value]
    exact Nat.le_add_right _ _
  · rw [BitVec.lt_def, value]
    omega

end Draw

/-! ## The exchanged elements -/

/-- The exchanges make one array of the other, and keep all its elements. -/
structure Shuffled (n : BitVec 64)
    (exchanged : List (BitVec 64 × BitVec 64))
    (slots result : List Nat) : Prop where
  exchanges :
    exchanged.foldlM
        (fun array (i, j) => exchange array i.toNat j.toNat) slots =
      some result
  perm : result.Perm slots
  outside : result.drop n.toNat = slots.drop n.toNat

/-- An element may be exchanged with itself. -/
theorem exists_exchange
    {array : List Nat} {n i j : Nat} (left : i < n) (right : j < n)
    (whole : n ≤ array.length) :
    ∃ result, exchange array i j = some result ∧
      result.Perm array ∧ result.drop n = array.drop n := by
  have iBound : i < array.length := Nat.lt_of_lt_of_le left whole
  have jBound : j < array.length := Nat.lt_of_lt_of_le right whole
  refine ⟨(array.set i array[j]).set j array[i], ?_, ?_, ?_⟩
  · rw [exchange, List.getElem?_eq_getElem iBound,
      List.getElem?_eq_getElem jBound]
    rfl
  · exact List.set_set_perm iBound jBound
  · rw [List.drop_set_of_lt right, List.drop_set_of_lt left]

theorem Shuffled.refl (n : BitVec 64) (slots : List Nat) :
    Shuffled n [] slots slots where
  exchanges := rfl
  perm := List.Perm.refl slots
  outside := rfl

theorem Shuffled.exchange
    {n i j : BitVec 64} {exchanged : List (BitVec 64 × BitVec 64)}
    {slots array : List Nat} (shuffled : Shuffled n exchanged slots array)
    (left : i < n) (right : j < n) (whole : n.toNat ≤ slots.length) :
    ∃ next, Shuffle.exchange array i.toNat j.toNat = some next ∧
      Shuffled n (exchanged ++ [(i, j)]) slots next := by
  rw [← shuffled.perm.length_eq] at whole
  rcases exists_exchange left right whole with
    ⟨next, step, perm, outside⟩
  refine ⟨next, step, ?_, perm.trans shuffled.perm,
    outside.trans shuffled.outside⟩
  rw [List.foldlM_append, shuffled.exchanges]
  show (Shuffle.exchange array i.toNat j.toNat).bind some = some next
  rw [step, Option.bind_some]

/-! ## Runs -/

section Run

variable {array : Option (List Nat)} {slots : List Nat} {n : BitVec 64}
  {rand : Nat → BitVec 32}

/-- An exchange is tried inside of the array, and with an element behind. -/
def Inside (n : BitVec 64) : Status Vars Return → Prop
  | .running vars =>
      1 < n ∧ vars.i < n - 1 ∧ ∀ i j, (i, j) ∈ vars.exchanged → i ≤ j ∧ j < n
  | .returned result =>
      ∀ i j, (i, j) ∈ exchangedBy (.returned result) → i ≤ j ∧ j < n

theorem Inside.exchangedBy {status : Status Vars Return}
    (inside : Inside n status) :
    ∀ i j, (i, j) ∈ exchangedBy status → i ≤ j ∧ j < n := by
  cases status with
  | running vars => exact inside.2.2
  | returned result => exact inside

theorem inside_loop
    (several : 1 < n) {vars : Vars}
    (ordered : ∀ i j, (i, j) ∈ vars.exchanged → i ≤ j ∧ j < n) :
    Inside n (loop n vars) := by
  rw [loop]
  split
  · case isTrue more => exact ⟨several, more, ordered⟩
  · exact ordered

theorem inside_start (array : Option (List Nat)) (n : BitVec 64) :
    Inside n (start array n) := by
  have nothing (i j : BitVec 64) :
      (i, j) ∈ ([] : List (BitVec 64 × BitVec 64)) → i ≤ j ∧ j < n := by
    intro member
    cases member
  cases array with
  | none => exact nothing
  | some slots =>
      rw [start]
      split
      · exact nothing
      · case isFalse several =>
          exact inside_loop (BitVec.not_le.mp several) nothing

theorem Inside.body
    {vars : Vars} (inside : Inside n (.running vars)) (rand : BitVec 32) :
    Inside n (body n vars rand) := by
  rcases inside with ⟨several, more, ordered⟩
  rcases exists_draw several more rand with ⟨j, drawn, _, behind, bound⟩
  have longer (first second : BitVec 64)
      (member : (first, second) ∈ vars.exchanged ++ [(vars.i, j)]) :
      first ≤ second ∧ second < n := by
    rcases List.mem_append.mp member with earlier | last
    · exact ordered first second earlier
    · rw [List.mem_singleton, Prod.mk.injEq] at last
      rw [last.1, last.2]
      exact ⟨behind, bound⟩
  simp only [Swaps.body, drawn]
  split
  · exact longer
  · exact inside_loop several longer

theorem loop_of_lt
    {calls : Nat} (before : calls < n.toNat - 1) (array : List Nat)
    (exchanged : List (BitVec 64 × BitVec 64)) :
    loop n ⟨BitVec.ofNat 64 calls, array, exchanged⟩ =
      .running ⟨BitVec.ofNat 64 calls, array, exchanged⟩ := by
  have short : calls < n.toNat := by
    omega
  exact if_pos ((ofNat_lt_sub_one_iff short).mpr before)

theorem loop_last
    (several : 1 < n) (array : List Nat)
    (exchanged : List (BitVec 64 × BitVec 64)) :
    loop n ⟨BitVec.ofNat 64 (n.toNat - 1), array, exchanged⟩ =
      .returned (.finished (some array) exchanged) := by
  have positive := one_lt_toNat several
  have short : n.toNat - 1 < n.toNat := by
    omega
  apply if_neg
  rw [ofNat_lt_sub_one_iff short]
  exact Nat.lt_irrefl _

theorem inside_shuffle
    (array : Option (List Nat)) (n : BitVec 64) (rand : Nat → BitVec 32)
    (calls : Nat) : Inside n (shuffle array n rand calls) := by
  have preserved (calls : Nat) (vars : Vars)
      (_ : shuffle array n rand calls = .running vars)
      (inside : Inside n (.running vars)) :
      Inside n (body n vars (rand calls)) :=
    inside.body (rand calls)
  exact
    statusAfter_invariant (inside_start array n) preserved
      (fun _ _ inside => inside) calls

/-- After some iterations, the run has made the exchanges of `Shuffle`. -/
theorem exists_shuffle_eq
    (several : 1 < n) (whole : n.toNat ≤ slots.length)
    (rand : Nat → BitVec 32) {calls : Nat} (before : calls ≤ n.toNat - 1) :
    ∃ result exchanged,
      shuffle (some slots) n rand calls =
          loop n ⟨BitVec.ofNat 64 calls, result, exchanged⟩ ∧
        Shuffled n exchanged slots result ∧
        (List.range calls).foldlM
            (fun array i =>
              exchange array i (Shuffle.draw n.toNat (unsigned rand) i))
            slots =
          some result := by
  induction calls with
  | zero =>
      refine ⟨slots, [], ?_, Shuffled.refl n slots, rfl⟩
      exact if_neg (BitVec.not_le.mpr several)
  | succ calls ih =>
      rcases ih (Nat.le_of_succ_le before) with
        ⟨array, exchanged, status, shuffled, same⟩
      have index : (BitVec.ofNat 64 calls).toNat = calls :=
        toNat_ofNat_of_lt (show calls < n.toNat by omega)
      have more : BitVec.ofNat 64 calls < n - 1 :=
        (ofNat_lt_sub_one_iff (show calls < n.toNat by omega)).mpr before
      have below : BitVec.ofNat 64 calls < n := by
        rw [BitVec.lt_def, index]
        omega
      rcases exists_draw several more (rand calls) with
        ⟨j, drawn, value, _, bound⟩
      rcases shuffled.exchange below bound whole with
        ⟨next, step, longer⟩
      rw [loop_of_lt before] at status
      refine ⟨next, _, ?_, longer, ?_⟩
      · rw [shuffle, statusAfter_succ_of_running status]
        simp only [body, drawn, step]
        rw [BitVec.ofNat_add]
        rfl
      · rw [index] at value step
        rw [value] at step
        rw [List.range_succ, List.foldlM_append, same]
        show (exchange array calls _).bind some = some next
        rw [Shuffle.draw, unsigned, step, Option.bind_some]

/-- On an array that is long enough, the machine does what `Shuffle` does. -/
theorem shuffle_returns
    (several : 1 < n) (whole : n.toNat ≤ slots.length)
    (rand : Nat → BitVec 32) :
    ∃ result exchanged,
      Returns (body n) (start (some slots) n) rand (n.toNat - 1)
          (.finished (some result) exchanged) ∧
        Shuffled n exchanged slots result ∧
        Shuffle.shuffle slots n.toNat (unsigned rand) = some result := by
  rcases exists_shuffle_eq several whole rand (Nat.le_refl _) with
    ⟨result, exchanged, status, shuffled, same⟩
  refine ⟨result, exchanged, ⟨?_, ?_⟩, shuffled, ?_⟩
  · exact status.trans (loop_last several result exchanged)
  · intro earlier before
    rcases exists_shuffle_eq several whole rand (Nat.le_of_lt before) with
      ⟨array, sofar, running, _, _⟩
    exact ⟨_, running.trans (loop_of_lt before array sofar)⟩
  · rw [Shuffle.shuffle_eq]
    exact same

end Run

/--
For every array and size and all results of `rand`, `shuffle` exchanges only
elements inside of the size, and each of them with itself or one behind it.
If the array has that many elements or is `NULL`, `shuffle` returns, and the
array is a permutation of what it was.
-/
theorem shuffle_permutes
    (array : Option (List Nat)) (n : BitVec 64) (rand : Nat → BitVec 32) :
    (∀ calls i j,
      (i, j) ∈ exchangedBy (shuffle array n rand calls) → i ≤ j ∧ j < n) ∧
    ((∀ slots, array = some slots → n.toNat ≤ slots.length) →
      ∃ calls final exchanged,
        Returns (body n) (start array n) rand calls
            (.finished final exchanged) ∧
          Option.Rel (Shuffled n exchanged) array final) := by
  refine ⟨fun calls => (inside_shuffle array n rand calls).exchangedBy, ?_⟩
  intro whole
  have atOnce {result : Return}
      (returned : start array n = .returned result) :
      Returns (body n) (start array n) rand 0 result :=
    { returned := returned
      running := fun earlier before => absurd before (Nat.not_lt_zero _) }
  cases array with
  | none => exact ⟨0, none, [], atOnce rfl, .none⟩
  | some slots =>
      by_cases small : n ≤ 1
      · exact
          ⟨0, some slots, [], atOnce (if_pos small),
            .some (Shuffled.refl n slots)⟩
      · rcases
            shuffle_returns (BitVec.not_le.mp small) (whole slots rfl)
              rand with
          ⟨result, exchanged, returns, shuffled, _⟩
        exact
          ⟨n.toNat - 1, some result, exchanged, returns, .some shuffled⟩

/-- Five addresses, of which the last is not shuffled. -/
theorem shuffle_permutes_four :
    ∃ calls final exchanged,
      Returns (body 4) (start (some [16, 8, 8, 24, 40]) 4)
          (fun call => BitVec.ofNat 32 (5 * call + 7)) calls
          (.finished final exchanged) ∧
        Option.Rel (Shuffled 4 exchanged) (some [16, 8, 8, 24, 40]) final :=
  (shuffle_permutes (some [16, 8, 8, 24, 40]) 4
    fun call => BitVec.ofNat 32 (5 * call + 7)).2
      (by
        intro slots same
        cases same
        decide)

end CodingExamples.MemReadLat.Swaps
