import Mathlib.Data.List.Basic

/-!
# `write_exact` and `read_exact`

The two functions have the same loop: they ask the system for the bytes that
are left, at most `max` at a time, until all are transferred or a call returns
nothing.  The local variables of the loop are `Transfer`; one call of
`write` or `read` is one iteration.  The buffer is not NULL.
-/

namespace CodingExamples.SimpleTrafficGen.Common

/-- `DEFAULT_BUF_SIZE`. -/
def defaultBufSize : Nat := 1048576

/-- `count` and `bytes_written` or `bytes_read`. -/
structure Transfer where
  count : Nat
  transferred : Nat
deriving DecidableEq, Repr

/-- Before the next iteration, or after the return. -/
inductive Progress where
  | running (transfer : Transfer)
  | returned (total : Nat)
deriving DecidableEq, Repr

/-- The loop condition. -/
def loop (transfer : Transfer) : Progress :=
  if transfer.count > 0 then
    .running transfer
  else
    .returned transfer.transferred

/-- The call with the given `count`. -/
def enter (count : Nat) : Progress :=
  loop ⟨count, 0⟩

/-- `bytes_to_write` or `bytes_to_read`. -/
def Transfer.request (transfer : Transfer) (max : Nat) : Nat :=
  if transfer.count > max then max else transfer.count

/-- `cur_buf`, as the part of the buffer from there on. -/
def Transfer.curBuf (transfer : Transfer) (buf : List (BitVec 8))
    (dummyBuf : Bool) : List (BitVec 8) :=
  if dummyBuf then buf else buf.drop transfer.transferred

/-- The rest of an iteration, after `write` or `read` returned `n`. -/
def Transfer.after (transfer : Transfer) (n : Int) : Progress :=
  if n ≤ 0 then
    .returned transfer.transferred
  else
    loop
      { count := transfer.count - n.toNat
        transferred := transfer.transferred + n.toNat }

/-! ## One iteration -/

theorem enter_eq_running {count : Nat} (positive : 0 < count) :
    enter count = .running ⟨count, 0⟩ := by
  rw [enter, loop, if_pos positive]

theorem Transfer.request_le_count (transfer : Transfer) (max : Nat) :
    transfer.request max ≤ transfer.count := by
  rw [Transfer.request]
  split_ifs <;> omega

theorem Transfer.request_le_max (transfer : Transfer) (max : Nat) :
    transfer.request max ≤ max := by
  rw [Transfer.request]
  split_ifs <;> omega

theorem Transfer.request_pos
    {transfer : Transfer} {max : Nat}
    (left : 0 < transfer.count) (positive : 0 < max) :
    0 < transfer.request max := by
  rw [Transfer.request]
  split_ifs
  · exact positive
  · exact left

/-- The loop after `done` of `total` bytes. -/
def partway (total done : Nat) : Transfer :=
  ⟨total - done, done⟩

theorem enter_eq_partway {count : Nat} (positive : 0 < count) :
    enter count = .running (partway count 0) :=
  enter_eq_running positive

/-- What a call may transfer is left to be transferred. -/
theorem request_partway_le (total done max : Nat) :
    (partway total done).request max ≤ total - done :=
  Transfer.request_le_count _ _

/-- A successful call either leaves some bytes or completes the loop. -/
theorem after_partway_cases
    {total done n : Nat} (positive : 0 < n)
    (requested : n ≤ total - done) :
    done + n < total ∧
        (partway total done).after n =
          .running (partway total (done + n)) ∨
      done + n = total ∧
        (partway total done).after n = .returned total := by
  have advanced :
      (partway total done).after n = loop (partway total (done + n)) := by
    rw [Transfer.after, if_neg (by omega)]
    simp only [partway, Int.toNat_natCast, Nat.sub_sub]
  rw [advanced, loop]
  rcases Nat.lt_or_eq_of_le requested with less | equal
  · left
    have unfinished : done + n < total := by omega
    exact ⟨unfinished, if_pos (Nat.sub_pos_of_lt unfinished)⟩
  · right
    have complete : done + n = total := by omega
    refine ⟨complete, ?_⟩
    rw [if_neg (by simp [partway, complete])]
    exact congrArg Progress.returned complete

end CodingExamples.SimpleTrafficGen.Common
