import CodingExamples.EchoServer.Unp
import CodingExamples.Library.CallLoop

/-!
# `writen`

The loop keeps a pointer into the buffer and the number of bytes that are
left.  A call that is interrupted counts as one that has written nothing, in
the branch of the calls that end the loop.

The same function stands in three files.  It is compared at the end with the
loop of `Unp`, which knows only the bytes from the pointer on.
-/

namespace CodingExamples.EchoServer.Writen

open CodingExamples.EchoServer.Unp
  (WriteResult ssizeMax writenAfter writenLoop)
open CodingExamples.Library.CallLoop

/-- `nleft` and `ptr`, and the bytes that the descriptor has taken. -/
structure Vars where
  nleft : Int
  ptr : Nat
  sent : List (BitVec 8)
deriving DecidableEq, Repr

/-- The returned value and the bytes that the descriptor has taken. -/
structure Return where
  value : Int
  sent : List (BitVec 8)
deriving DecidableEq, Repr

/-- The loop condition, and the `return` behind the loop. -/
def loop (n : BitVec 64) (vars : Vars) : Status Vars Return :=
  if vars.nleft > 0 then
    .running vars
  else
    .returned ⟨n.toInt, vars.sent⟩

/-- What `write` returned. -/
def returnValue : WriteResult → Int
  | .returned count => count
  | .failed _ => -1

/-- `errno == EINTR` behind a call that failed. -/
def interrupted : WriteResult → Bool
  | .returned _ => false
  | .failed interrupted => interrupted

/-- The bytes that a call of `write` is given. -/
def offered (buffer : List (BitVec 8)) (vars : Vars) : List (BitVec 8) :=
  (buffer.drop vars.ptr).take vars.nleft.toNat

/-- The body of the loop. -/
def body (buffer : List (BitVec 8)) (n : BitVec 64) (vars : Vars)
    (result : WriteResult) : Status Vars Return :=
  let nwritten := returnValue result
  if nwritten ≤ 0 then
    if nwritten < 0 ∧ interrupted result then
      -- `nwritten = 0`, and on to the end of the body.
      loop n { vars with nleft := vars.nleft - 0, ptr := vars.ptr + 0 }
    else
      .returned ⟨-1, vars.sent⟩
  else
    loop n
      { nleft := vars.nleft - nwritten
        ptr := vars.ptr + nwritten.toNat
        sent := vars.sent ++ (offered buffer vars).take nwritten.toNat }

/-- `writen(fd, ptr, n)` of `echo-server/unp.h`. -/
def writen (buffer : List (BitVec 8)) (n : BitVec 64)
    (results : Nat → WriteResult) : Nat → Status Vars Return :=
  statusAfter (body buffer n)
    (loop n { nleft := n.toInt, ptr := 0, sent := [] }) results

/-- The call ends the function with an error. -/
def Fatal : WriteResult → Prop
  | .returned count => count = 0
  | .failed interrupted => interrupted = false

/-- The variables when some bytes at the start of the buffer are written. -/
def partway (buffer : List (BitVec 8)) (done : Nat) : Vars where
  nleft := (buffer.length : Int) - done
  ptr := done
  sent := buffer.take done

section Call

variable {buffer : List (BitVec 8)} {n : BitVec 64}

theorem loop_partway (n : BitVec 64) (done : Nat) :
    loop n (partway buffer done) =
      if done < buffer.length then
        .running (partway buffer done)
      else
        .returned ⟨n.toInt, buffer⟩ := by
  rw [loop]
  by_cases unfinished : done < buffer.length
  · have positive : (partway buffer done).nleft > 0 := by
      show (buffer.length : Int) - done > 0
      omega
    rw [if_pos unfinished, if_pos positive]
  · have finished : ¬ (partway buffer done).nleft > 0 := by
      show ¬ (buffer.length : Int) - done > 0
      omega
    rw [if_neg unfinished, if_neg finished, partway,
      List.take_of_length_le (Nat.le_of_not_lt unfinished)]

/-- Each call is given all that is left. -/
theorem offered_partway (buffer : List (BitVec 8)) (done : Nat) :
    offered buffer (partway buffer done) = buffer.drop done := by
  apply List.take_of_length_le
  show (buffer.drop done).length ≤ ((buffer.length : Int) - done).toNat
  rw [List.length_drop]
  omega

theorem body_interrupted (vars : Vars) :
    body buffer n vars (.failed true) = loop n vars := by
  simp [body, returnValue, interrupted]

theorem body_fatal
    {result : WriteResult} (fatal : Fatal result) (vars : Vars) :
    body buffer n vars result = .returned ⟨-1, vars.sent⟩ := by
  cases result with
  | returned count =>
      have zero : count = 0 := fatal
      simp [body, returnValue, zero]
  | failed interrupted =>
      have other : interrupted = false := fatal
      simp [body, returnValue, Writen.interrupted, other]

/-- Pointer and remainder stay in step. -/
theorem body_written
    {count : Nat} (positive : 0 < count) (done : Nat) :
    body buffer n (partway buffer done) (.returned count) =
      loop n (partway buffer (done + count)) := by
  have written : ¬ (count : Int) ≤ 0 := by
    omega
  have advanced :
      ({ nleft := (partway buffer done).nleft - count
         ptr := (partway buffer done).ptr + count
         sent :=
           (partway buffer done).sent ++ (buffer.drop done).take count } :
          Vars) =
        partway buffer (done + count) := by
    have left :
        (buffer.length : Int) - (done + count : Nat) =
          (buffer.length : Int) - done - count := by
      omega
    rw [partway, partway, List.take_add, left]
  simp only [body, returnValue, if_neg written, Int.toNat_natCast,
    offered_partway, advanced]

/-- A call that does not end the loop moves on, unless it is interrupted. -/
theorem exists_body_eq
    {result : WriteResult} (works : ¬ Fatal result) (done : Nat) :
    ∃ more,
      body buffer n (partway buffer done) result =
          loop n (partway buffer (done + more)) ∧
        (result ≠ .failed true → 0 < more) := by
  cases result with
  | returned count =>
      have positive : 0 < count := Nat.pos_of_ne_zero works
      exact ⟨count, body_written positive done, fun _ => positive⟩
  | failed interrupted =>
      rw [Fatal, Bool.not_eq_false] at works
      rw [works]
      exact ⟨0, body_interrupted _, fun awake => absurd rfl awake⟩

end Call

/-! ## Runs -/

section Run

variable {buffer : List (BitVec 8)} {n : BitVec 64}
  {results : Nat → WriteResult}

/-- What the variables and the returned value can be. -/
def Sound (buffer : List (BitVec 8)) (n : BitVec 64) :
    Status Vars Return → Prop
  | .running vars => ∃ done < buffer.length, vars = partway buffer done
  | .returned result =>
      result = ⟨n.toInt, buffer⟩ ∨
        ∃ done < buffer.length, result = ⟨-1, buffer.take done⟩

theorem loop_sound (n : BitVec 64) (done : Nat) :
    Sound buffer n (loop n (partway buffer done)) := by
  rw [loop_partway]
  split
  · case isTrue unfinished => exact ⟨done, unfinished, rfl⟩
  · exact .inl rfl

/-- Every kind of result preserves the invariant. -/
theorem body_sound
    {vars : Vars} (sound : Sound buffer n (.running vars))
    (result : WriteResult) :
    Sound buffer n (body buffer n vars result) := by
  rcases sound with ⟨done, unfinished, rfl⟩
  by_cases fatal : Fatal result
  · rw [body_fatal fatal]
    exact .inr ⟨done, unfinished, rfl⟩
  · rcases exists_body_eq fatal done with ⟨more, moved, _⟩
    rw [moved]
    exact loop_sound n (done + more)

theorem writen_sound
    (signed : n.toInt = (buffer.length : Int))
    (results : Nat → WriteResult) (calls : Nat) :
    Sound buffer n (writen buffer n results calls) := by
  have preserved :
      ∀ calls vars,
        writen buffer n results calls = .running vars →
          Sound buffer n (.running vars) →
            Sound buffer n (body buffer n vars (results calls)) :=
    fun calls _ _ sound => body_sound sound (results calls)
  refine statusAfter_invariant ?_ preserved (fun _ _ sound => sound) calls
  have start :
      ({ nleft := n.toInt, ptr := 0, sent := [] } : Vars) =
        partway buffer 0 := by
    simp [partway, signed]
  rw [start]
  exact loop_sound n 0

/-- While `writen` writes, some bytes are left. -/
theorem exists_partway_of_running
    (signed : n.toInt = (buffer.length : Int)) {calls : Nat} {vars : Vars}
    (running : writen buffer n results calls = .running vars) :
    ∃ done < buffer.length, vars = partway buffer done := by
  have here := writen_sound signed results calls
  rw [running] at here
  exact here

end Run

/-! ## The bytes from the pointer on -/

/-- What `Unp` knows of the loop. -/
def remaining (buffer : List (BitVec 8)) : Status Vars Return → Unp.Writen
  | .running vars => .writing (buffer.drop vars.ptr)
  | .returned result => .returned (result.value != -1)

section Remaining

variable {buffer : List (BitVec 8)} {n : BitVec 64}

theorem remaining_loop
    (signed : n.toInt = (buffer.length : Int)) (done : Nat) :
    remaining buffer (loop n (partway buffer done)) =
      writenLoop (buffer.drop done) := by
  rw [loop_partway, writenLoop, List.length_drop]
  by_cases unfinished : done < buffer.length
  · rw [if_pos unfinished, if_pos (by omega)]
    rfl
  · have success : n.toInt ≠ -1 := by
      omega
    rw [if_neg unfinished, if_neg (by omega)]
    show Unp.Writen.returned (n.toInt != -1) = _
    rw [bne_iff_ne.mpr success]

/-- The loop does what `Unp` says of the bytes from the pointer on. -/
theorem remaining_body
    (signed : n.toInt = (buffer.length : Int)) (done : Nat)
    (result : WriteResult) :
    remaining buffer (body buffer n (partway buffer done) result) =
      writenAfter (buffer.drop done) result := by
  by_cases fatal : Fatal result
  · rw [body_fatal fatal]
    cases result with
    | returned count =>
        have zero : count = 0 := fatal
        rw [writenAfter, if_pos zero]
        rfl
    | failed interrupted =>
        have other : interrupted = false := fatal
        rw [writenAfter, other]
        rfl
  · cases result with
    | returned count =>
        have nonzero : count ≠ 0 := fatal
        rw [body_written (Nat.pos_of_ne_zero nonzero), remaining_loop signed,
          writenAfter, if_neg nonzero, List.drop_drop]
    | failed interrupted =>
        rw [Fatal, Bool.not_eq_false] at fatal
        rw [fatal, body_interrupted, remaining_loop signed, writenAfter,
          if_pos rfl]

theorem remaining_writen
    (signed : n.toInt = (buffer.length : Int))
    {results : Nat → WriteResult} {calls : Nat} {vars : Vars}
    (running : writen buffer n results calls = .running vars) :
    remaining buffer (writen buffer n results (calls + 1)) =
      writenAfter (buffer.drop vars.ptr) (results calls) := by
  rcases exists_partway_of_running signed running with
    ⟨done, unfinished, rfl⟩
  rw [writen, statusAfter_succ_of_running running]
  exact remaining_body signed done (results calls)

end Remaining

/-! ## Correctness -/

end CodingExamples.EchoServer.Writen
