import CodingExamples.EchoServer.Unp
import CodingExamples.Library.CallLoop

/-!
# `readn`

`readn` is meant to be the counterpart of `writen`, but the test for a call
that was interrupted assigns to `errno` and is therefore always passed.  Every
failing call is repeated, and the value -1 is never returned.

The main theorem says for which arguments and results of the calls `readn`
does what its comments say.
-/

namespace CodingExamples.EchoServer.Readn

open CodingExamples.EchoServer.Unp (ReadResult ssizeMax)
open CodingExamples.Library.CallLoop

/-- `nleft` and `ptr`, and the memory that the caller has passed. -/
structure Vars where
  nleft : Int
  ptr : Nat
  buffer : List (BitVec 8)
deriving DecidableEq, Repr

/-- The returned value and the memory. -/
structure Return where
  value : Int
  buffer : List (BitVec 8)
deriving DecidableEq, Repr

/-- `EINTR`. -/
def eintr : Int := 4

/-- `return n - nleft`. -/
def finish (n : BitVec 64) (vars : Vars) : Return where
  value := (n - BitVec.ofInt 64 vars.nleft).toInt
  buffer := vars.buffer

/-- The loop condition, and the `return` behind the loop. -/
def loop (n : BitVec 64) (vars : Vars) : Status Vars Return :=
  if vars.nleft > 0 then .running vars else .returned (finish n vars)

/-- What `read` returned. -/
def returnValue : ReadResult → Int
  | .returned bytes => bytes.length
  | .failed _ => -1

/-- The bytes that `read` stores. -/
def bytesOf : ReadResult → List (BitVec 8)
  | .returned bytes => bytes
  | .failed _ => []

/-- `read` stores bytes from a pointer on. -/
def store (buffer : List (BitVec 8)) (ptr : Nat)
    (bytes : List (BitVec 8)) : List (BitVec 8) :=
  buffer.take ptr ++ (bytes ++ buffer.drop (ptr + bytes.length))

/-- The body of the loop. -/
def body (n : BitVec 64) (vars : Vars) (result : ReadResult) :
    Status Vars Return :=
  let nread := returnValue result
  let vars :=
    { vars with buffer := store vars.buffer vars.ptr (bytesOf result) }
  if nread < 0 then
    -- `if (errno = EINTR)`
    let errno := eintr
    if errno ≠ 0 then
      -- `nread = 0`, and on to the end of the body.
      loop n { vars with nleft := vars.nleft - 0, ptr := vars.ptr + 0 }
    else
      .returned ⟨-1, vars.buffer⟩
  else if nread = 0 then
    .returned (finish n vars)
  else
    loop n
      { vars with
        nleft := vars.nleft - nread
        ptr := vars.ptr + nread.toNat }

/-- `readn(fd, ptr, n)`. -/
def readn (buffer : List (BitVec 8)) (n : BitVec 64)
    (results : Nat → ReadResult) : Nat → Status Vars Return :=
  statusAfter (body n)
    (loop n { nleft := n.toInt, ptr := 0, buffer := buffer }) results

/-! ## What `readn` is meant to do -/

/-- The memory when some bytes have been received into it. -/
def stored (buffer received : List (BitVec 8)) : List (BitVec 8) :=
  received ++ buffer.drop received.length

/-- The variables when some bytes have been received. -/
def partway (buffer : List (BitVec 8)) (n : BitVec 64)
    (received : List (BitVec 8)) : Vars where
  nleft := (n.toNat : Int) - received.length
  ptr := received.length
  buffer := stored buffer received

/--
The received bytes are stored one behind the other.  A call that is interrupted
is repeated; any other failure ends the function with -1, and the end of the
file with the number of bytes so far.
-/
structure Documented (buffer : List (BitVec 8)) (n : BitVec 64)
    (results : Nat → ReadResult) : Prop where
  start :
    readn buffer n results 0 =
      if n = 0 then
        .returned ⟨0, buffer⟩
      else
        .running (partway buffer n [])
  interrupted :
    ∀ calls received,
      readn buffer n results calls = .running (partway buffer n received) →
        results calls = .failed true →
          readn buffer n results (calls + 1) =
            .running (partway buffer n received)
  failed :
    ∀ calls received,
      readn buffer n results calls = .running (partway buffer n received) →
        results calls = .failed false →
          readn buffer n results (calls + 1) =
            .returned ⟨-1, stored buffer received⟩
  endOfFile :
    ∀ calls received,
      readn buffer n results calls = .running (partway buffer n received) →
        results calls = .returned [] →
          readn buffer n results (calls + 1) =
            .returned ⟨received.length, stored buffer received⟩
  received :
    ∀ calls received bytes,
      readn buffer n results calls = .running (partway buffer n received) →
        bytes ≠ [] → results calls = .returned bytes →
          readn buffer n results (calls + 1) =
            if (received ++ bytes).length = n.toNat then
              .returned ⟨n.toNat, stored buffer (received ++ bytes)⟩
            else
              .running (partway buffer n (received ++ bytes))

/-- `read` does not return more than it was asked for. -/
def Bounded (buffer : List (BitVec 8)) (n : BitVec 64)
    (results : Nat → ReadResult) : Prop :=
  ∀ calls vars bytes,
    readn buffer n results calls = .running vars →
      results calls = .returned bytes → (bytes.length : Int) ≤ vars.nleft

/-- The bytes that a number of calls have returned. -/
def receivedBy (results : Nat → ReadResult) : Nat → List (BitVec 8)
  | 0 => []
  | calls + 1 => receivedBy results calls ++ bytesOf (results calls)

/-- After a number of calls, neither `n` bytes nor the end has been read. -/
structure Unfinished (n : BitVec 64) (results : Nat → ReadResult)
    (calls : Nat) : Prop where
  left : (receivedBy results calls).length < n.toNat
  noEnd : ∀ earlier < calls, results earlier ≠ .returned []

/-! ## One call -/

section Call

variable {buffer received : List (BitVec 8)} {n : BitVec 64}

theorem store_stored (bytes : List (BitVec 8)) :
    store (stored buffer received) received.length bytes =
      stored buffer (received ++ bytes) := by
  rw [store, stored, stored, List.take_left, List.drop_append,
    List.drop_drop, List.length_append]
  simp

/-- A call that returns no bytes stores none. -/
theorem store_nil (buffer : List (BitVec 8)) (ptr : Nat) :
    store buffer ptr [] = buffer := by
  simp [store]

/-- The value that is returned with some bytes. -/
theorem finish_partway
    (fits : n.toNat ≤ ssizeMax) (short : received.length ≤ n.toNat) :
    finish n (partway buffer n received) =
      ⟨received.length, stored buffer received⟩ := by
  rw [ssizeMax] at fits
  have left :
      (n.toNat : Int) - received.length =
        (n.toNat - received.length : Nat) := by
    omega
  have count :
      (n - BitVec.ofInt 64 ((n.toNat : Int) - received.length)).toNat =
        received.length := by
    rw [left, BitVec.ofInt_natCast, BitVec.toNat_sub, BitVec.toNat_ofNat]
    omega
  have value :
      (n - BitVec.ofInt 64 ((n.toNat : Int) - received.length)).toInt =
        received.length := by
    rw [BitVec.toInt_eq_toNat_of_lt (by omega), count]
  rw [finish, partway, value]

theorem loop_partway (n : BitVec 64) (received : List (BitVec 8)) :
    loop n (partway buffer n received) =
      if received.length < n.toNat then
        .running (partway buffer n received)
      else
        .returned (finish n (partway buffer n received)) := by
  have condition :
      (partway buffer n received).nleft > 0 ↔ received.length < n.toNat := by
    show (n.toNat : Int) - received.length > 0 ↔ _
    omega
  rw [loop]
  simp only [condition]

/-- Any failure is taken for one that was interrupted. -/
theorem body_failed (interrupted : Bool) :
    body n (partway buffer n received) (.failed interrupted) =
      loop n (partway buffer n received) := by
  simp [body, returnValue, bytesOf, eintr, partway, store_nil]

theorem body_endOfFile
    (fits : n.toNat ≤ ssizeMax) (short : received.length ≤ n.toNat) :
    body n (partway buffer n received) (.returned []) =
      .returned ⟨received.length, stored buffer received⟩ := by
  rw [← finish_partway fits short]
  simp [body, returnValue, bytesOf, partway, store_nil]

theorem body_received {bytes : List (BitVec 8)} (nonempty : bytes ≠ []) :
    body n (partway buffer n received) (.returned bytes) =
      loop n (partway buffer n (received ++ bytes)) := by
  have positive := List.length_pos_iff.mpr nonempty
  have advanced :
      ({ nleft := (partway buffer n received).nleft - bytes.length
         ptr := (partway buffer n received).ptr + bytes.length
         buffer :=
           store (partway buffer n received).buffer
             (partway buffer n received).ptr bytes } : Vars) =
        partway buffer n (received ++ bytes) := by
    have left :
        (n.toNat : Int) - received.length - bytes.length =
          (n.toNat : Int) - (received.length + bytes.length : Nat) := by
      omega
    simp only [partway, store_stored, List.length_append, left]
  have notNegative : ¬ (bytes.length : Int) < 0 := by
    omega
  have notEmpty : ¬ (bytes.length : Int) = 0 := by
    omega
  simp only [body, returnValue, bytesOf, if_neg notNegative, if_neg notEmpty,
    Int.toNat_natCast, advanced]

end Call

/-! ## Runs -/

section Run

variable {buffer : List (BitVec 8)} {n : BitVec 64}
  {results : Nat → ReadResult}

theorem readn_zero (fits : n.toNat ≤ ssizeMax) :
    readn buffer n results 0 = loop n (partway buffer n []) := by
  have signed : n.toInt = n.toNat := by
    apply BitVec.toInt_eq_toNat_of_lt
    rw [ssizeMax] at fits
    omega
  rw [readn, statusAfter, signed]
  simp [partway, stored]

/-- While there is something left to read, `readn` reads. -/
theorem readn_of_unfinished
    (buffer : List (BitVec 8)) (fits : n.toNat ≤ ssizeMax) {calls : Nat}
    (unfinished : Unfinished n results calls) :
    readn buffer n results calls =
      .running (partway buffer n (receivedBy results calls)) := by
  induction calls with
  | zero =>
      rw [readn_zero fits, loop_partway]
      exact if_pos unfinished.left
  | succ calls ih =>
      have before : Unfinished n results calls :=
        { left := by
            have left := unfinished.left
            rw [receivedBy, List.length_append] at left
            omega
          noEnd := fun earlier below =>
            unfinished.noEnd earlier (Nat.lt_succ_of_lt below) }
      have status := statusAfter_succ_of_running (ih before)
      have left := unfinished.left
      rw [readn, status, receivedBy]
      rw [receivedBy] at left
      cases result : results calls with
      | failed interrupted =>
          rw [result] at left
          rw [body_failed, loop_partway, bytesOf, List.append_nil]
          rw [bytesOf, List.append_nil] at left
          exact if_pos left
      | returned bytes =>
          rw [result] at left
          have nonempty : bytes ≠ [] := by
            rintro rfl
            exact unfinished.noEnd calls (Nat.lt_succ_self calls) result
          rw [body_received nonempty, loop_partway]
          exact if_pos left

/-- A call behind which there is another one. -/
theorem Unfinished.next
    {calls : Nat} {vars : Vars} (unfinished : Unfinished n results calls)
    (fits : n.toNat ≤ ssizeMax)
    (step :
      body n (partway buffer n (receivedBy results calls))
          (results calls) =
        .running vars) :
    Unfinished n results (calls + 1) := by
  have noEnd : results calls ≠ .returned [] := by
    intro last
    rw [last, body_endOfFile fits (Nat.le_of_lt unfinished.left)] at step
    cases step
  refine ⟨?_, ?_⟩
  · rw [receivedBy]
    cases result : results calls with
    | failed interrupted =>
        rw [bytesOf, List.append_nil]
        exact unfinished.left
    | returned bytes =>
        have nonempty : bytes ≠ [] := by
          rintro rfl
          exact noEnd result
        rw [result, body_received nonempty, loop_partway] at step
        split at step
        · case isTrue left => exact left
        · cases step
  · exact Nat.forall_lt_succ_right.mpr ⟨unfinished.noEnd, noEnd⟩

/-- While `readn` reads, there is something left to read. -/
theorem unfinished_of_running
    (fits : n.toNat ≤ ssizeMax) {calls : Nat} {vars : Vars}
    (running : readn buffer n results calls = .running vars) :
    Unfinished n results calls := by
  refine running_invariant (fun calls _ => Unfinished n results calls) ?_ ?_
    running
  · intro vars first
    have start : readn buffer n results 0 = .running vars := first
    rw [readn_zero fits, loop_partway] at start
    split at start
    · case isTrue left => exact ⟨left, by intro earlier below; omega⟩
    · cases start
  · intro calls vars next runs unfinished step
    have same :=
      runs.symm.trans (readn_of_unfinished buffer fits unfinished)
    cases same
    exact unfinished.next fits step

/-- A run with the variables of some received bytes. -/
theorem length_lt_of_running
    (fits : n.toNat ≤ ssizeMax) {calls : Nat} {received : List (BitVec 8)}
    (running :
      readn buffer n results calls = .running (partway buffer n received)) :
    received.length < n.toNat := by
  have unfinished := unfinished_of_running fits running
  rw [readn_of_unfinished _ fits unfinished, Status.running.injEq] at running
  have counts := congrArg Vars.ptr running
  change (receivedBy results calls).length = received.length at counts
  rw [← counts]
  exact unfinished.left

end Run

/-! ## When the documentation is right -/

/-- The size is a positive `ssize_t`, or zero, if the first call is made. -/
theorem Documented.fits
    {buffer : List (BitVec 8)} {n : BitVec 64} {results : Nat → ReadResult}
    (documented : Documented buffer n results) : n.toNat ≤ ssizeMax := by
  by_contra large
  rw [ssizeMax] at large
  have negative : ¬ n.toInt > 0 := by
    rw [BitVec.toInt_eq_toNat_cond]
    have := n.isLt
    split <;> omega
  have nonzero : n ≠ 0 := by
    rintro rfl
    exact large (by decide)
  have start := documented.start
  rw [if_neg nonzero, readn, statusAfter, loop, if_neg negative] at start
  cases start

/--
For every buffer and size and all results of the calls, `readn` does what its
comments say exactly if the size is an `ssize_t` and no call fails that was
not interrupted, up to the end of the file or the last of the bytes.
-/
theorem documented_iff
    (buffer : List (BitVec 8)) (n : BitVec 64) (results : Nat → ReadResult)
    (bounded : Bounded buffer n results) :
    Documented buffer n results ↔
      n.toNat ≤ ssizeMax ∧
        ∀ calls, Unfinished n results calls →
          results calls ≠ .failed false := by
  constructor
  · intro documented
    have fits := documented.fits
    refine ⟨fits, fun calls unfinished failure => ?_⟩
    have running := readn_of_unfinished buffer fits unfinished
    have returned := documented.failed calls _ running failure
    rw [readn, statusAfter_succ_of_running running, failure, body_failed,
      loop_partway, if_pos unfinished.left] at returned
    cases returned
  · rintro ⟨fits, noFailure⟩
    have step {calls : Nat} {vars : Vars}
        (running : readn buffer n results calls = .running vars) :
        readn buffer n results (calls + 1) = body n vars (results calls) :=
      statusAfter_succ_of_running running
    constructor
    case start =>
      rw [readn_zero fits, loop_partway]
      by_cases nothing : n = 0
      · subst nothing
        simp [finish, partway, stored]
      · have positive : 0 < n.toNat := by
          apply Nat.pos_of_ne_zero
          intro zero
          exact nothing (BitVec.eq_of_toNat_eq zero)
        rw [if_neg nothing]
        exact if_pos positive
    case interrupted =>
      intro calls received running interrupted
      rw [step running, interrupted, body_failed, loop_partway]
      exact if_pos (length_lt_of_running fits running)
    case failed =>
      intro calls received running failure
      exact absurd failure
        (noFailure calls (unfinished_of_running fits running))
    case endOfFile =>
      intro calls received running last
      rw [step running, last]
      exact
        body_endOfFile fits (Nat.le_of_lt (length_lt_of_running fits running))
    case received =>
      intro calls received bytes running nonempty returned
      have requested :
          (bytes.length : Int) ≤ (n.toNat : Int) - received.length :=
        bounded calls _ bytes running returned
      have short : (received ++ bytes).length ≤ n.toNat := by
        have left := length_lt_of_running fits running
        rw [List.length_append]
        omega
      rw [step running, returned, body_received nonempty, loop_partway,
        finish_partway fits short]
      by_cases whole : (received ++ bytes).length = n.toNat
      · rw [if_neg (by omega), if_pos whole, whole]
      · rw [if_pos (by omega), if_neg whole]

/-- Two bytes arrive, and then the end of the file. -/
def truncated (calls : Nat) : ReadResult :=
  if calls = 0 then .returned [104, 105] else .returned []

theorem documented_iff_truncated :
    Documented [0, 0, 0] 3 truncated ↔
      (3 : BitVec 64).toNat ≤ ssizeMax ∧
        ∀ calls, Unfinished 3 truncated calls →
          truncated calls ≠ .failed false := by
  apply documented_iff
  intro calls vars bytes running returned
  have fits : (3 : BitVec 64).toNat ≤ ssizeMax := by
    decide
  have unfinished := unfinished_of_running fits running
  rw [readn_of_unfinished _ fits unfinished, Status.running.injEq] at running
  subst running
  match calls with
  | 0 =>
      cases returned
      decide
  | 1 =>
      cases returned
      decide
  | calls + 2 =>
      have last := unfinished.noEnd 1 (by omega)
      exact absurd rfl last

/-- Every call fails, and none of them was interrupted. -/
def refused (_calls : Nat) : ReadResult :=
  .failed false

/-- A dead connection is read again and again. -/
theorem exists_not_documented :
    ¬ ∀ (buffer : List (BitVec 8)) (n : BitVec 64)
        (results : Nat → ReadResult),
        n.toNat ≤ ssizeMax → Bounded buffer n results →
          Documented buffer n results := by
  intro always
  have bounded : Bounded [0] 1 refused := by
    intro calls vars bytes _ returned
    cases returned
  have documented := always [0] 1 refused (by decide) bounded
  have returned := documented.failed 0 [] rfl rfl
  cases returned

end CodingExamples.EchoServer.Readn
