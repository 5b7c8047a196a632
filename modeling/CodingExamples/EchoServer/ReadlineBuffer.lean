import CodingExamples.EchoServer.Readn
import CodingExamples.Library.MachineCounter
import CodingExamples.Library.Memory

/-!
# The buffer of `readline`

`readline` compares a signed counter with an unsigned bound, and computes from
both what it asks the next call for.  Here the function runs on the integers
of the machine and on the memory that its caller has passed.  An access
outside of this memory ends the run.

The loop of `Unp` knows only the bytes that have been received.  An iteration
on the machine does what that loop does.
-/

namespace CodingExamples.EchoServer.ReadlineBuffer

open CodingExamples.EchoServer.Unp
  (ReadResult newline readlineAfter readlineLoop readlineRequest ssizeMax)
open CodingExamples.EchoServer.Readn
  (bytesOf receivedBy returnValue store_nil store_stored stored)
open CodingExamples.Library
open CodingExamples.Library.CallLoop
open CodingExamples.Library.MachineCounter

/-- `n` and `ptr`, and the memory that the caller has passed. -/
structure Vars where
  n : BitVec 64
  ptr : Nat
  buffer : List (BitVec 8)
deriving DecidableEq, Repr

/-- The returned value and the memory, or an access outside of it. -/
inductive Return where
  | value (n : BitVec 64) (buffer : List (BitVec 8))
  | outside
deriving DecidableEq, Repr

/-- `errno == EINTR` behind a call that failed. -/
def interrupted : ReadResult → Bool
  | .returned _ => false
  | .failed interrupted => interrupted

/-- The number of bytes that the next `read` asks for. -/
def request (maxlen : BitVec 64) (vars : Vars) : BitVec 64 :=
  maxlen - vars.n - 1

/-- `*ptr = 0; return n;`. -/
def finish (vars : Vars) : Status Vars Return :=
  match Memory.write vars.buffer vars.ptr [0] with
  | none => .returned .outside
  | some buffer => .returned (.value vars.n buffer)

/-- The loop condition, in which `n` is taken for an unsigned number. -/
def loop (maxlen : BitVec 64) (vars : Vars) : Status Vars Return :=
  if vars.n < maxlen - 1 then .running vars else finish vars

/-- The body of the loop. -/
def body (maxlen : BitVec 64) (vars : Vars) (result : ReadResult) :
    Status Vars Return :=
  -- `rc = read(fd, ptr, maxlen - n - 1)`
  let rc := BitVec.ofInt 64 (returnValue result)
  match Memory.write vars.buffer vars.ptr (bytesOf result) with
  | none => .returned .outside
  | some buffer =>
      if rc.toInt > 0 then
        let ptr := vars.ptr + rc.toNat
        let n := vars.n + rc
        match buffer[ptr - 1]? with
        | none => .returned .outside
        | some last =>
            if last = newline then
              finish ⟨n, ptr, buffer⟩
            else
              loop maxlen ⟨n, ptr, buffer⟩
      else if rc = 0 then
        finish { vars with buffer := buffer }
      else if ¬ interrupted result then
        .returned (.value (-1) buffer)
      else
        loop maxlen { vars with buffer := buffer }

/-- `readline(fd, ptr, maxlen)`. -/
def readline (buffer : List (BitVec 8)) (maxlen : BitVec 64)
    (results : Nat → ReadResult) : Nat → Status Vars Return :=
  statusAfter (body maxlen) (loop maxlen ⟨0, 0, buffer⟩) results

/-- No call returns more than it was asked for, or more than a `ssize_t`. -/
def Bounded (buffer : List (BitVec 8)) (maxlen : BitVec 64)
    (results : Nat → ReadResult) : Prop :=
  ∀ calls vars bytes,
    readline buffer maxlen results calls = .running vars →
      results calls = .returned bytes →
        bytes.length ≤ (request maxlen vars).toNat ∧
          bytes.length ≤ ssizeMax

/-! ## The variables -/

/-- The variables when some bytes have been received. -/
def partway (buffer received : List (BitVec 8)) : Vars where
  n := BitVec.ofNat 64 received.length
  ptr := received.length
  buffer := stored buffer received

/-- The state of `Unp` on the machine. -/
def resume (buffer received : List (BitVec 8)) :
    Unp.Readline → Status Vars Return
  | .reading bytes => .running (partway buffer bytes)
  | .returned line =>
      .returned
        (.value (BitVec.ofNat 64 line.length) (stored buffer (line ++ [0])))
  | .error => .returned (.value (-1) (stored buffer received))

section Variables

variable {buffer received : List (BitVec 8)} {maxlen : BitVec 64}

theorem length_stored (fits : received.length ≤ buffer.length) :
    (stored buffer received).length = buffer.length := by
  rw [stored, List.length_append, List.length_drop]
  omega

theorem take_stored (received more : List (BitVec 8)) :
    (stored buffer (received ++ more)).take received.length = received := by
  rw [stored, List.append_assoc, List.take_left]

theorem getElem?_stored (received : List (BitVec 8)) (byte : BitVec 8) :
    (stored buffer (received ++ [byte]))[received.length]? = some byte := by
  rw [stored, List.append_assoc, List.getElem?_append_right (Nat.le_refl _),
    Nat.sub_self]
  rfl

/-- The byte in front of the pointer. -/
theorem getElem?_stored_pred (nonempty : 0 < received.length) :
    (stored buffer received)[received.length - 1]? = received.getLast? := by
  rw [stored, List.getElem?_append_left (by omega), List.getLast?_eq_getElem?]

/-- Bytes for which there is room are stored behind the earlier ones. -/
theorem write_stored
    {bytes : List (BitVec 8)}
    (room : received.length + bytes.length ≤ buffer.length) :
    Memory.write (stored buffer received) received.length bytes =
      some (stored buffer (received ++ bytes)) := by
  rw [Memory.write_eq_some_iff, length_stored (by omega)]
  exact ⟨room, (store_stored bytes).symm⟩

/-- A call asks for all that fits in front of the terminator. -/
theorem toNat_request (room : received.length < maxlen.toNat - 1) :
    (request maxlen (partway buffer received)).toNat =
      readlineRequest maxlen.toNat received := by
  have bound := maxlen.isLt
  have count :
      (BitVec.ofNat 64 received.length).toNat = received.length :=
    toNat_ofNat_of_lt (show _ < maxlen.toNat by omega)
  rw [request, partway, readlineRequest, BitVec.toNat_sub, BitVec.toNat_sub,
    count]
  simp
  omega

theorem finish_partway
    (before : List (BitVec 8)) (room : received.length < buffer.length) :
    finish (partway buffer received) =
      resume buffer before (.returned received) := by
  have written :
      Memory.write (partway buffer received).buffer
          (partway buffer received).ptr [0] =
        some (stored buffer (received ++ [0])) :=
    write_stored room
  rw [finish, written]
  rfl

theorem loop_partway
    (before : List (BitVec 8)) (size : buffer.length = maxlen.toNat)
    (short : received.length < maxlen.toNat) :
    loop maxlen (partway buffer received) =
      resume buffer before (readlineLoop maxlen.toNat received) := by
  have condition :
      (partway buffer received).n < maxlen - 1 ↔
        received.length < maxlen.toNat - 1 :=
    ofNat_lt_sub_one_iff short
  rw [loop, readlineLoop]
  simp only [condition]
  split
  · rfl
  · exact finish_partway _ (by omega)

end Variables

/-! ## One call -/

section Call

variable {buffer received : List (BitVec 8)} {maxlen : BitVec 64}

/-- A call that returns no bytes stores none. -/
theorem write_nil (short : received.length ≤ buffer.length) :
    Memory.write (partway buffer received).buffer
        (partway buffer received).ptr [] =
      some (partway buffer received).buffer := by
  have nothing :
      Memory.write (stored buffer received) received.length [] =
        some (stored buffer (received ++ [])) :=
    write_stored short
  rw [List.append_nil] at nothing
  exact nothing

theorem body_failed
    (size : buffer.length = maxlen.toNat)
    (room : received.length < maxlen.toNat - 1) (interrupted : Bool) :
    body maxlen (partway buffer received) (.failed interrupted) =
      resume buffer received
        (readlineAfter maxlen.toNat received (.failed interrupted)) := by
  have short : received.length ≤ buffer.length := by
    omega
  have minusOne :
      BitVec.ofInt 64 (returnValue (.failed interrupted)) = -1 :=
    rfl
  have negative : ¬ (-1 : BitVec 64).toInt > 0 := by
    decide
  have nonzero : ¬ (-1 : BitVec 64) = 0 := by
    decide
  simp only [body, bytesOf, write_nil short, minusOne, if_neg negative,
    if_neg nonzero]
  cases interrupted with
  | true => exact loop_partway _ size (by omega)
  | false => rfl

theorem body_endOfFile
    (size : buffer.length = maxlen.toNat)
    (room : received.length < maxlen.toNat - 1) :
    body maxlen (partway buffer received) (.returned []) =
      resume buffer received
        (readlineAfter maxlen.toNat received (.returned [])) := by
  have short : received.length ≤ buffer.length := by
    omega
  have zero : BitVec.ofInt 64 (returnValue (.returned [])) = 0 := by
    decide
  have notPositive : ¬ (0 : BitVec 64).toInt > 0 := by
    decide
  simp only [body, bytesOf, write_nil short, zero, if_neg notPositive]
  exact finish_partway _ (by omega)

/-- The counter and the pointer move on by the number of bytes. -/
theorem partway_append (bytes : List (BitVec 8)) :
    partway buffer (received ++ bytes) =
      ⟨(partway buffer received).n + BitVec.ofNat 64 bytes.length,
        (partway buffer received).ptr + bytes.length,
        stored buffer (received ++ bytes)⟩ := by
  simp only [partway, List.length_append, BitVec.ofNat_add]

theorem body_received
    {bytes : List (BitVec 8)} (nonempty : 0 < bytes.length)
    (size : buffer.length = maxlen.toNat)
    (requested : bytes.length ≤ readlineRequest maxlen.toNat received)
    (fits : bytes.length ≤ ssizeMax) :
    body maxlen (partway buffer received) (.returned bytes) =
      resume buffer received
        (readlineAfter maxlen.toNat received (.returned bytes)) := by
  rw [readlineRequest] at requested
  have long : (received ++ bytes).length = received.length + bytes.length :=
    List.length_append
  have written :
      Memory.write (partway buffer received).buffer
          (partway buffer received).ptr (bytesOf (.returned bytes)) =
        some (stored buffer (received ++ bytes)) :=
    write_stored (show received.length + bytes.length ≤ _ by omega)
  have count :
      BitVec.ofInt 64 (returnValue (.returned bytes)) =
        BitVec.ofNat 64 bytes.length :=
    BitVec.ofInt_natCast 64 bytes.length
  have unsigned : (BitVec.ofNat 64 bytes.length).toNat = bytes.length :=
    toNat_ofNat_of_lt (show _ < maxlen.toNat by omega)
  have positive : (BitVec.ofNat 64 bytes.length).toInt > 0 := by
    rw [toInt_ofNat_of_lt (by rw [ssizeMax] at fits; omega)]
    exact Int.natCast_pos.mpr nonempty
  have last :
      (stored buffer (received ++ bytes))[
          (partway buffer received).ptr + bytes.length - 1]? =
        (received ++ bytes).getLast? := by
    show (stored _ _)[received.length + bytes.length - 1]? = _
    rw [← long]
    exact getElem?_stored_pred (by omega)
  simp only [body, written, count, if_pos positive, unsigned, last,
    ← partway_append, readlineAfter, if_pos nonempty]
  cases ends : (received ++ bytes).getLast? with
  | none =>
      rw [List.getLast?_eq_none_iff] at ends
      rw [ends, List.length_nil] at long
      omega
  | some byte =>
      simp only [Option.some.injEq]
      split
      · exact finish_partway _ (by omega)
      · exact loop_partway _ size (by omega)

/-- An iteration on the machine is one of `Unp`. -/
theorem body_partway
    {result : ReadResult} (size : buffer.length = maxlen.toNat)
    (room : received.length < maxlen.toNat - 1)
    (bounded :
      ∀ bytes, result = .returned bytes →
        bytes.length ≤ (request maxlen (partway buffer received)).toNat ∧
          bytes.length ≤ ssizeMax) :
    body maxlen (partway buffer received) result =
      resume buffer received
        (readlineAfter maxlen.toNat received result) := by
  cases result with
  | failed interrupted => exact body_failed size room interrupted
  | returned bytes =>
      rcases bounded bytes rfl with ⟨requested, fits⟩
      rw [toNat_request room] at requested
      rcases Nat.eq_zero_or_pos bytes.length with empty | nonempty
      · rw [List.length_eq_zero_iff] at empty
        subst empty
        exact body_endOfFile size room
      · exact body_received nonempty size requested fits

end Call

/-! ## Runs -/

/-- What an iteration can do with the bytes that it has received. -/
theorem readlineAfter_cases
    (maxlen : Nat) (received : List (BitVec 8)) (result : ReadResult) :
    result = .failed false ∧
        readlineAfter maxlen received result = .error ∨
      readlineAfter maxlen received result =
          .returned (received ++ bytesOf result) ∨
      readlineAfter maxlen received result =
          .reading (received ++ bytesOf result) ∧
        (received ++ bytesOf result).length < maxlen - 1 ∧
        (result = .failed true ∨ 0 < (bytesOf result).length) := by
  have loop (more : List (BitVec 8)) :
      readlineLoop maxlen (received ++ more) = .returned (received ++ more) ∨
        readlineLoop maxlen (received ++ more) = .reading (received ++ more) ∧
          (received ++ more).length < maxlen - 1 := by
    rw [readlineLoop]
    split
    · case isTrue room => exact .inr ⟨rfl, room⟩
    · exact .inl rfl
  cases result with
  | failed interrupted =>
      cases interrupted with
      | false => exact .inl ⟨rfl, rfl⟩
      | true =>
          right
          rcases loop [] with full | ⟨reading, room⟩
          · rw [List.append_nil] at full
            rw [bytesOf, List.append_nil]
            exact .inl full
          · rw [List.append_nil] at reading room
            rw [bytesOf, List.append_nil]
            exact .inr ⟨reading, room, .inl rfl⟩
  | returned bytes =>
      right
      rw [readlineAfter, bytesOf]
      by_cases nonempty : bytes.length > 0
      · rw [if_pos nonempty]
        split
        · exact .inl rfl
        · rcases loop bytes with full | ⟨reading, room⟩
          · exact .inl full
          · exact .inr ⟨reading, room, .inr nonempty⟩
      · have empty : bytes = [] := List.eq_nil_of_length_eq_zero (by omega)
        rw [if_neg nonempty, empty, List.append_nil]
        exact .inl rfl

section Run

variable {buffer : List (BitVec 8)} {maxlen : BitVec 64}
  {results : Nat → ReadResult}

theorem readline_zero
    (positive : 1 ≤ maxlen.toNat) (size : buffer.length = maxlen.toNat) :
    readline buffer maxlen results 0 =
      resume buffer [] (readlineLoop maxlen.toNat []) := by
  have start : partway buffer [] = ⟨0, 0, buffer⟩ := rfl
  rw [readline, statusAfter, ← start]
  exact loop_partway [] size positive

/-- While `readline` reads, the counter and the pointer belong together. -/
theorem running_eq
    (positive : 1 ≤ maxlen.toNat) (size : buffer.length = maxlen.toNat)
    (bounded : Bounded buffer maxlen results) {calls : Nat} {vars : Vars}
    (running : readline buffer maxlen results calls = .running vars) :
    vars = partway buffer (receivedBy results calls) ∧
      (receivedBy results calls).length < maxlen.toNat - 1 := by
  refine
    running_invariant
      (fun calls vars =>
        vars = partway buffer (receivedBy results calls) ∧
          (receivedBy results calls).length < maxlen.toNat - 1)
      ?_ ?_ running
  · intro vars first
    have start : readline buffer maxlen results 0 = .running vars := first
    rw [readline_zero positive size, readlineLoop] at start
    split at start
    · case isTrue room =>
        cases start
        exact ⟨rfl, room⟩
    · cases start
  · rintro calls vars next runs ⟨rfl, room⟩ step
    rw [body_partway size room fun bytes => bounded calls _ bytes runs] at step
    rcases
        readlineAfter_cases maxlen.toNat (receivedBy results calls)
          (results calls) with
      ⟨_, failed⟩ | returned | ⟨reading, more, _⟩
    · rw [failed] at step
      cases step
    · rw [returned] at step
      cases step
    · rw [reading] at step
      cases step
      exact ⟨rfl, more⟩

/-- What a call does that is made. -/
theorem body_of_running
    (positive : 1 ≤ maxlen.toNat) (size : buffer.length = maxlen.toNat)
    (bounded : Bounded buffer maxlen results) {calls : Nat} {vars : Vars}
    (running : readline buffer maxlen results calls = .running vars) :
    body maxlen vars (results calls) =
      resume buffer (receivedBy results calls)
        (readlineAfter maxlen.toNat (receivedBy results calls)
          (results calls)) := by
  rcases running_eq positive size bounded running with ⟨rfl, room⟩
  exact body_partway size room fun bytes => bounded calls _ bytes running

theorem exists_readline_returns
    (positive : 1 ≤ maxlen.toNat) (size : buffer.length = maxlen.toNat)
    (bounded : Bounded buffer maxlen results)
    (busy : ∀ calls, ∃ later ≥ calls, results later ≠ .failed true) :
    ∃ calls result,
      Returns (body maxlen) (loop maxlen ⟨0, 0, buffer⟩) results calls
        result := by
  have step {calls : Nat} {vars next : Vars}
      (running : readline buffer maxlen results calls = .running vars)
      (reply : body maxlen vars (results calls) = .running next) :
      next.ptr = vars.ptr + (bytesOf (results calls)).length ∧
        next.ptr < maxlen.toNat := by
    have after : readline buffer maxlen results (calls + 1) = .running next :=
      (statusAfter_succ_of_running running).trans reply
    rcases running_eq positive size bounded running with ⟨rfl, _⟩
    rcases running_eq positive size bounded after with ⟨rfl, room⟩
    simp only [partway]
    rw [receivedBy, List.length_append] at room ⊢
    exact ⟨rfl, by omega⟩
  apply exists_returns (fun vars => maxlen.toNat - vars.ptr)
    (· = .failed true) _ _ busy
  · intro calls vars next running awake reply
    have moved := step running reply
    rw [body_of_running positive size bounded running] at reply
    rcases
        readlineAfter_cases maxlen.toNat (receivedBy results calls)
          (results calls) with
      ⟨_, failed⟩ | returned | ⟨_, _, idle | more⟩
    · rw [failed] at reply
      cases reply
    · rw [returned] at reply
      cases reply
    · exact absurd idle awake
    · omega
  · intro calls vars next running idle reply
    have moved := step running reply
    omega

/-- A call that is made leaves room for the terminator. -/
theorem length_receivedBy_le
    (positive : 1 ≤ maxlen.toNat) (size : buffer.length = maxlen.toNat)
    (bounded : Bounded buffer maxlen results) {calls : Nat} {vars : Vars}
    (running : readline buffer maxlen results calls = .running vars) :
    (receivedBy results (calls + 1)).length ≤ maxlen.toNat - 1 := by
  rcases running_eq positive size bounded running with ⟨rfl, room⟩
  rw [receivedBy, List.length_append]
  cases result : results calls with
  | failed interrupted =>
      rw [bytesOf, List.length_nil]
      omega
  | returned bytes =>
      have requested := (bounded calls _ bytes running result).1
      rw [toNat_request room, readlineRequest] at requested
      rw [bytesOf]
      omega

end Run

/-! ## The returned line -/

/-- The received bytes stand at the start of the buffer, and a zero follows. -/
structure Stored (buffer : List (BitVec 8)) (maxlen : BitVec 64)
    (n : BitVec 64) (received : List (BitVec 8)) : Prop where
  short : n.toNat ≤ maxlen.toNat - 1
  bytes : buffer.take n.toNat = received
  terminated : buffer[n.toNat]? = some 0

section Line

variable {buffer line : List (BitVec 8)} {maxlen : BitVec 64}

theorem length_stored_line
    (positive : 1 ≤ maxlen.toNat) (size : buffer.length = maxlen.toNat)
    (short : line.length ≤ maxlen.toNat - 1) :
    (stored buffer (line ++ [0])).length = maxlen.toNat := by
  have fits : (line ++ [0]).length ≤ buffer.length := by
    rw [List.length_append, List.length_singleton]
    omega
  rw [length_stored fits, size]

theorem stored_line
    (positive : 1 ≤ maxlen.toNat) (size : buffer.length = maxlen.toNat)
    (short : line.length ≤ maxlen.toNat - 1) :
    Stored (stored buffer (line ++ [0])) maxlen
      (BitVec.ofNat 64 line.length) line := by
  have count : (BitVec.ofNat 64 line.length).toNat = line.length :=
    toNat_ofNat_of_lt (show _ < maxlen.toNat by omega)
  constructor
  case short => rw [count]; exact short
  case bytes => rw [count]; exact take_stored line [0]
  case terminated => rw [count]; exact getElem?_stored line 0

/-- The length of a line with room for its terminator is no error. -/
theorem toInt_ofNat_length_ne
    (positive : 1 ≤ maxlen.toNat) (short : line.length ≤ maxlen.toNat - 1) :
    (BitVec.ofNat 64 line.length).toInt ≠ -1 := by
  have count : (BitVec.ofNat 64 line.length).toNat = line.length :=
    toNat_ofNat_of_lt (show _ < maxlen.toNat by omega)
  have bound := maxlen.isLt
  rw [BitVec.toInt_eq_toNat_cond, count]
  split <;> omega

/-- What is said of the returned value holds of a line. -/
theorem answer_of_line
    {failure : Prop} (positive : 1 ≤ maxlen.toNat)
    (size : buffer.length = maxlen.toNat)
    (short : line.length ≤ maxlen.toNat - 1) :
    (stored buffer (line ++ [0])).length = maxlen.toNat ∧
      (0 ≤ (BitVec.ofNat 64 line.length).toInt →
        Stored (stored buffer (line ++ [0])) maxlen
          (BitVec.ofNat 64 line.length) line) ∧
      ((BitVec.ofNat 64 line.length).toInt = -1 → failure) := by
  refine ⟨length_stored_line positive size short, ?_, ?_⟩
  · exact fun _ => stored_line positive size short
  · intro error
    exact absurd error (toInt_ofNat_length_ne positive short)

end Line

/--
For every buffer that has at least one byte, and for all results of the calls
that come back at some time and do not exceed the request, `readline` returns
and does not access anything outside of the buffer.  If the value is not
negative, it counts the bytes of all calls, which are stored one behind the
other with a zero at the end.  The value is -1 only behind a call that failed
and was not interrupted.
-/
theorem readline_within_buffer
    (buffer : List (BitVec 8)) (maxlen : BitVec 64)
    (positive : 1 ≤ maxlen.toNat) (size : buffer.length = maxlen.toNat)
    (results : Nat → ReadResult) (bounded : Bounded buffer maxlen results)
    (busy : ∀ calls, ∃ later ≥ calls, results later ≠ .failed true) :
    ∃ calls n final,
      Returns (body maxlen) (loop maxlen ⟨0, 0, buffer⟩) results calls
          (.value n final) ∧
        final.length = maxlen.toNat ∧
        (0 ≤ n.toInt → Stored final maxlen n (receivedBy results calls)) ∧
        (n.toInt = -1 →
          ∃ last, last + 1 = calls ∧ results last = .failed false) := by
  rcases exists_readline_returns positive size bounded busy with
    ⟨calls, result, returns⟩
  cases calls with
  | zero =>
      have start : readline buffer maxlen results 0 = .returned result :=
        returns.returned
      rw [readline_zero positive size, readlineLoop] at start
      split at start
      · cases start
      · cases start
        have short : ([] : List (BitVec 8)).length ≤ maxlen.toNat - 1 :=
          Nat.zero_le _
        exact ⟨0, _, _, returns, answer_of_line positive size short⟩
  | succ last =>
      rcases returns.last with ⟨vars, running, step⟩
      have short := length_receivedBy_le positive size bounded running
      have long : (receivedBy results last).length ≤ buffer.length := by
        rw [receivedBy, List.length_append] at short
        omega
      rw [body_of_running positive size bounded running] at step
      rcases
          readlineAfter_cases maxlen.toNat (receivedBy results last)
            (results last) with
        ⟨failure, failed⟩ | returned | ⟨reading, _⟩
      · rw [failed] at step
        cases step
        refine ⟨last + 1, _, _, returns, ?_, ?_, ?_⟩
        · rw [length_stored long, size]
        · intro counted
          exact absurd counted (by decide)
        · exact fun _ => ⟨last, rfl, failure⟩
      · rw [returned] at step
        cases step
        exact ⟨last + 1, _, _, returns, answer_of_line positive size short⟩
      · rw [reading] at step
        cases step

/-- Two bytes, a call that is interrupted, the newline and nothing more. -/
def greeting : Nat → ReadResult
  | 0 => .returned [104, 105]
  | 1 => .failed true
  | 2 => .returned [10]
  | _ + 3 => .returned []

theorem readline_within_buffer_greeting :
    ∃ calls n final,
      Returns (body 8) (loop 8 ⟨0, 0, List.replicate 8 255⟩) greeting calls
          (.value n final) ∧
        final.length = (8 : BitVec 64).toNat ∧
        (0 ≤ n.toInt → Stored final 8 n (receivedBy greeting calls)) ∧
        (n.toInt = -1 →
          ∃ last, last + 1 = calls ∧ greeting last = .failed false) := by
  apply readline_within_buffer (List.replicate 8 255) 8 (by decide) rfl
  · intro calls vars bytes running returned
    match calls with
    | 0 =>
        cases running
        cases returned
        decide
    | 1 => cases returned
    | 2 =>
        have second :
            readline (List.replicate 8 255) 8 greeting 2 =
              .running ⟨2, 2, [104, 105, 255, 255, 255, 255, 255, 255]⟩ := by
          decide
        rw [second] at running
        cases running
        cases returned
        decide
    | calls + 3 =>
        have third :
            readline (List.replicate 8 255) 8 greeting 3 =
              .returned (.value 3 [104, 105, 10, 0, 255, 255, 255, 255]) := by
          decide
        have later := returned_of_le (Nat.le_add_left 3 calls) third
        rw [readline, later] at running
        cases running
  · intro calls
    refine ⟨calls + 2, Nat.le_add_right calls 2, ?_⟩
    cases calls with
    | zero => decide
    | succ calls => exact fun same => by cases same

end CodingExamples.EchoServer.ReadlineBuffer
