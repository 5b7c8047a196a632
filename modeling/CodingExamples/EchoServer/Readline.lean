import CodingExamples.EchoServer.Unp
import CodingExamples.Library.CallLoop

/-!
# `readline` and the segments of a stream

`readline` asks for all that still fits into its buffer, and looks for the
newline in the last byte of what it has received.  A newline in the middle of
a segment is not seen, and the bytes behind it belong to the returned line.

The next line of a stream is what `takeLine` cuts off.  The main theorem says
which segments make `readline` return it.
-/

namespace CodingExamples.EchoServer.Readline

open CodingExamples.EchoServer.Unp
  (ReadResult newline readlineAfter readlineLoop readlineRequest takeLine
    takeLine_append takeLine_closed takeLine_complete length_takeLine_le)
open CodingExamples.Library.CallLoop

/-- A call is interrupted, or there are some bytes to be read. -/
inductive Segment where
  | interrupted
  | available (count : Nat) (positive : 0 < count)

/-- The stored bytes, and the part of the stream that is not read. -/
structure Vars where
  stored : List (BitVec 8)
  unread : List (BitVec 8)
deriving DecidableEq, Repr

/-- The returned line, if there was no error, and the rest of the stream. -/
structure Return where
  line : Option (List (BitVec 8))
  unread : List (BitVec 8)
deriving DecidableEq, Repr

/-- Before the next call or behind the return. -/
def resume (unread : List (BitVec 8)) : Unp.Readline → Status Vars Return
  | .reading stored => .running ⟨stored, unread⟩
  | .returned line => .returned ⟨some line, unread⟩
  | .error => .returned ⟨none, unread⟩

/-- What `read` returns, and the part of the stream that it leaves. -/
def read (request : Nat) (unread : List (BitVec 8)) :
    Segment → ReadResult × List (BitVec 8)
  | .interrupted => (.failed true, unread)
  | .available count _ =>
      (.returned (unread.take (min count request)),
        unread.drop (min count request))

/-- The body of the loop. -/
def body (maxlen : Nat) (vars : Vars) (segment : Segment) :
    Status Vars Return :=
  let (result, unread) :=
    read (readlineRequest maxlen vars.stored) vars.unread segment
  resume unread (readlineAfter maxlen vars.stored result)

/-- `readline(fd, ptr, maxlen)`, on a stream that comes in segments. -/
def readline (maxlen : Nat) (input : List (BitVec 8))
    (segments : Nat → Segment) : Nat → Status Vars Return :=
  statusAfter (body maxlen) (resume input (readlineLoop maxlen [])) segments

/-- `readline` returns the next line of the stream and reads no more of it. -/
def ReadsLine (maxlen : Nat) (input : List (BitVec 8))
    (segments : Nat → Segment) : Prop :=
  ∃ calls,
    Returns (body maxlen) (resume input (readlineLoop maxlen [])) segments
      calls
      ⟨some (takeLine (maxlen - 1) input).1, (takeLine (maxlen - 1) input).2⟩

/-- The end of a segment, if the buffer and the stream do not end before. -/
def advance (maxlen : Nat) (input : List (BitVec 8)) (done count : Nat) :
    Nat :=
  min (done + count) (min (maxlen - 1) input.length)

/-- The ends of the segments. -/
def position (maxlen : Nat) (input : List (BitVec 8))
    (segments : Nat → Segment) : Nat → Nat
  | 0 => 0
  | calls + 1 =>
      match segments calls with
      | .interrupted => position maxlen input segments calls
      | .available count _ =>
          advance maxlen input (position maxlen input segments calls) count

/-- No segment that starts inside of the line goes on behind its end. -/
def Aligned (maxlen : Nat) (input : List (BitVec 8))
    (segments : Nat → Segment) : Prop :=
  ∀ calls,
    position maxlen input segments calls <
        (takeLine (maxlen - 1) input).1.length →
      position maxlen input segments (calls + 1) ≤
        (takeLine (maxlen - 1) input).1.length

/-! ## One call -/

/-- The variables when a number of bytes have been read. -/
def partway (input : List (BitVec 8)) (done : Nat) : Vars where
  stored := input.take done
  unread := input.drop done

section Call

variable {maxlen done : Nat} {input : List (BitVec 8)}

theorem readlineLoop_partway (maxlen : Nat) (long : done ≤ input.length) :
    resume (input.drop done) (readlineLoop maxlen (input.take done)) =
      if done < maxlen - 1 then
        .running (partway input done)
      else
        .returned ⟨some (input.take done), input.drop done⟩ := by
  rw [readlineLoop, List.length_take, Nat.min_eq_left long]
  split <;> rfl

theorem body_interrupted
    (long : done ≤ input.length) (room : done < maxlen - 1) :
    body maxlen (partway input done) .interrupted =
      .running (partway input done) := by
  have loop := readlineLoop_partway maxlen long
  rw [if_pos room] at loop
  exact loop

theorem lt_advance
    {count : Nat} (positive : 0 < count) (left : done < input.length)
    (room : done < maxlen - 1) :
    done < advance maxlen input done count := by
  rw [advance]
  omega

theorem advance_le_length (done count : Nat) :
    advance maxlen input done count ≤ input.length := by
  rw [advance]
  omega

/-- A segment is stored behind the earlier ones, as far as there is room. -/
theorem body_available
    {count : Nat} (positive : 0 < count) (left : done < input.length)
    (room : done < maxlen - 1) :
    body maxlen (partway input done) (.available count positive) =
      let next := advance maxlen input done count
      if (input.take next).getLast? = some newline then
        .returned ⟨some (input.take next), input.drop next⟩
      else if next < maxlen - 1 then
        .running (partway input next)
      else
        .returned ⟨some (input.take next), input.drop next⟩ := by
  have size : (input.take done).length = done := by
    rw [List.length_take]
    omega
  have request :
      readlineRequest maxlen (partway input done).stored =
        maxlen - done - 1 := by
    rw [readlineRequest, partway, size]
  have limit :
      min (done + min count (maxlen - done - 1)) input.length =
        min (advance maxlen input done count) input.length := by
    rw [advance]
    omega
  have nonempty :
      ((input.drop done).take (min count (maxlen - done - 1))).length > 0 := by
    rw [List.length_take, List.length_drop]
    omega
  have stored :
      input.take done ++
          (input.drop done).take (min count (maxlen - done - 1)) =
        input.take (advance maxlen input done count) := by
    rw [← List.take_add, List.take_eq_take_iff]
    exact limit
  have unread :
      (input.drop done).drop (min count (maxlen - done - 1)) =
        input.drop (advance maxlen input done count) := by
    rw [List.drop_drop, List.drop_eq_drop_iff]
    exact limit
  simp only [body, read, request, readlineAfter]
  simp only [partway, unread, if_pos nonempty, stored]
  split
  · rfl
  · exact readlineLoop_partway maxlen (advance_le_length done count)

/-- At the end of the stream the stored bytes are returned. -/
theorem body_endOfFile
    (finished : input.length ≤ done) {count : Nat} (positive : 0 < count) :
    body maxlen (partway input done) (.available count positive) =
      .returned ⟨some (input.take done), []⟩ := by
  have nothing : input.drop done = [] := List.drop_of_length_le finished
  simp [body, read, partway, nothing, readlineAfter, resume]

end Call

/-! ## The end of the line -/

section Line

variable {maxlen : Nat} {input line rest : List (BitVec 8)}
  (cut : takeLine (maxlen - 1) input = (line, rest))

include cut

theorem append_of_cut : line ++ rest = input := by
  have whole := takeLine_append (maxlen - 1) input
  rw [cut] at whole
  exact whole

theorem length_le_of_cut : line.length ≤ maxlen - 1 := by
  have bound := length_takeLine_le (maxlen - 1) input
  rw [cut] at bound
  exact bound

theorem length_le_input : line.length ≤ input.length := by
  rw [← append_of_cut cut, List.length_append]
  exact Nat.le_add_right _ _

theorem complete_of_cut :
    line.getLast? = some newline ∨ line.length = maxlen - 1 ∨ rest = [] := by
  have complete := takeLine_complete (maxlen - 1) input
  rw [cut] at complete
  exact complete

theorem take_length : input.take line.length = line := by
  rw [← append_of_cut cut, List.take_left]

theorem drop_length : input.drop line.length = rest := by
  rw [← append_of_cut cut, List.drop_left]

/-- There is no newline before the end of the line. -/
theorem getLast?_take_ne {done : Nat} (before : done < line.length) :
    (input.take done).getLast? ≠ some newline := by
  intro ends
  have start : input.take done = line.take done := by
    rw [← append_of_cut cut,
      List.take_append_of_le_length (Nat.le_of_lt before)]
  have split :
      (takeLine (maxlen - 1) input).1 = line.take done ++ line.drop done := by
    rw [cut, List.take_append_drop]
  have nothing :=
    takeLine_closed (maxlen - 1) input split (by rw [← start, ends])
  have size := congrArg List.length nothing
  rw [List.length_drop, List.length_nil] at size
  omega

end Line

/-! ## Runs -/

section Run

variable {maxlen : Nat} {input line rest : List (BitVec 8)}
  {segments : Nat → Segment}

theorem position_of_interrupted
    {calls : Nat} (segment : segments calls = .interrupted) :
    position maxlen input segments (calls + 1) =
      position maxlen input segments calls := by
  rw [position, segment]

theorem position_of_available
    {calls count : Nat} {positive : 0 < count}
    (segment : segments calls = .available count positive) :
    position maxlen input segments (calls + 1) =
      advance maxlen input (position maxlen input segments calls) count := by
  rw [position, segment]

/-- The segments come one behind the other. -/
theorem position_lt_of_succ
    (cut : takeLine (maxlen - 1) input = (line, rest)) {calls : Nat}
    (before : position maxlen input segments (calls + 1) < line.length) :
    position maxlen input segments calls < line.length := by
  have short := length_le_of_cut cut
  have long := length_le_input cut
  cases segment : segments calls with
  | interrupted =>
      rw [position_of_interrupted segment] at before
      exact before
  | available count positive =>
      rw [position_of_available segment, advance] at before
      omega

/-- A segment that ends inside of the line is followed by another call. -/
theorem body_inside
    (cut : takeLine (maxlen - 1) input = (line, rest)) {calls : Nat}
    (before : position maxlen input segments calls < line.length)
    (inside : position maxlen input segments (calls + 1) < line.length) :
    body maxlen (partway input (position maxlen input segments calls))
        (segments calls) =
      .running
        (partway input (position maxlen input segments (calls + 1))) := by
  have short := length_le_of_cut cut
  have long := length_le_input cut
  cases segment : segments calls with
  | interrupted =>
      rw [position_of_interrupted segment]
      exact body_interrupted (by omega) (by omega)
  | available count positive =>
      rw [position_of_available segment] at inside ⊢
      rw [body_available positive (by omega) (by omega),
        if_neg (getLast?_take_ne cut inside), if_pos]
      exact Nat.lt_of_lt_of_le inside short

/-- Up to the end of the line, `readline` reads. -/
theorem readline_of_before
    (cut : takeLine (maxlen - 1) input = (line, rest)) {calls : Nat}
    (before : position maxlen input segments calls < line.length) :
    readline maxlen input segments calls =
      .running (partway input (position maxlen input segments calls)) := by
  have short := length_le_of_cut cut
  have long := length_le_input cut
  induction calls with
  | zero =>
      have start :=
        readlineLoop_partway maxlen (Nat.zero_le input.length)
      rw [if_pos (by omega)] at start
      exact start
  | succ calls ih =>
      have earlier := position_lt_of_succ cut before
      rw [readline, statusAfter_succ_of_running (ih earlier)]
      exact body_inside cut earlier before

/-! ### Segments that go on behind the line -/

/-- More than the line has been stored. -/
def Passed (line : List (BitVec 8)) : Status Vars Return → Prop
  | .running vars => line.length < vars.stored.length
  | .returned result => result.line ≠ some line

/-- What has been stored is not given back. -/
theorem body_passed
    {vars : Vars} (passed : Passed line (.running vars))
    (segment : Segment) : Passed line (body maxlen vars segment) := by
  have longer (more : List (BitVec 8)) :
      line.length < (vars.stored ++ more).length := by
    rw [List.length_append]
    exact Nat.lt_of_lt_of_le passed (Nat.le_add_right _ _)
  have other {found : List (BitVec 8)} (long : line.length < found.length) :
      some found ≠ some line := by
    intro same
    rw [Option.some.inj same] at long
    exact Nat.lt_irrefl _ long
  have loop {stored : List (BitVec 8)} (long : line.length < stored.length)
      (unread : List (BitVec 8)) :
      Passed line (resume unread (readlineLoop maxlen stored)) := by
    rw [readlineLoop]
    split
    · exact long
    · exact other long
  cases segment with
  | interrupted => exact loop passed vars.unread
  | available count positive =>
      simp only [body, read, readlineAfter]
      split
      · split
        · exact other (longer _)
        · exact loop (longer _) _
      · exact other passed

/-- A segment that goes on behind the line passes its end. -/
theorem passed_of_crossed
    (cut : takeLine (maxlen - 1) input = (line, rest)) {calls : Nat}
    (before : position maxlen input segments calls < line.length)
    (behind : line.length < position maxlen input segments (calls + 1)) :
    Passed line (readline maxlen input segments (calls + 1)) := by
  have short := length_le_of_cut cut
  have long := length_le_input cut
  rw [readline, statusAfter_succ_of_running (readline_of_before cut before)]
  cases segment : segments calls with
  | interrupted =>
      rw [position_of_interrupted segment] at behind
      exact absurd before (Nat.not_lt_of_lt behind)
  | available count positive =>
      rw [position_of_available segment] at behind
      have bound :
          advance maxlen input (position maxlen input segments calls) count ≤
            input.length :=
        advance_le_length _ count
      have size :=
        List.length_take_of_le bound
      have other :
          some
              (input.take
                (advance maxlen input
                  (position maxlen input segments calls) count)) ≠
            some line := by
        intro same
        rw [Option.some.inj same] at size
        omega
      rw [body_available positive (by omega) (by omega)]
      simp only
      split
      · exact other
      · split
        · show line.length < (input.take _).length
          rw [size]
          exact behind
        · exact other

/-- From there on it stays passed. -/
theorem readline_passed
    {first : Nat} (passed : Passed line (readline maxlen input segments first))
    {calls : Nat} (later : first ≤ calls) :
    Passed line (readline maxlen input segments calls) := by
  induction later with
  | refl => exact passed
  | @step calls _ ih =>
      cases status : readline maxlen input segments calls with
      | running vars =>
          rw [status] at ih
          rw [readline, statusAfter_succ_of_running status]
          exact body_passed ih (segments calls)
      | returned result =>
          rw [status] at ih
          rw [readline, statusAfter_succ_of_returned status]
          exact ih

/-! ### Segments that end with the line -/

/-- Inside of the line, or at its end if that is the end of the stream. -/
def Follows (maxlen : Nat) (input line rest : List (BitVec 8))
    (segments : Nat → Segment) (calls : Nat) : Status Vars Return → Prop
  | .running vars =>
      vars = partway input (position maxlen input segments calls) ∧
        position maxlen input segments calls < maxlen - 1 ∧
        (position maxlen input segments calls < line.length ∨
          position maxlen input segments calls = line.length ∧ rest = [])
  | .returned result => result = ⟨some line, rest⟩

/-- The line is complete, and it is returned unless the stream has ended. -/
theorem body_follows
    (cut : takeLine (maxlen - 1) input = (line, rest))
    (aligned : Aligned maxlen input segments) {calls : Nat} {vars : Vars}
    (follows :
      Follows maxlen input line rest segments calls (.running vars)) :
    Follows maxlen input line rest segments (calls + 1)
      (body maxlen vars (segments calls)) := by
  have short := length_le_of_cut cut
  have long := length_le_input cut
  rcases follows with ⟨rfl, room, place⟩
  have ordered :
      position maxlen input segments calls < line.length →
        position maxlen input segments (calls + 1) ≤ line.length := by
    have ordered := aligned calls
    rw [cut] at ordered
    exact ordered
  cases segment : segments calls with
  | interrupted =>
      rw [body_interrupted (by omega) room, Follows,
        position_of_interrupted segment]
      exact ⟨rfl, room, place⟩
  | available count positive =>
      rw [position_of_available segment] at ordered
      rcases place with before | ⟨finished, nothing⟩
      · have bound := ordered before
        rw [body_available positive (by omega) room]
        simp only
        rcases Nat.lt_or_eq_of_le bound with inside | whole
        · rw [if_neg (getLast?_take_ne cut inside), if_pos (by omega)]
          rw [Follows, position_of_available segment]
          exact ⟨rfl, by omega, .inl inside⟩
        · rw [whole, take_length cut, drop_length cut]
          split
          · exact rfl
          · case isFalse open_ =>
              split
              · case isTrue free =>
                  rw [Follows, position_of_available segment, whole]
                  refine ⟨rfl, free, .inr ⟨rfl, ?_⟩⟩
                  rcases complete_of_cut cut with ends | full | nothing
                  · exact absurd ends open_
                  · omega
                  · exact nothing
              · exact rfl
      · have whole := append_of_cut cut
        rw [nothing, List.append_nil] at whole
        rw [finished, ← whole, body_endOfFile (Nat.le_refl _),
          List.take_length, nothing]
        exact rfl

theorem readline_follows
    (cut : takeLine (maxlen - 1) input = (line, rest)) (room : 2 ≤ maxlen)
    (aligned : Aligned maxlen input segments) (calls : Nat) :
    Follows maxlen input line rest segments calls
      (readline maxlen input segments calls) := by
  have start :
      Follows maxlen input line rest segments 0
        (readline maxlen input segments 0) := by
    have loop :=
      readlineLoop_partway maxlen (Nat.zero_le input.length)
    rw [if_pos (by omega)] at loop
    have first : readline maxlen input segments 0 =
        .running (partway input 0) :=
      loop
    have origin : position maxlen input segments 0 = 0 := rfl
    rw [first, Follows, origin]
    refine ⟨rfl, by omega, ?_⟩
    rcases Nat.eq_zero_or_pos line.length with empty | nonempty
    · refine .inr ⟨empty.symm, ?_⟩
      rcases complete_of_cut cut with ends | full | nothing
      · rw [List.length_eq_zero_iff.mp empty] at ends
        cases ends
      · omega
      · exact nothing
    · exact .inl nonempty
  have preserved (calls : Nat) (vars : Vars)
      (_ : readline maxlen input segments calls = .running vars)
      (follows :
        Follows maxlen input line rest segments calls (.running vars)) :
      Follows maxlen input line rest segments (calls + 1)
        (body maxlen vars (segments calls)) :=
    body_follows cut aligned follows
  exact
    statusAfter_invariant start preserved (fun _ _ follows => follows) calls

/-- Interruptions do not come forever, so the end of the line is reached. -/
theorem exists_readline_returns
    (cut : takeLine (maxlen - 1) input = (line, rest)) (room : 2 ≤ maxlen)
    (aligned : Aligned maxlen input segments)
    (busy : ∀ calls, ∃ later ≥ calls, segments later ≠ .interrupted) :
    ∃ calls result,
      Returns (body maxlen) (resume input (readlineLoop maxlen [])) segments
        calls result := by
  have long := length_le_input cut
  apply exists_returns (fun vars => vars.unread.length) (· = .interrupted)
    _ _ busy
  · intro calls vars next running awake step
    have here := readline_follows cut room aligned calls
    rw [readline, running] at here
    rcases here with ⟨rfl, free, place⟩
    cases segment : segments calls with
    | interrupted => exact absurd segment awake
    | available count positive =>
        rw [segment] at step
        by_cases left : position maxlen input segments calls < input.length
        · have forward := lt_advance positive left free
          have bound :
              advance maxlen input (position maxlen input segments calls)
                  count ≤
                input.length :=
            advance_le_length _ count
          rw [body_available positive left free] at step
          simp only at step
          split at step
          · cases step
          · split at step
            · cases step
              simp only [partway, List.length_drop]
              omega
            · cases step
        · rw [body_endOfFile (by omega)] at step
          cases step
  · intro calls vars next running idle step
    have here := readline_follows cut room aligned calls
    rw [readline, running] at here
    rcases here with ⟨rfl, free, place⟩
    rw [idle, body_interrupted (by omega) free] at step
    cases step
    exact Nat.le_refl _

end Run

/--
On every stream, with every buffer of at least two bytes and interruptions
that do not come forever, `readline` returns exactly the next line if and only
if no segment that starts inside of the line goes on behind its end.
-/
theorem readsLine_iff
    (maxlen : Nat) (room : 2 ≤ maxlen) (input : List (BitVec 8))
    (segments : Nat → Segment)
    (busy : ∀ calls, ∃ later ≥ calls, segments later ≠ .interrupted) :
    ReadsLine maxlen input segments ↔ Aligned maxlen input segments := by
  cases cut : takeLine (maxlen - 1) input with
  | mk line rest =>
      rw [ReadsLine, Aligned, cut]
      constructor
      · rintro ⟨calls, returns⟩ crossing before
        by_contra behind
        have passed :=
          passed_of_crossed cut before (Nat.lt_of_not_le behind)
        have later :=
          readline_passed passed (Nat.le_max_left (crossing + 1) calls)
        have returned :=
          returned_of_le (Nat.le_max_right (crossing + 1) calls)
            returns.returned
        rw [readline, returned] at later
        exact later rfl
      · intro aligned
        have inside : Aligned maxlen input segments := by
          rw [Aligned, cut]
          exact aligned
        rcases exists_readline_returns cut room inside busy with
          ⟨calls, result, returns⟩
        have follows := readline_follows cut room inside calls
        rw [readline, returns.returned] at follows
        have same : result = ⟨some line, rest⟩ := follows
        rw [same] at returns
        exact ⟨calls, returns⟩

/-- Segments of one byte, each behind an interruption. -/
def single (calls : Nat) : Segment :=
  if calls % 2 = 0 then .interrupted else .available 1 (by decide)

theorem readsLine_iff_single :
    ReadsLine 1024 [97, 10, 98, 10] single ↔
      Aligned 1024 [97, 10, 98, 10] single := by
  apply readsLine_iff 1024 (by decide)
  intro calls
  refine ⟨2 * calls + 1, by omega, ?_⟩
  rw [single, if_neg (by omega)]
  exact fun same => Segment.noConfusion same

/-- Two lines that arrive in one segment are returned as one. -/
theorem exists_not_readsLine :
    ¬ ∀ (maxlen : Nat), 2 ≤ maxlen → ∀ (input : List (BitVec 8))
        (segments : Nat → Segment),
        (∀ calls, ∃ later ≥ calls, segments later ≠ .interrupted) →
          ReadsLine maxlen input segments := by
  intro always
  have busy :
      ∀ calls, ∃ later ≥ calls,
        (fun _ : Nat => Segment.available 4 (by decide)) later ≠
          .interrupted :=
    fun calls => ⟨calls, Nat.le_refl calls, fun same => by cases same⟩
  rcases always 1024 (by decide) [97, 10, 98, 10] _ busy with
    ⟨calls, returns⟩
  have returned :
      readline 1024 [97, 10, 98, 10] (fun _ => .available 4 (by decide)) 1 =
        .returned ⟨some [97, 10, 98, 10], []⟩ := by
    decide
  have same := returns.eq_of_returned returned
  revert same
  decide

end CodingExamples.EchoServer.Readline
