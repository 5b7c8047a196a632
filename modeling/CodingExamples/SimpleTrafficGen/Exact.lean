import CodingExamples.Library.CallLoop
import CodingExamples.SimpleTrafficGen.Common

/-!
# The calls of `write_exact` and `read_exact`

Each iteration makes one call for a stretch of the buffer.  With `dummy_buf`
the stretch starts where the buffer starts, otherwise behind the bytes that
are transferred already.

The two functions differ in what a call does to the file and to the memory,
which is a parameter of the loop.  A property of the two that every successful
call preserves holds at the return.
-/

namespace CodingExamples.SimpleTrafficGen.Exact

open CodingExamples.SimpleTrafficGen.Common
open CodingExamples.Library.CallLoop

/-- `INT_MAX`. -/
def intMax : Int := 0x7fffffff

/-- The `int` that keeps an `ssize_t`. -/
def intOf (result : Int) : Int :=
  (BitVec.ofInt 32 result).toInt

/-- The start of the stretch that a call is given, and its length. -/
structure Call where
  position : Nat
  request : Nat
deriving DecidableEq, Repr

/-- `cur_buf`, and `bytes_to_write` or `bytes_to_read`. -/
def call (max : Nat) (dummyBuf : Bool) (transfer : Transfer) : Call where
  position := if dummyBuf then 0 else transfer.transferred
  request := transfer.request max

section Loop

variable {World : Type}

/-- The local variables, and what the calls have done so far. -/
structure Vars (World : Type) where
  transfer : Transfer
  world : World
deriving DecidableEq, Repr

/-- The returned value, and what the calls have done. -/
structure Return (World : Type) where
  total : Nat
  world : World
deriving DecidableEq, Repr

/-- Before the next call or behind the return. -/
def resume (world : World) : Progress → Status (Vars World) (Return World)
  | .running transfer => .running ⟨transfer, world⟩
  | .returned total => .returned ⟨total, world⟩

variable (effect : Call → Nat → World → World) (max : Nat) (dummyBuf : Bool)

/-- An iteration, with the `ssize_t` that the call returned. -/
def body (vars : Vars World) (result : Int) :
    Status (Vars World) (Return World) :=
  resume
    (effect (call max dummyBuf vars.transfer) result.toNat vars.world)
    (vars.transfer.after (intOf result))

/-- The function, where `null` is `!buf`. -/
def exact (count : Nat) (null : Bool) (world : World)
    (results : Nat → Int) : Nat → Status (Vars World) (Return World) :=
  let start := if null then .returned ⟨0, world⟩ else resume world (enter count)
  statusAfter (body effect max dummyBuf) start results

end Loop

/-- The memory from a pointer on. -/
abbrev Buffer : Type := Nat → BitVec 8

/-- The bytes of a stretch. -/
def bytesAt (buffer : Buffer) (position count : Nat) : List (BitVec 8) :=
  (List.range count).map fun index => buffer (position + index)

/-- Replace the bytes from a position on. -/
def storeAt (buffer : Buffer) (position : Nat) (bytes : List (BitVec 8)) :
    Buffer := fun index =>
  if index < position then
    buffer index
  else
    bytes[index - position]?.getD (buffer index)

/-- `write` appends the bytes to the file. -/
def write (buf : Buffer) (call : Call) (moved : Nat)
    (file : List (BitVec 8)) : List (BitVec 8) :=
  file ++ bytesAt buf call.position moved

/-- `write_exact(fd, buf, count, max_per_write, dummy_buf)`. -/
def writeExact (buf : Buffer) (null : Bool) (count maxPerWrite : Nat)
    (dummyBuf : Bool) (results : Nat → Int) :
    Nat → Status (Vars (List (BitVec 8))) (Return (List (BitVec 8))) :=
  exact (write buf) maxPerWrite dummyBuf count null [] results

/-- The memory, and the number of bytes that are taken from the file. -/
structure Input where
  memory : Buffer
  taken : Nat

/-- `read` stores the next bytes of the file. -/
def read (file : Nat → BitVec 8) (call : Call) (moved : Nat)
    (input : Input) : Input where
  memory :=
    storeAt input.memory call.position (bytesAt file input.taken moved)
  taken := input.taken + moved

/-- `read_exact(fd, buf, count, max_per_read, dummy_buf)`. -/
def readExact (file : Nat → BitVec 8) (buf : Buffer) (null : Bool)
    (count maxPerRead : Nat) (dummyBuf : Bool) (results : Nat → Int) :
    Nat → Status (Vars Input) (Return Input) :=
  exact (read file) maxPerRead dummyBuf count null ⟨buf, 0⟩ results

/-! ## One iteration -/

/--
A call fails, or it is at the end of the file, or it moves no more than it was
asked for, which an `int` can count.
-/
def Permitted (call : Call) (result : Int) : Prop :=
  result = -1 ∨
    0 ≤ result ∧ result ≤ call.request ∧ result ≤ intMax

/-- Every call that is made returns what is permitted. -/
def AllPermitted {World : Type} (max : Nat) (dummyBuf : Bool)
    (results : Nat → Int)
    (status : Nat → Status (Vars World) (Return World)) : Prop :=
  ∀ calls vars,
    status calls = .running vars →
      Permitted (call max dummyBuf vars.transfer) (results calls)

instance (call : Call) (result : Int) : Decidable (Permitted call result) :=
  inferInstanceAs (Decidable (_ ∨ _))

/-- Nothing is always permitted. -/
theorem permitted_zero (call : Call) : Permitted call 0 :=
  .inr ⟨Int.le_refl 0, Int.natCast_nonneg call.request, by decide⟩

theorem Permitted.intOf_eq
    {call : Call} {result : Int} (permitted : Permitted call result) :
    intOf result = result := by
  rw [Permitted, intMax] at permitted
  rw [intOf, BitVec.toInt_ofInt]
  apply Int.bmod_eq_of_le <;> omega

/-- A call does not move more than it is asked for. -/
theorem Permitted.toNat_le
    {call : Call} {result : Int} (permitted : Permitted call result) :
    result.toNat ≤ call.request := by
  rcases permitted with rfl | ⟨_, requested, _⟩
  · exact Nat.zero_le _
  · exact Int.toNat_le.mpr requested

/-- The length that the buffer must have. -/
def limit (count max : Nat) (dummyBuf : Bool) : Nat :=
  if dummyBuf then min count max else count

/-- The stretch of the next call. -/
structure Inside (count max : Nat) (dummyBuf : Bool) (done : Nat)
    (call : Call) : Prop where
  capped : call.request ≤ max
  remaining : call.request ≤ count - done
  touched : call.position + call.request ≤ limit count max dummyBuf

theorem inside_call
    {count done : Nat} (unfinished : done < count) (max : Nat)
    (dummyBuf : Bool) :
    Inside count max dummyBuf done
      (call max dummyBuf (partway count done)) := by
  have capped := (partway count done).request_le_max max
  have remaining := request_partway_le count done max
  refine ⟨capped, remaining, ?_⟩
  cases dummyBuf with
  | true =>
      show 0 + (partway count done).request max ≤ min count max
      omega
  | false =>
      show done + (partway count done).request max ≤ count
      omega

section Iteration

variable {World : Type} {effect : Call → Nat → World → World}
  {count max : Nat} {dummyBuf : Bool}

/-- A call that moves nothing ends the loop. -/
theorem body_stops
    {transfer : Transfer} {result : Int} (stopped : result ≤ 0)
    (permitted : Permitted (call max dummyBuf transfer) result)
    (world : World) :
    body effect max dummyBuf ⟨transfer, world⟩ result =
      .returned
        ⟨transfer.transferred,
          effect (call max dummyBuf transfer) 0 world⟩ := by
  rw [body, permitted.intOf_eq, Transfer.after, if_pos stopped,
    Int.toNat_of_nonpos stopped]
  rfl

/-- A call that moves some bytes advances the loop by them. -/
theorem body_moves
    {done : Nat} {result : Int} (moved : 0 < result)
    (permitted : Permitted (call max dummyBuf (partway count done)) result)
    (world : World) :
    body effect max dummyBuf ⟨partway count done, world⟩ result =
      resume
        (effect (call max dummyBuf (partway count done)) result.toNat world)
        (loop (partway count (done + result.toNat))) := by
  rw [body, permitted.intOf_eq, Transfer.after, if_neg (by omega)]
  simp only [partway, Nat.sub_sub]

theorem resume_loop_partway (count done : Nat) (world : World) :
    resume world (loop (partway count done)) =
      if done < count then
        .running ⟨partway count done, world⟩
      else
        .returned ⟨done, world⟩ := by
  rw [loop]
  by_cases unfinished : done < count
  · have positive : (partway count done).count > 0 :=
      Nat.sub_pos_of_lt unfinished
    rw [if_pos unfinished, if_pos positive]
    rfl
  · have finished : ¬ (partway count done).count > 0 := by
      show ¬ count - done > 0
      omega
    rw [if_neg unfinished, if_neg finished]
    rfl

end Iteration

/-! ## Runs -/

/-- The sum of the successful calls. -/
def moved (results : Nat → Int) : Nat → Nat
  | 0 => 0
  | calls + 1 => moved results calls + (results calls).toNat

section Run

variable {World : Type} {effect : Call → Nat → World → World}
  {count max : Nat} {dummyBuf : Bool} {world : World}
  {results : Nat → Int}

/-- What is known before a call, where `Kept` is a property of the effects. -/
structure Reading (Kept : Nat → World → Prop) (count : Nat)
    (results : Nat → Int) (calls : Nat) (vars : Vars World) : Prop where
  transfer : vars.transfer = partway count (moved results calls)
  unfinished : moved results calls < count
  successful : ∀ earlier < calls, 0 < results earlier
  kept : Kept (moved results calls) vars.world

/-- Calls that move no more than they are asked for keep the property. -/
def Preserved (effect : Call → Nat → World → World) (count max : Nat)
    (dummyBuf : Bool) (Kept : Nat → World → Prop) : Prop :=
  ∀ done < count, ∀ world, Kept done world →
    ∀ more ≤ (partway count done).request max,
      Kept (done + more)
        (effect (call max dummyBuf (partway count done)) more world)

variable {Kept : Nat → World → Prop}

theorem exact_zero :
    exact effect max dummyBuf count false world results 0 =
      if 0 < count then
        .running ⟨partway count 0, world⟩
      else
        .returned ⟨0, world⟩ :=
  resume_loop_partway count 0 world

/-- A successful call keeps what is known, if there is another call. -/
theorem Reading.next
    {calls : Nat} {vars next : Vars World}
    (reading : Reading Kept count results calls vars)
    (preserved : Preserved effect count max dummyBuf Kept)
    (permitted :
      Permitted (call max dummyBuf vars.transfer) (results calls))
    (step : body effect max dummyBuf vars (results calls) = .running next) :
    Reading Kept count results (calls + 1) next := by
  rcases vars with ⟨transfer, world⟩
  rcases reading with ⟨rfl, unfinished, successful, kept⟩
  by_cases stopped : results calls ≤ 0
  · rw [body_stops stopped permitted] at step
    cases step
  · have after :=
      preserved _ unfinished world kept _ permitted.toNat_le
    rw [body_moves (by omega) permitted, resume_loop_partway] at step
    split at step
    · case isTrue left =>
        cases step
        have successes :=
          Nat.forall_lt_succ_right.mpr ⟨successful, Int.not_le.mp stopped⟩
        exact ⟨rfl, left, successes, after⟩
    · cases step

theorem exact_reading
    (initial : Kept 0 world)
    (preserved : Preserved effect count max dummyBuf Kept)
    (permitted :
      AllPermitted max dummyBuf results
        (exact effect max dummyBuf count false world results))
    {calls : Nat} {vars : Vars World}
    (running :
      exact effect max dummyBuf count false world results calls =
        .running vars) :
    Reading Kept count results calls vars := by
  refine running_invariant (Reading Kept count results) ?_ ?_ running
  · intro vars first
    have start :
        exact effect max dummyBuf count false world results 0 =
          .running vars :=
      first
    rw [exact_zero] at start
    split at start
    · case isTrue positive =>
        cases start
        refine ⟨rfl, positive, ?_, initial⟩
        intro earlier below
        omega
    · cases start
  · intro calls vars next runs reading step
    exact reading.next preserved (permitted calls vars runs) step

/-- The number of bytes that are left gets smaller by each call. -/
theorem exists_exact_returns
    (initial : Kept 0 world)
    (preserved : Preserved effect count max dummyBuf Kept)
    (permitted :
      AllPermitted max dummyBuf results
        (exact effect max dummyBuf count false world results)) :
    ∃ calls result,
      Returns (body effect max dummyBuf) (resume world (enter count)) results
        calls result := by
  apply exists_returns (fun vars => vars.transfer.count) (fun _ => False)
  · intro calls vars next running _ step
    have here := exact_reading initial preserved permitted running
    have moves := here.next preserved (permitted calls vars running) step
    have advanced := moves.successful calls (Nat.lt_succ_self calls)
    have unfinished := moves.unfinished
    show next.transfer.count < vars.transfer.count
    rw [moves.transfer, here.transfer]
    rw [moved] at unfinished
    show
      count - (moved results calls + (results calls).toNat) <
        count - moved results calls
    omega
  · intro calls vars next running idle
    exact idle.elim
  · intro calls
    exact ⟨calls, Nat.le_refl calls, id⟩

/-- How the function has ended, behind the given number of calls. -/
structure Transferred (count max : Nat) (dummyBuf : Bool)
    (results : Nat → Int) (status : Nat → Status (Vars World) (Return World))
    (calls : Nat) (result : Return World) : Prop where
  returned : status calls = .returned result
  inside :
    ∀ earlier < calls, ∃ vars,
      status earlier = .running vars ∧
        Inside count max dummyBuf (moved results earlier)
          (call max dummyBuf vars.transfer)
  total : result.total = moved results calls
  whole_iff :
    result.total = count ↔ ∀ earlier < calls, 0 < results earlier

/-- The call behind which the function returns. -/
theorem Reading.last
    {calls : Nat} {vars : Vars World} {result : Return World}
    (reading : Reading Kept count results calls vars)
    (preserved : Preserved effect count max dummyBuf Kept)
    (permitted :
      Permitted (call max dummyBuf vars.transfer) (results calls))
    (step :
      body effect max dummyBuf vars (results calls) = .returned result) :
    result.total = moved results (calls + 1) ∧
      Kept result.total result.world ∧
        (result.total = count ↔
          ∀ earlier < calls + 1, 0 < results earlier) := by
  rcases vars with ⟨transfer, world⟩
  rcases reading with ⟨rfl, unfinished, successful, kept⟩
  by_cases stopped : results calls ≤ 0
  · rw [body_stops stopped permitted] at step
    cases step
    have after := preserved _ unfinished world kept 0 (Nat.zero_le _)
    refine ⟨?_, after, ?_⟩
    · rw [moved, Int.toNat_of_nonpos stopped]
      rfl
    · constructor
      · intro whole
        have full : moved results calls = count := whole
        omega
      · intro successes
        have success := successes calls (Nat.lt_succ_self calls)
        omega
  · have requested :
        (results calls).toNat ≤
          (partway count (moved results calls)).request max :=
      permitted.toNat_le
    have after := preserved _ unfinished world kept _ requested
    have bound := request_partway_le count (moved results calls) max
    rw [body_moves (by omega) permitted, resume_loop_partway] at step
    split at step
    · cases step
    · case isFalse complete =>
        cases step
        refine ⟨rfl, after, ?_⟩
        constructor
        · intro _
          exact
            Nat.forall_lt_succ_right.mpr
              ⟨successful, Int.not_le.mp stopped⟩
        · intro _
          show moved results calls + (results calls).toNat = count
          omega

/-- The function returns, and the property holds of what has been done. -/
theorem exists_transferred
    (initial : Kept 0 world)
    (preserved : Preserved effect count max dummyBuf Kept)
    (permitted :
      AllPermitted max dummyBuf results
        (exact effect max dummyBuf count false world results)) :
    ∃ calls result,
      Transferred count max dummyBuf results
          (exact effect max dummyBuf count false world results) calls result ∧
        Kept result.total result.world := by
  rcases exists_exact_returns initial preserved permitted with
    ⟨calls, result, returns⟩
  have inside (earlier : Nat) (below : earlier < calls) :
      ∃ vars,
        exact effect max dummyBuf count false world results earlier =
            .running vars ∧
          Inside count max dummyBuf (moved results earlier)
            (call max dummyBuf vars.transfer) := by
    rcases returns.running earlier below with ⟨vars, running⟩
    have here := exact_reading initial preserved permitted running
    refine ⟨vars, running, ?_⟩
    rw [here.transfer]
    exact inside_call here.unfinished max dummyBuf
  cases calls with
  | zero =>
      have returned :
          exact effect max dummyBuf count false world results 0 =
            .returned result :=
        returns.returned
      rw [exact_zero] at returned
      split at returned
      · cases returned
      · case isFalse empty =>
          cases returned
          refine ⟨0, _, ⟨returns.returned, inside, rfl, ?_⟩, initial⟩
          constructor
          · intro _ earlier below
            omega
          · intro _
            show 0 = count
            omega
  | succ calls =>
      rcases returns.last with ⟨vars, running, step⟩
      have here := exact_reading initial preserved permitted running
      rcases here.last preserved (permitted calls vars running) step with
        ⟨total, kept, whole⟩
      exact
        ⟨calls + 1, result,
          ⟨returns.returned, inside, total, whole⟩, kept⟩

end Run

/-! ## Stretches of memory -/

theorem length_bytesAt (buffer : Buffer) (position count : Nat) :
    (bytesAt buffer position count).length = count := by
  rw [bytesAt, List.length_map, List.length_range]

theorem bytesAt_append (buffer : Buffer) (position count more : Nat) :
    bytesAt buffer position count ++
        bytesAt buffer (position + count) more =
      bytesAt buffer position (count + more) := by
  simp only [bytesAt, List.range_add, List.map_append, List.map_map,
    Function.comp_def, Nat.add_assoc]

section Store

variable (buffer : Buffer) (position : Nat)

theorem storeAt_behind
    {bytes : List (BitVec 8)} {index : Nat}
    (behind : position + bytes.length ≤ index) :
    storeAt buffer position bytes index = buffer index := by
  have outside : bytes.length ≤ index - position := by
    omega
  rw [storeAt, if_neg (by omega), List.getElem?_eq_none outside]
  rfl

/-- Two stretches that follow each other. -/
theorem storeAt_append (bytes more : List (BitVec 8)) :
    storeAt (storeAt buffer position bytes) (position + bytes.length) more =
      storeAt buffer position (bytes ++ more) := by
  funext index
  by_cases early : index < position + bytes.length
  · rw [storeAt, if_pos early, storeAt, storeAt]
    by_cases before : index < position
    · rw [if_pos before, if_pos before]
    · rw [if_neg before, if_neg before,
        List.getElem?_append_left (by omega)]
  · rw [storeAt, if_neg early, storeAt_behind buffer position (by omega),
      storeAt, if_neg (by omega), List.getElem?_append_right (by omega),
      Nat.sub_sub]

/-- The bytes that have been stored. -/
theorem bytesAt_storeAt (bytes : List (BitVec 8)) :
    bytesAt (storeAt buffer position bytes) position bytes.length =
      bytes := by
  apply List.ext_getElem
  · exact length_bytesAt _ _ _
  · intro index _ inside
    have stored :
        storeAt buffer position bytes (position + index) = bytes[index] := by
      rw [storeAt, if_neg (by omega), Nat.add_sub_cancel_left,
        List.getElem?_eq_getElem inside]
      rfl
    rw [← stored]
    simp only [bytesAt, List.getElem_map, List.getElem_range]

end Store

/-! ## Correctness -/

section Correctness

variable (buf : Buffer) (count max : Nat) (dummyBuf : Bool)
  (file : Nat → BitVec 8)

/-- What has been written is the start of the buffer. -/
def Written (done : Nat) (file : List (BitVec 8)) : Prop :=
  dummyBuf = false → file = bytesAt buf 0 done

theorem write_preserved :
    Preserved (write buf) count max dummyBuf (Written buf dummyBuf) := by
  intro done unfinished file kept more requested separate
  have position :
      (call max dummyBuf (partway count done)).position = 0 + done := by
    rw [separate, Nat.zero_add]
    rfl
  rw [write, kept separate, position, bytesAt_append]

/-- The file has been read so far, and stored up to the end of the buffer. -/
structure Stored (done : Nat) (input : Input) : Prop where
  taken : input.taken = done
  outside :
    ∀ index, limit count max dummyBuf ≤ index →
      input.memory index = buf index
  inOrder :
    dummyBuf = false → input.memory = storeAt buf 0 (bytesAt file 0 done)

theorem read_preserved :
    Preserved (read file) count max dummyBuf
      (Stored buf count max dummyBuf file) := by
  intro done unfinished input kept more requested
  have inside := (inside_call unfinished max dummyBuf).touched
  have short : more ≤ (call max dummyBuf (partway count done)).request :=
    requested
  constructor
  · rw [read, kept.taken]
  · intro index behind
    have outside :
        (call max dummyBuf (partway count done)).position +
            (bytesAt file input.taken more).length ≤
          index := by
      rw [length_bytesAt]
      omega
    exact
      (storeAt_behind input.memory _ outside).trans
        (kept.outside index behind)
  · intro separate
    have position :
        (call max dummyBuf (partway count done)).position =
          0 + (bytesAt file 0 done).length := by
      rw [separate, length_bytesAt, Nat.zero_add]
      rfl
    have next :
        bytesAt file 0 done ++ bytesAt file done more =
          bytesAt file 0 (done + more) := by
      rw [← bytesAt_append, Nat.zero_add]
    rw [read, kept.inOrder separate, kept.taken, position, storeAt_append,
      next]

/--
Both functions return for every buffer, all arguments and all results of the
calls.  The calls stay inside of what is left and of the buffer; the returned
value is the sum of the successful ones, and it is `count` exactly if there
was no other.  Without `dummy_buf` the bytes from the start of the buffer have
been moved in their order.
-/
theorem exact_correct :
    (∀ results,
      AllPermitted max dummyBuf results
          (writeExact buf false count max dummyBuf results) →
        ∃ calls result,
          Transferred count max dummyBuf results
              (writeExact buf false count max dummyBuf results) calls
              result ∧
            (dummyBuf = false →
              result.world = bytesAt buf 0 result.total)) ∧
      ∀ results,
        AllPermitted max dummyBuf results
            (readExact file buf false count max dummyBuf results) →
          ∃ calls result,
            Transferred count max dummyBuf results
                (readExact file buf false count max dummyBuf results) calls
                result ∧
              result.world.taken = result.total ∧
              (∀ index, limit count max dummyBuf ≤ index →
                result.world.memory index = buf index) ∧
              (dummyBuf = false →
                bytesAt result.world.memory 0 result.total =
                  bytesAt file 0 result.total) := by
  constructor
  · intro results permitted
    have initial : Written buf dummyBuf 0 [] := fun _ => rfl
    exact
      exists_transferred initial (write_preserved buf count max dummyBuf)
        permitted
  · intro results permitted
    have initial : Stored buf count max dummyBuf file 0 ⟨buf, 0⟩ := by
      refine ⟨rfl, fun _ _ => rfl, fun _ => ?_⟩
      funext index
      exact (storeAt_behind buf 0 (Nat.zero_le index)).symm
    rcases
        exists_transferred initial
          (read_preserved buf count max dummyBuf file) permitted with
      ⟨calls, result, transferred, stored⟩
    refine
      ⟨calls, result, transferred, stored.taken, stored.outside, ?_⟩
    intro separate
    have bytes := bytesAt_storeAt buf 0 (bytesAt file 0 result.total)
    rw [length_bytesAt] at bytes
    rw [stored.inOrder separate, bytes]

end Correctness

/-- A call that moves two bytes, one that moves one, and no other. -/
def twoCalls (calls : Nat) : Int :=
  if calls = 0 then 2 else if calls = 1 then 1 else 0

theorem exact_correct_twoCalls :
    (∃ calls result,
      Transferred 3 2 false twoCalls
          (writeExact (fun index => BitVec.ofNat 8 index) false 3 2 false
            twoCalls) calls result ∧
        (false = false →
          result.world =
            bytesAt (fun index => BitVec.ofNat 8 index) 0 result.total)) ∧
      ∃ calls result,
        Transferred 3 2 false twoCalls
            (readExact (fun index => BitVec.ofNat 8 (index + 1))
              (fun _ => 0) false 3 2 false twoCalls) calls result ∧
          result.world.taken = result.total ∧
          (∀ index, limit 3 2 false ≤ index →
            result.world.memory index = 0) ∧
          (false = false →
            bytesAt result.world.memory 0 result.total =
              bytesAt (fun index => BitVec.ofNat 8 (index + 1)) 0
                result.total) := by
  constructor
  · refine (exact_correct _ 3 2 false (fun _ => 0)).1 twoCalls ?_
    intro calls vars running
    match calls with
    | 0 =>
        cases running
        decide
    | 1 =>
        cases running
        decide
    | calls + 2 => exact permitted_zero _
  · refine (exact_correct _ 3 2 false _).2 twoCalls ?_
    intro calls vars running
    match calls with
    | 0 =>
        cases running
        decide
    | 1 =>
        cases running
        decide
    | calls + 2 => exact permitted_zero _

end CodingExamples.SimpleTrafficGen.Exact
