import CodingExamples.Library.ByteOrder
import CodingExamples.Library.Execution
import CodingExamples.Library.Fifo
import CodingExamples.SimpleTrafficGen.Common

/-!
# A session of the traffic generator

The client sends the message size as an `unsigned int`, reads a message of
that size, and repeats this; a size of zero ends the session.  Client and
server are two processes that are connected by a stream in each direction.
An action is one call of `write` or `read` by one of them, together with the
code up to the next call; the number of bytes that it transfers is not
determined.

The sizes that the server decodes and the payload that the client reads are
recorded in the state.
-/

namespace CodingExamples.SimpleTrafficGen.Session

open CodingExamples.Library
open CodingExamples.Library.Execution
open CodingExamples.Library.Fifo
open CodingExamples.SimpleTrafficGen.Common

/-- The parsed arguments of the client; both hosts have one byte order. -/
structure Parameters where
  order : ByteOrder
  iters : BitVec 32
  msgSize : BitVec 32
deriving DecidableEq, Repr

/-- `sizeof(unsigned int)`. -/
def sizeofUnsigned : Nat := 4

/-- `EXIT_SUCCESS` and `EXIT_FAILURE`. -/
inductive ExitStatus where
  | success
  | failure
deriving DecidableEq, Repr

/-- Where the client is: the round `i`, and the loop of the call it is in. -/
inductive Client where
  | requesting (i : Nat) (transfer : Transfer)
  | receiving (i : Nat) (transfer : Transfer)
  | completing (transfer : Transfer)
  | exited (status : ExitStatus)
deriving DecidableEq, Repr

/-- Where the server is; `bytes` is what `read_buf` holds so far. -/
inductive Server where
  | decoding (bytes : List (BitVec 8)) (transfer : Transfer)
  | sending (msgSize : BitVec 32) (transfer : Transfer)
  | exited (status : ExitStatus)
deriving DecidableEq, Repr

/-- Both processes and what is in flight between them. -/
structure State where
  client : Client
  /-- The payload bytes that the client has read. -/
  consumed : Nat
  server : Server
  /-- The counter of the server. -/
  iters : BitVec 32
  /-- The sizes that the server has decoded. -/
  decoded : List (BitVec 32)
  requests : List (BitVec 8)
  replies : List (BitVec 8)
deriving DecidableEq, Repr

/-- One call of `write` or `read`, with its result. -/
inductive Action where
  | client (n : Nat)
  | server (n : Nat)
deriving DecidableEq, Repr

/-! ## The client -/

/-- The memory of an `unsigned int`. -/
def memory (params : Parameters) (number : BitVec 32) : List (BitVec 8) :=
  params.order.encode sizeofUnsigned number.toNat

/-- The head of the client's loop, and the call that comes next. -/
def clientLoop (params : Parameters) (i : Nat) : Client :=
  if i < params.iters.toNat then
    .requesting i ⟨sizeofUnsigned, 0⟩
  else
    .completing ⟨sizeofUnsigned, 0⟩

/-- The client in or after `read_exact`. -/
def clientReceive (params : Parameters) (i : Nat) : Progress → Client
  | .running transfer => .receiving i transfer
  | .returned total =>
      if total ≠ params.msgSize.toNat then
        .exited .failure
      else
        clientLoop params (i + 1)

/-- The client in or after `write_exact` of the message size. -/
def clientRequest (params : Parameters) (i : Nat) : Progress → Client
  | .running transfer => .requesting i transfer
  | .returned total =>
      if total ≠ sizeofUnsigned then
        .exited .failure
      else
        clientReceive params i (enter params.msgSize.toNat)

/-- The client in or after `write_exact` of the final zero. -/
def clientComplete : Progress → Client
  | .running transfer => .completing transfer
  | .returned total =>
      if total ≠ sizeofUnsigned then
        .exited .failure
      else
        .exited .success

/-- Has the process closed its end of the connection? -/
def Client.closed : Client → Bool
  | .exited _ => true
  | _ => false

def Server.closed : Server → Bool
  | .exited _ => true
  | _ => false

/-- A call of the client that transfers `n` bytes. -/
def clientStep (params : Parameters) (state : State) (n : Nat) :
    Option State :=
  match state.client with
  | .requesting i transfer =>
      if CanWrite (transfer.request sizeofUnsigned) n then
        some
          { state with
            client := clientRequest params i (transfer.after n)
            requests :=
              state.requests ++
                (transfer.curBuf (memory params params.msgSize)
                  false).take n }
      else
        none
  | .receiving i transfer =>
      if CanRead state.replies state.server.closed
          (transfer.request defaultBufSize) n then
        some
          { state with
            client := clientReceive params i (transfer.after n)
            consumed := state.consumed + n
            replies := state.replies.drop n }
      else
        none
  | .completing transfer =>
      if CanWrite (transfer.request sizeofUnsigned) n then
        some
          { state with
            client := clientComplete (transfer.after n)
            requests :=
              state.requests ++
                (transfer.curBuf (memory params 0) false).take n }
      else
        none
  | .exited _ => none

/-! ## The server -/

/-- The zeroed `write_buf` of the server. -/
def writeBuf : List (BitVec 8) :=
  List.replicate defaultBufSize 0

/-- The head of the server's loop. -/
def serverLoop : Server :=
  .decoding [] ⟨sizeofUnsigned, 0⟩

/-- The server in or after `write_exact`. -/
def serverSend (state : State) (msgSize : BitVec 32) :
    Progress → State
  | .running transfer => { state with server := .sending msgSize transfer }
  | .returned total =>
      if total ≠ msgSize.toNat then
        { state with server := .exited .failure }
      else
        { state with
          server := serverLoop
          iters := state.iters + 1 }

/-- The server after it has read a size. -/
def serverSize (state : State) (msgSize : BitVec 32) : State :=
  let state := { state with decoded := state.decoded ++ [msgSize] }
  if msgSize = 0 then
    { state with server := .exited .success }
  else
    serverSend state msgSize (enter msgSize.toNat)

/-- The server in or after `read_exact`. -/
def serverDecode (params : Parameters) (state : State)
    (bytes : List (BitVec 8)) : Progress → State
  | .running transfer => { state with server := .decoding bytes transfer }
  | .returned total =>
      if total ≠ sizeofUnsigned then
        { state with server := .exited .failure }
      else
        serverSize state (BitVec.ofNat 32 (params.order.decode bytes))

/-- A call of the server that transfers `n` bytes. -/
def serverStep (params : Parameters) (state : State) (n : Nat) :
    Option State :=
  match state.server with
  | .decoding bytes transfer =>
      if CanRead state.requests state.client.closed
          (transfer.request sizeofUnsigned) n then
        some
          (serverDecode params
            { state with requests := state.requests.drop n }
            (bytes ++ state.requests.take n) (transfer.after n))
      else
        none
  | .sending msgSize transfer =>
      if CanWrite (transfer.request defaultBufSize) n then
        some
          (serverSend
            { state with
              replies :=
                state.replies ++
                  (transfer.curBuf writeBuf true).take n }
            msgSize (transfer.after n))
      else
        none
  | .exited _ => none

/-! ## The session -/

/-- The step function of the session. -/
def next (params : Parameters) (state : State) : Action → Option State
  | .client n => clientStep params state n
  | .server n => serverStep params state n

/-- The connection is established and the first call of each is pending. -/
def start (params : Parameters) : State where
  client := clientLoop params 0
  consumed := 0
  server := serverLoop
  iters := 0
  decoded := []
  requests := []
  replies := []

/-! ## One call -/

/-- A call of `write` leaves some bytes or completes `write_exact`. -/
theorem after_write_cases
    {total done max n : Nat}
    (writable : CanWrite ((partway total done).request max) n) :
    done + n < total ∧
        (partway total done).after n =
          .running (partway total (done + n)) ∨
      done + n = total ∧
        (partway total done).after n = .returned total :=
  after_partway_cases writable.1
    (Nat.le_trans writable.2 (request_partway_le _ _ _))

/-- A call of `read`, before the end of the stream, does so too. -/
theorem after_read_cases
    {flying : List (BitVec 8)} {total done max n : Nat}
    (readable : CanRead flying false ((partway total done).request max) n) :
    n ≤ flying.length ∧
      (done + n < total ∧
          (partway total done).after n =
            .running (partway total (done + n)) ∨
        done + n = total ∧
          (partway total done).after n = .returned total) := by
  rcases canRead_open_iff.mp readable with ⟨positive, requested, inside⟩
  constructor
  · exact inside
  · exact
      after_partway_cases positive
        (Nat.le_trans requested (request_partway_le _ _ _))

/-- A write stays inside of what is to be written. -/
theorem add_le_of_canWrite
    {total done max n : Nat}
    (writable : CanWrite ((partway total done).request max) n) :
    done + n ≤ total := by
  rcases after_write_cases writable with ⟨short, _⟩ | ⟨complete, _⟩
  · exact Nat.le_of_lt short
  · exact Nat.le_of_eq complete

/-! ## Framing -/

/-- A server that has read some bytes of a size. -/
def decodingOf (bytes : List (BitVec 8)) : Server :=
  .decoding bytes (partway sizeofUnsigned bytes.length)

/-- The first `written` bytes of a size are at the server or in flight. -/
structure Framed (params : Parameters) (number : BitVec 32)
    (written : Nat) (bytes flying : List (BitVec 8)) : Prop where
  short : bytes.length < sizeofUnsigned
  split : bytes ++ flying = (memory params number).take written

@[simp]
theorem length_memory (params : Parameters) (number : BitVec 32) :
    (memory params number).length = sizeofUnsigned :=
  ByteOrder.length_encode _ _ _

theorem decode_memory (params : Parameters) (number : BitVec 32) :
    BitVec.ofNat 32 (params.order.decode (memory params number)) =
      number := by
  rw [memory, ByteOrder.decode_encode]
  apply BitVec.eq_of_toNat_eq
  rw [BitVec.toNat_ofNat]
  have bound := number.isLt
  simp only [sizeofUnsigned]
  omega

section Framed

variable {params : Parameters} {number : BitVec 32} {written : Nat}
  {bytes flying : List (BitVec 8)}

theorem Framed.nil (params : Parameters) (number : BitVec 32) :
    Framed params number 0 [] [] :=
  ⟨by decide, rfl⟩

theorem Framed.length_eq
    (framed : Framed params number written bytes flying) :
    bytes.length + flying.length = min written sizeofUnsigned := by
  rw [← List.length_append, framed.split, List.length_take,
    length_memory]

/-- A size that is written but not read is in flight. -/
theorem Framed.flying_ne_nil
    (framed : Framed params number sizeofUnsigned bytes flying) :
    flying ≠ [] := by
  intro empty
  have total := framed.length_eq
  have short := framed.short
  rw [empty, List.length_nil, Nat.min_self] at total
  omega

/-- The client writes the next bytes of the size. -/
theorem Framed.write
    (framed : Framed params number written bytes flying) (n : Nat) :
    Framed params number (written + n) bytes
      (flying ++ ((memory params number).drop written).take n) where
  short := framed.short
  split := by
    rw [← List.append_assoc, framed.split, List.take_add]

/-- The server reads the next bytes of the size, but not all of them. -/
theorem Framed.read
    (framed : Framed params number written bytes flying) {n : Nat}
    (short : (bytes ++ flying.take n).length < sizeofUnsigned) :
    Framed params number written (bytes ++ flying.take n)
      (flying.drop n) where
  short := short
  split := by
    rw [List.append_assoc, List.take_append_drop, framed.split]

/-- The server reads the last bytes of the size. -/
theorem Framed.read_all
    (framed : Framed params number written bytes flying) {n : Nat}
    (complete : (bytes ++ flying.take n).length = sizeofUnsigned) :
    sizeofUnsigned ≤ written ∧
      bytes ++ flying.take n = memory params number ∧
      flying.drop n = [] := by
  have total := framed.length_eq
  have whole := framed.split
  rw [List.length_append, List.length_take] at complete
  have enough : sizeofUnsigned ≤ written := by omega
  have nothing : flying.drop n = [] := by
    rw [List.drop_eq_nil_iff]
    omega
  refine ⟨enough, ?_, nothing⟩
  rw [List.take_of_length_le (by rw [length_memory]; exact enough)]
    at whole
  rw [List.take_of_length_le (List.drop_eq_nil_iff.mp nothing)]
  exact whole

/-- A read of the server either continues the size or completes it. -/
theorem Framed.serverStep_cases
    {state result : State} {n : Nat}
    (framed : Framed params number written bytes state.requests)
    (server : state.server = decodingOf bytes)
    (more : state.client.closed = true → state.requests ≠ [])
    (step : serverStep params state n = some result) :
    (∃ received flying,
      Framed params number written received flying ∧
        result =
          { state with
            server := decodingOf received
            requests := flying }) ∨
      sizeofUnsigned ≤ written ∧
        result = serverSize { state with requests := [] } number := by
  rw [serverStep, server] at step
  simp only [decodingOf, Option.ite_none_right_eq_some,
    Option.some.injEq] at step
  rcases step with ⟨readable, rfl⟩
  have positive : n ≠ 0 := by
    intro zero
    rw [CanRead, if_pos zero] at readable
    exact more readable.2 readable.1
  rw [CanRead, if_neg positive] at readable
  have inside := readable.2
  have requested : n ≤ sizeofUnsigned - bytes.length :=
    Nat.le_trans readable.1 (request_partway_le _ _ _)
  have length :
      (bytes ++ state.requests.take n).length = bytes.length + n := by
    rw [List.length_append, List.length_take, Nat.min_eq_left inside]
  rcases after_partway_cases (Nat.pos_of_ne_zero positive) requested with
    ⟨short, running⟩ | ⟨complete, returned⟩
  · left
    rw [← length] at short
    refine ⟨_, _, framed.read short, ?_⟩
    rw [running, serverDecode, decodingOf, length]
  · right
    rw [← length] at complete
    rcases framed.read_all complete with ⟨enough, whole, nothing⟩
    refine ⟨enough, ?_⟩
    rw [returned, serverDecode, if_neg (fun ne => ne rfl), whole, nothing,
      decode_memory, server, decodingOf]

end Framed

/-! ## The invariant -/

/-- The states of a session, in the order in which it goes through them. -/
inductive Sound (params : Parameters) : State → Prop where
  /-- The client writes the size of round `i`. -/
  | requesting {i written : Nat} {bytes flying : List (BitVec 8)}
      (round : i < params.iters.toNat)
      (unfinished : written < sizeofUnsigned)
      (framed : Framed params params.msgSize written bytes flying) :
      Sound params
        { client := .requesting i (partway sizeofUnsigned written)
          consumed := i * params.msgSize.toNat
          server := decodingOf bytes
          iters := BitVec.ofNat 32 i
          decoded := List.replicate i params.msgSize
          requests := flying
          replies := [] }
  /-- The size is written, and the server has not read all of it. -/
  | requested {i : Nat} {bytes flying : List (BitVec 8)}
      (round : i < params.iters.toNat)
      (framed : Framed params params.msgSize sizeofUnsigned bytes flying) :
      Sound params
        { client := .receiving i (partway params.msgSize.toNat 0)
          consumed := i * params.msgSize.toNat
          server := decodingOf bytes
          iters := BitVec.ofNat 32 i
          decoded := List.replicate i params.msgSize
          requests := flying
          replies := [] }
  /-- The server writes the message, and the client reads it. -/
  | replying {i received sent : Nat} {replies : List (BitVec 8)}
      (round : i < params.iters.toNat)
      (unfinished : sent < params.msgSize.toNat)
      (split : received + replies.length = sent) :
      Sound params
        { client := .receiving i (partway params.msgSize.toNat received)
          consumed := i * params.msgSize.toNat + received
          server :=
            .sending params.msgSize (partway params.msgSize.toNat sent)
          iters := BitVec.ofNat 32 i
          decoded := List.replicate (i + 1) params.msgSize
          requests := []
          replies := replies }
  /-- The message is written, and the client has not read all of it. -/
  | replied {i received : Nat} {replies : List (BitVec 8)}
      (round : i < params.iters.toNat)
      (unfinished : received < params.msgSize.toNat)
      (split : received + replies.length = params.msgSize.toNat) :
      Sound params
        { client := .receiving i (partway params.msgSize.toNat received)
          consumed := i * params.msgSize.toNat + received
          server := serverLoop
          iters := BitVec.ofNat 32 (i + 1)
          decoded := List.replicate (i + 1) params.msgSize
          requests := []
          replies := replies }
  /-- The client writes the final zero. -/
  | completing {written : Nat} {bytes flying : List (BitVec 8)}
      (unfinished : written < sizeofUnsigned)
      (framed : Framed params 0 written bytes flying) :
      Sound params
        { client := .completing (partway sizeofUnsigned written)
          consumed := params.iters.toNat * params.msgSize.toNat
          server := decodingOf bytes
          iters := params.iters
          decoded := List.replicate params.iters.toNat params.msgSize
          requests := flying
          replies := [] }
  /-- The client has exited, and the server has not read all of the zero. -/
  | completed {bytes flying : List (BitVec 8)}
      (framed : Framed params 0 sizeofUnsigned bytes flying) :
      Sound params
        { client := .exited .success
          consumed := params.iters.toNat * params.msgSize.toNat
          server := decodingOf bytes
          iters := params.iters
          decoded := List.replicate params.iters.toNat params.msgSize
          requests := flying
          replies := [] }
  /-- Both have exited. -/
  | finished :
      Sound params
        { client := .exited .success
          consumed := params.iters.toNat * params.msgSize.toNat
          server := .exited .success
          iters := params.iters
          decoded :=
            List.replicate params.iters.toNat params.msgSize ++ [0]
          requests := []
          replies := [] }

section Sound

variable {params : Parameters}

/-- A client that is at the head of its loop. -/
theorem Sound.clientLoop
    {i : Nat} (round : i ≤ params.iters.toNat) :
    Sound params
      { client := clientLoop params i
        consumed := i * params.msgSize.toNat
        server := serverLoop
        iters := BitVec.ofNat 32 i
        decoded := List.replicate i params.msgSize
        requests := []
        replies := [] } := by
  rw [Session.clientLoop]
  split_ifs with more
  · exact .requesting more (by decide) (Framed.nil params params.msgSize)
  · have last : i = params.iters.toNat := by omega
    subst last
    rw [BitVec.ofNat_toNat, BitVec.setWidth_eq]
    exact .completing (by decide) (Framed.nil params 0)

theorem sound_start (params : Parameters) :
    Sound params (start params) := by
  have sound := Sound.clientLoop (Nat.zero_le params.iters.toNat)
  rw [Nat.zero_mul] at sound
  exact sound

theorem Sound.clientStep
    {state result : State} {n : Nat}
    (sound : Sound params state)
    (step : Session.clientStep params state n = some result)
    (size : 0 < params.msgSize.toNat) :
    Sound params result := by
  cases sound with
  | @requesting i written bytes flying round unfinished framed =>
      simp only [Session.clientStep, Option.ite_none_right_eq_some,
        Option.some.injEq] at step
      rcases step with ⟨writable, rfl⟩
      have grown := framed.write n
      rcases after_write_cases writable with
        ⟨short, running⟩ | ⟨complete, returned⟩
      · rw [running]
        exact .requesting round short grown
      · rw [returned, clientRequest, if_neg (fun ne => ne rfl),
          enter_eq_partway size]
        rw [complete] at grown
        exact .requested round grown
  | requested round framed =>
      simp only [Session.clientStep, Option.ite_none_right_eq_some,
        Option.some.injEq] at step
      exact absurd step.1 not_canRead_nil
  | @replying i received sent replies round unfinished split =>
      simp only [Session.clientStep, Option.ite_none_right_eq_some,
        Option.some.injEq] at step
      rcases step with ⟨readable, rfl⟩
      rcases after_read_cases readable with
        ⟨inside, ⟨short, running⟩ | ⟨complete, returned⟩⟩
      · rw [running, Nat.add_assoc]
        refine .replying round unfinished ?_
        rw [List.length_drop]
        omega
      · omega
  | @replied i received replies round unfinished split =>
      simp only [Session.clientStep, Option.ite_none_right_eq_some,
        Option.some.injEq] at step
      rcases step with ⟨readable, rfl⟩
      rcases after_read_cases readable with
        ⟨inside, ⟨short, running⟩ | ⟨complete, returned⟩⟩
      · rw [running, Nat.add_assoc]
        refine .replied round short ?_
        rw [List.length_drop]
        omega
      · rw [returned, clientReceive, if_neg (fun ne => ne rfl),
          Nat.add_assoc, complete, ← Nat.succ_mul]
        have nothing : replies.drop n = [] := by
          rw [List.drop_eq_nil_iff]
          omega
        rw [nothing]
        exact Sound.clientLoop round
  | @completing written bytes flying unfinished framed =>
      simp only [Session.clientStep, Option.ite_none_right_eq_some,
        Option.some.injEq] at step
      rcases step with ⟨writable, rfl⟩
      have grown := framed.write n
      rcases after_write_cases writable with
        ⟨short, running⟩ | ⟨complete, returned⟩
      · rw [running]
        exact .completing short grown
      · rw [returned, clientComplete, if_neg (fun ne => ne rfl)]
        rw [complete] at grown
        exact .completed grown
  | completed framed => cases step
  | finished => cases step

theorem Sound.serverStep
    {state result : State} {n : Nat}
    (sound : Sound params state)
    (step : Session.serverStep params state n = some result)
    (size : 0 < params.msgSize.toNat) :
    Sound params result := by
  cases sound with
  | requesting round unfinished framed =>
      rcases framed.serverStep_cases rfl (by intro closed; cases closed)
          step with
        ⟨received, flying, continued, rfl⟩ | ⟨enough, _⟩
      · exact .requesting round unfinished continued
      · exact absurd unfinished (Nat.not_lt.mpr enough)
  | @requested i bytes flying round framed =>
      rcases framed.serverStep_cases rfl (by intro closed; cases closed)
          step with
        ⟨received, flying, continued, rfl⟩ | ⟨_, rfl⟩
      · exact .requested round continued
      · have nonzero : params.msgSize ≠ 0 := by
          intro zero
          rw [zero] at size
          exact absurd size (Nat.lt_irrefl 0)
        rw [serverSize, if_neg nonzero, enter_eq_partway size]
        simp only [serverSend, ← List.replicate_succ']
        have empty : 0 + ([] : List (BitVec 8)).length = 0 := rfl
        have sound := Sound.replying round size empty
        exact sound
  | @replying i received sent replies round unfinished split =>
      simp only [Session.serverStep, Option.ite_none_right_eq_some,
        Option.some.injEq] at step
      rcases step with ⟨writable, rfl⟩
      have written :
          (replies ++ writeBuf.take n).length = replies.length + n := by
        rw [List.length_append, List.length_take, writeBuf,
          List.length_replicate, Nat.min_eq_left]
        exact
          Nat.le_trans writable.2 (Transfer.request_le_max _ _)
      rcases after_write_cases writable with
        ⟨short, running⟩ | ⟨complete, returned⟩
      · rw [running]
        refine .replying round short ?_
        show received + (replies ++ writeBuf.take n).length = sent + n
        omega
      · rw [returned, serverSend, if_neg (fun ne => ne rfl)]
        have counted :
            BitVec.ofNat 32 i + 1 = BitVec.ofNat 32 (i + 1) :=
          (BitVec.ofNat_add i 1).symm
        rw [counted]
        refine .replied round (by omega) ?_
        show received + (replies ++ writeBuf.take n).length =
          params.msgSize.toNat
        omega
  | replied round unfinished split =>
      simp only [Session.serverStep, serverLoop,
        Option.ite_none_right_eq_some, Option.some.injEq] at step
      exact absurd step.1 not_canRead_nil
  | completing unfinished framed =>
      rcases framed.serverStep_cases rfl (by intro closed; cases closed)
          step with
        ⟨received, flying, continued, rfl⟩ | ⟨enough, _⟩
      · exact .completing unfinished continued
      · exact absurd unfinished (Nat.not_lt.mpr enough)
  | completed framed =>
      rcases
          framed.serverStep_cases rfl (fun _ => framed.flying_ne_nil) step
        with
        ⟨received, flying, continued, rfl⟩ | ⟨_, rfl⟩
      · exact .completed continued
      · exact .finished
  | finished => cases step

theorem Sound.next
    {state result : State} {action : Action}
    (sound : Sound params state)
    (step : Session.next params state action = some result)
    (size : 0 < params.msgSize.toNat) :
    Sound params result := by
  cases action with
  | client n => exact sound.clientStep step size
  | server n => exact sound.serverStep step size

/-- A call that is not done can write the next byte. -/
theorem canWrite_partway
    {total done : Nat} (unfinished : done < total)
    {max : Nat} (positive : 0 < max) :
    CanWrite ((partway total done).request max) 1 :=
  ⟨Nat.one_pos,
    Transfer.request_pos (Nat.sub_pos_of_lt unfinished) positive⟩

theorem canRead_partway
    {total done : Nat} (unfinished : done < total)
    {max : Nat} (positive : 0 < max)
    {flying : List (BitVec 8)} (nonempty : flying ≠ [])
    (closed : Bool) :
    CanRead flying closed ((partway total done).request max) 1 :=
  canRead_one nonempty
    (Transfer.request_pos (Nat.sub_pos_of_lt unfinished) positive) closed

/-- Some call can return, unless both processes have exited. -/
theorem Sound.exited_of_stuck
    {state : State} (sound : Sound params state)
    (stuck : Stuck (Session.next params) state) :
    state.client = .exited .success ∧ state.server = .exited .success := by
  cases sound with
  | requesting round unfinished framed =>
      have blocked := stuck (.client 1)
      simp only [Session.next, Session.clientStep] at blocked
      rw [if_pos (canWrite_partway unfinished (by decide))] at blocked
      cases blocked
  | requested round framed =>
      have blocked := stuck (.server 1)
      simp only [Session.next, Session.serverStep, decodingOf] at blocked
      rw [if_pos
        (canRead_partway framed.short (by decide) framed.flying_ne_nil _)]
        at blocked
      cases blocked
  | replying round unfinished split =>
      have blocked := stuck (.server 1)
      simp only [Session.next, Session.serverStep] at blocked
      rw [if_pos (canWrite_partway unfinished (by decide))] at blocked
      cases blocked
  | @replied i received replies round unfinished split =>
      have nonempty : replies ≠ [] := by
        intro empty
        rw [empty, List.length_nil] at split
        omega
      have blocked := stuck (.client 1)
      simp only [Session.next, Session.clientStep] at blocked
      rw [if_pos (canRead_partway unfinished (by decide) nonempty _)]
        at blocked
      cases blocked
  | completing unfinished framed =>
      have blocked := stuck (.client 1)
      simp only [Session.next, Session.clientStep] at blocked
      rw [if_pos (canWrite_partway unfinished (by decide))] at blocked
      cases blocked
  | completed framed =>
      have blocked := stuck (.server 1)
      simp only [Session.next, Session.serverStep, decodingOf] at blocked
      rw [if_pos
        (canRead_partway framed.short (by decide) framed.flying_ne_nil _)]
        at blocked
      cases blocked
  | finished => exact ⟨rfl, rfl⟩

/-- The sizes that the server has decoded. -/
theorem Sound.decoded_eq
    {state : State} (sound : Sound params state) :
    ∃ rounds ≤ params.iters.toNat,
      state.decoded = List.replicate rounds params.msgSize ∨
        state.decoded =
          List.replicate params.iters.toNat params.msgSize ++ [0] := by
  cases sound with
  | requesting round _ _ => exact ⟨_, Nat.le_of_lt round, .inl rfl⟩
  | requested round _ => exact ⟨_, Nat.le_of_lt round, .inl rfl⟩
  | replying round _ _ => exact ⟨_, round, .inl rfl⟩
  | replied round _ _ => exact ⟨_, round, .inl rfl⟩
  | completing _ _ => exact ⟨_, Nat.le_refl _, .inl rfl⟩
  | completed _ => exact ⟨_, Nat.le_refl _, .inl rfl⟩
  | finished => exact ⟨_, Nat.le_refl _, .inr rfl⟩

end Sound

/-! ## All schedules -/

/--
In every state that a session reaches, the sizes that the server has decoded
are that of the client, up to once for every iteration, or all of these and
the final zero.  If no call can return then both processes have exited.  If
they have then both were successful, the server has counted the iterations of
the client, and the client has read a message in each of them.
-/
theorem session_correct
    (params : Parameters) (nonzero : params.msgSize ≠ 0)
    {state : State}
    (reachable : Reachable (next params) (start params) state) :
    (∃ rounds ≤ params.iters.toNat,
        state.decoded = List.replicate rounds params.msgSize ∨
          state.decoded =
            List.replicate params.iters.toNat params.msgSize ++ [0]) ∧
      (Stuck (next params) state →
        state.client.closed = true ∧ state.server.closed = true) ∧
      ∀ clientStatus serverStatus,
        state.client = .exited clientStatus →
          state.server = .exited serverStatus →
            clientStatus = .success ∧ serverStatus = .success ∧
              state.iters = params.iters ∧
              state.consumed =
                params.iters.toNat * params.msgSize.toNat := by
  have size : 0 < params.msgSize.toNat :=
    BitVec.toNat_pos_of_ne_zero nonzero
  have sound : Sound params state := by
    refine Reachable.invariant ?_ (sound_start params) reachable
    intro state action result sound step
    exact sound.next step size
  refine ⟨sound.decoded_eq, ?_, ?_⟩
  · intro stuck
    rcases sound.exited_of_stuck stuck with ⟨client, server⟩
    rw [client, server]
    exact ⟨rfl, rfl⟩
  · intro clientStatus serverStatus client server
    cases sound with
    | finished =>
        cases client
        cases server
        exact ⟨rfl, rfl, rfl, rfl⟩
    | requesting => cases client
    | requested => cases client
    | replying => cases client
    | replied => cases client
    | completing => cases client
    | completed => cases server

/-- One request of three bytes; the size is read in two parts. -/
def oneRequest : Parameters where
  order := .little
  iters := 1
  msgSize := 3

/-- The state in which both processes have exited. -/
def served : State where
  client := .exited .success
  consumed := 3
  server := .exited .success
  iters := 1
  decoded := [3, 0]
  requests := []
  replies := []

theorem reachable_served :
    Reachable (next oneRequest) (start oneRequest) served :=
  ⟨[.client 4, .server 1, .server 3, .server 2, .client 1, .server 1,
      .client 2, .client 4, .server 4],
    by decide⟩

/-- The session with one request is over and was successful. -/
theorem session_correct_oneRequest :
    (∃ rounds ≤ oneRequest.iters.toNat,
        served.decoded = List.replicate rounds oneRequest.msgSize ∨
          served.decoded =
            List.replicate oneRequest.iters.toNat oneRequest.msgSize ++
              [0]) ∧
      (Stuck (next oneRequest) served →
        served.client.closed = true ∧ served.server.closed = true) ∧
      ∀ clientStatus serverStatus,
        served.client = .exited clientStatus →
          served.server = .exited serverStatus →
            clientStatus = .success ∧ serverStatus = .success ∧
              served.iters = oneRequest.iters ∧
              served.consumed =
                oneRequest.iters.toNat * oneRequest.msgSize.toNat :=
  session_correct oneRequest (by decide) reachable_served

end CodingExamples.SimpleTrafficGen.Session
