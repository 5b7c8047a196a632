import CodingExamples.Library.Blocks
import CodingExamples.Library.Progress
import CodingExamples.SimpleTrafficGen.Session

/-!
# Sessions with failures

A `write` or `read` that fails ends `write_exact` or `read_exact` early.  The
process sees that too few bytes were transferred, closes the connection and
exits; it does not try again.  This can happen to both processes at any call.

What the client has written is always a beginning of one fixed sequence of
bytes: the sizes of all rounds, and the final zero.  Each position in the code
determines how many of these bytes were written, and how many of the payload.
-/

namespace CodingExamples.SimpleTrafficGen.Faults

open CodingExamples.Library.Blocks
open CodingExamples.Library.Execution
open CodingExamples.Library.Fifo
open CodingExamples.Library.Progress
open CodingExamples.SimpleTrafficGen.Common
open CodingExamples.SimpleTrafficGen.Session

/-- A call with its result, or a call that fails. -/
inductive FaultyAction where
  | call (action : Action)
  | clientFails
  | serverFails
deriving DecidableEq, Repr

/-- The call of the client returns -1. -/
def clientFault (params : Parameters) (state : State) : Option State :=
  match state.client with
  | .requesting i transfer =>
      some
        { state with client := clientRequest params i (transfer.after (-1)) }
  | .receiving i transfer =>
      some
        { state with client := clientReceive params i (transfer.after (-1)) }
  | .completing transfer =>
      some { state with client := clientComplete (transfer.after (-1)) }
  | .exited _ => none

/-- The call of the server returns -1. -/
def serverFault (params : Parameters) (state : State) : Option State :=
  match state.server with
  | .decoding bytes transfer =>
      some (serverDecode params state bytes (transfer.after (-1)))
  | .sending msgSize transfer =>
      some (serverSend state msgSize (transfer.after (-1)))
  | .exited _ => none

/-- The step function of a session in which calls may fail. -/
def nextFaulty (params : Parameters) (state : State) :
    FaultyAction → Option State
  | .call action => next params state action
  | .clientFails => clientFault params state
  | .serverFails => serverFault params state

/-- The call does not fail. -/
def Succeeds : FaultyAction → Bool
  | .call _ => true
  | _ => false

/-! ## What the client writes -/

/-- The sizes that a client sends, with the final zero. -/
def sizes (params : Parameters) : List (BitVec 32) :=
  List.replicate params.iters.toNat params.msgSize ++ [0]

/-- The bytes that it writes. -/
def script (params : Parameters) : List (BitVec 8) :=
  (sizes params).flatMap (memory params)

theorem length_script (params : Parameters) :
    (script params).length = sizeofUnsigned * (params.iters.toNat + 1) := by
  rw [script, length_flatMap_block (length_memory params), sizes,
    List.length_append, List.length_replicate]
  rfl

theorem getElem?_sizes_of_lt
    {params : Parameters} {i : Nat} (round : i < params.iters.toNat) :
    (sizes params)[i]? = some params.msgSize := by
  rw [sizes, List.getElem?_append_left, List.getElem?_replicate,
    if_pos round]
  rw [List.length_replicate]
  exact round

theorem getElem?_sizes_last (params : Parameters) :
    (sizes params)[params.iters.toNat]? = some 0 := by
  have length :
      (List.replicate params.iters.toNat params.msgSize).length =
        params.iters.toNat :=
    List.length_replicate
  rw [sizes, List.getElem?_append_right (Nat.le_of_eq length), length,
    Nat.sub_self]
  rfl

/-! ## The invariant -/

/--
Where the client is after it has written and read some bytes.  A client that
has failed has not written everything.
-/
inductive ClientAt (params : Parameters) : Client → Nat → Nat → Prop where
  | requesting {i done : Nat} (round : i < params.iters.toNat)
      (unfinished : done < sizeofUnsigned) :
      ClientAt params (.requesting i (partway sizeofUnsigned done))
        (sizeofUnsigned * i + done) (i * params.msgSize.toNat)
  | receiving {i got : Nat} (round : i < params.iters.toNat)
      (unfinished : got < params.msgSize.toNat) :
      ClientAt params (.receiving i (partway params.msgSize.toNat got))
        (sizeofUnsigned * (i + 1)) (i * params.msgSize.toNat + got)
  | completing {done : Nat} (unfinished : done < sizeofUnsigned) :
      ClientAt params (.completing (partway sizeofUnsigned done))
        (sizeofUnsigned * params.iters.toNat + done)
        (params.iters.toNat * params.msgSize.toNat)
  | succeeded :
      ClientAt params (.exited .success)
        (sizeofUnsigned * (params.iters.toNat + 1))
        (params.iters.toNat * params.msgSize.toNat)
  | failed {written consumed : Nat}
      (unfinished :
        written < sizeofUnsigned * (params.iters.toNat + 1)) :
      ClientAt params (.exited .failure) written consumed

/--
Where the server is after it has decoded some sizes, read a part of the next
one and written some bytes, with its counter.
-/
inductive ServerAt (params : Parameters) :
    Server → BitVec 32 → List (BitVec 32) → Nat → List (BitVec 8) → Nat →
      Prop where
  | decoding {count : Nat} {bytes : List (BitVec 8)}
      (round : count ≤ params.iters.toNat)
      (unfinished : bytes.length < sizeofUnsigned) :
      ServerAt params (decodingOf bytes) (BitVec.ofNat 32 count)
        (List.replicate count params.msgSize) count bytes
        (count * params.msgSize.toNat)
  | sending {count done : Nat} (round : count < params.iters.toNat)
      (unfinished : done < params.msgSize.toNat) :
      ServerAt params
        (.sending params.msgSize (partway params.msgSize.toNat done))
        (BitVec.ofNat 32 count)
        (List.replicate (count + 1) params.msgSize) (count + 1) []
        (count * params.msgSize.toNat + done)
  | succeeded :
      ServerAt params (.exited .success) params.iters (sizes params)
        (params.iters.toNat + 1) [] (params.iters.toNat * params.msgSize.toNat)
  | failed {counter : BitVec 32} {count sent : Nat}
      {bytes : List (BitVec 8)} (round : count ≤ params.iters.toNat)
      (bounded : sent ≤ count * params.msgSize.toNat) :
      ServerAt params (.exited .failure) counter
        (List.replicate count params.msgSize) count bytes sent

/-- Every byte is where the two processes expect it. -/
structure Aligned (params : Parameters) (state : State)
    (written count : Nat) (received : List (BitVec 8)) (sent : Nat) :
    Prop where
  client : ClientAt params state.client written state.consumed
  server :
    ServerAt params state.server state.iters state.decoded count received sent
  requests :
    (script params).take written =
      (script params).take (sizeofUnsigned * count) ++
        (received ++ state.requests)
  replies : state.consumed + state.replies.length = sent

def Intact (params : Parameters) (state : State) : Prop :=
  ∃ written count received sent,
    Aligned params state written count received sent

/-! ## The calls that are left -/

/-- How many bytes the client still writes and reads at most, and one more. -/
def clientLeft (params : Parameters) : Client → Nat
  | .requesting i transfer =>
      transfer.count + params.msgSize.toNat +
        (params.iters.toNat - (i + 1)) *
          (sizeofUnsigned + params.msgSize.toNat) +
        sizeofUnsigned + 1
  | .receiving i transfer =>
      transfer.count +
        (params.iters.toNat - (i + 1)) *
          (sizeofUnsigned + params.msgSize.toNat) +
        sizeofUnsigned + 1
  | .completing transfer => transfer.count + 1
  | .exited _ => 0

/-- How many bytes the client still writes at most. -/
def unwritten (params : Parameters) : Client → Nat
  | .requesting i transfer =>
      transfer.count + (params.iters.toNat - (i + 1)) * sizeofUnsigned +
        sizeofUnsigned
  | .receiving i _ =>
      (params.iters.toNat - (i + 1)) * sizeofUnsigned + sizeofUnsigned
  | .completing transfer => transfer.count
  | .exited _ => 0

def serverLeft : Server → Nat
  | .decoding _ _ => 1
  | .sending _ transfer => transfer.count + 1
  | .exited _ => 0

/-- A byte of a size pays for the message that the server may write for it. -/
def callsLeft (params : Parameters) (state : State) : Nat :=
  clientLeft params state.client +
    (unwritten params state.client + state.requests.length) *
      (params.msgSize.toNat + 1) +
    serverLeft state.server

/-- Fewer calls are left if fewer bytes are, on one side. -/
theorem callsLeft_lt
    {params : Parameters} {state result : State}
    (client :
      clientLeft params result.client < clientLeft params state.client)
    (flying :
      unwritten params result.client + result.requests.length ≤
        unwritten params state.client + state.requests.length)
    (server : result.server = state.server) :
    callsLeft params result < callsLeft params state := by
  have weighted :=
    Nat.mul_le_mul_right (params.msgSize.toNat + 1) flying
  rw [callsLeft, callsLeft, server]
  omega

section Steps

variable {params : Parameters}

/-! ### The head of the client's loop -/

theorem clientAt_clientLoop {i : Nat} (round : i ≤ params.iters.toNat) :
    ClientAt params (clientLoop params i) (sizeofUnsigned * i)
      (i * params.msgSize.toNat) := by
  rw [clientLoop]
  split
  case isTrue less =>
    have first : 0 < sizeofUnsigned := by
      decide
    exact .requesting less first
  case isFalse notLess =>
    have last : i = params.iters.toNat := by
      omega
    subst last
    have first : 0 < sizeofUnsigned := by
      decide
    exact .completing first

theorem clientLeft_clientLoop {i : Nat} (round : i ≤ params.iters.toNat) :
    clientLeft params (clientLoop params i) =
      (params.iters.toNat - i) * (sizeofUnsigned + params.msgSize.toNat) +
        sizeofUnsigned + 1 := by
  rw [clientLoop]
  split
  case isTrue less =>
    have rounds :
        params.iters.toNat - i = params.iters.toNat - (i + 1) + 1 := by
      omega
    rw [rounds, Nat.succ_mul, clientLeft]
    dsimp only
    omega
  case isFalse notLess =>
    have last : params.iters.toNat - i = 0 := by
      omega
    rw [last, Nat.zero_mul, clientLeft, Nat.zero_add]

theorem unwritten_clientLoop {i : Nat} (round : i ≤ params.iters.toNat) :
    unwritten params (clientLoop params i) =
      (params.iters.toNat - i) * sizeofUnsigned + sizeofUnsigned := by
  rw [clientLoop]
  split
  case isTrue less =>
    have rounds :
        params.iters.toNat - i = params.iters.toNat - (i + 1) + 1 := by
      omega
    rw [rounds, Nat.succ_mul, unwritten]
    dsimp only
    omega
  case isFalse notLess =>
    have last : params.iters.toNat - i = 0 := by
      omega
    rw [last, Nat.zero_mul, unwritten, Nat.zero_add]

/-! ### The client -/

/-- The client writes a part of a size. -/
theorem script_write
    {number : BitVec 32} {i done n : Nat}
    (found : (sizes params)[i]? = some number)
    (inside : done + n ≤ sizeofUnsigned)
    {before received requests : List (BitVec 8)}
    (split :
      (script params).take (sizeofUnsigned * i + done) =
        before ++ (received ++ requests)) :
    (script params).take (sizeofUnsigned * i + (done + n)) =
      before ++
        (received ++
          (requests ++ ((memory params number).drop done).take n)) := by
  rw [script] at split ⊢
  rw [take_flatMap_block_add (length_memory params) found inside, split,
    List.append_assoc, List.append_assoc]

/-- A write puts no more in flight than it returns. -/
theorem length_append_take_le (before bytes : List (BitVec 8)) (n : Nat) :
    (before ++ bytes.take n).length ≤ before.length + n := by
  rw [List.length_append]
  exact Nat.add_le_add_left (List.length_take_le _ _) _

variable {state result : State} {written count sent n i done : Nat}
  {received : List (BitVec 8)}

/-- The client writes a part of the size of a round. -/
theorem Aligned.clientRequests
    (aligned :
      Aligned params state (sizeofUnsigned * i + done) count received sent)
    (size : 0 < params.msgSize.toNat) (round : i < params.iters.toNat)
    (client : state.client = .requesting i (partway sizeofUnsigned done))
    (consumed : state.consumed = i * params.msgSize.toNat)
    (step : Session.clientStep params state n = some result) :
    Intact params result ∧ callsLeft params result < callsLeft params state := by
  rcases state with ⟨_, _, server, iters, decoded, requests, replies⟩
  dsimp only at client consumed
  subst client consumed
  simp only [Session.clientStep, Option.ite_none_right_eq_some,
    Option.some.injEq] at step
  rcases step with ⟨writable, rfl⟩
  have grown :=
    script_write (getElem?_sizes_of_lt round) (add_le_of_canWrite writable)
      aligned.requests
  have flying :
      (requests ++
          ((partway sizeofUnsigned done).curBuf
            (memory params params.msgSize) false).take n).length ≤
        requests.length + n :=
    length_append_take_le _ _ _
  have positive := writable.1
  rcases after_write_cases writable with
    ⟨short, running⟩ | ⟨complete, returned⟩
  · rw [running]
    constructor
    · exact
        ⟨_, count, received, sent,
          ⟨.requesting round short, aligned.server, grown, aligned.replies⟩⟩
    · refine callsLeft_lt ?_ ?_ rfl
      · simp only [clientRequest, clientLeft, partway]
        omega
      · simp only [clientRequest, unwritten, partway] at flying ⊢
        omega
  · rw [complete] at grown
    rw [returned, clientRequest, if_neg (fun ne => ne rfl),
      enter_eq_partway size]
    constructor
    · exact
        ⟨_, count, received, sent,
          ⟨.receiving round size, aligned.server, grown, aligned.replies⟩⟩
    · refine callsLeft_lt ?_ ?_ rfl
      · simp only [clientReceive, clientLeft, partway]
        omega
      · simp only [clientReceive, unwritten, partway] at flying ⊢
        omega

/-- The client reads a part of a message. -/
theorem Aligned.clientReceives
    (aligned :
      Aligned params state (sizeofUnsigned * (i + 1)) count received sent)
    (round : i < params.iters.toNat)
    (client :
      state.client = .receiving i (partway params.msgSize.toNat done))
    (consumed : state.consumed = i * params.msgSize.toNat + done)
    (positive : 0 < n)
    (step : Session.clientStep params state n = some result) :
    Intact params result ∧ callsLeft params result < callsLeft params state := by
  rcases state with ⟨_, _, server, iters, decoded, requests, replies⟩
  dsimp only at client consumed
  subst client consumed
  simp only [Session.clientStep, Option.ite_none_right_eq_some,
    Option.some.injEq] at step
  rcases step with ⟨readable, rfl⟩
  rw [CanRead, if_neg (Nat.ne_of_gt positive)] at readable
  have bound :=
    Nat.le_trans readable.1 (request_partway_le params.msgSize.toNat done _)
  have left :
      i * params.msgSize.toNat + done + n + (replies.drop n).length =
        sent := by
    have replied := aligned.replies
    dsimp only at replied
    rw [List.length_drop]
    omega
  rcases after_partway_cases positive bound with
    ⟨short, running⟩ | ⟨complete, returned⟩
  · rw [running]
    constructor
    · refine
        ⟨_, count, received, sent, ?_, aligned.server, aligned.requests, left⟩
      dsimp only
      rw [Nat.add_assoc]
      exact .receiving round short
    · refine callsLeft_lt ?_ ?_ rfl
      · simp only [clientReceive, clientLeft, partway]
        omega
      · exact Nat.le_refl _
  · rw [returned, clientReceive, if_neg (fun ne => ne rfl)]
    have next : i + 1 ≤ params.iters.toNat :=
      round
    have whole :
        i * params.msgSize.toNat + done + n =
          (i + 1) * params.msgSize.toNat := by
      rw [Nat.succ_mul]
      omega
    constructor
    · refine
        ⟨_, count, received, sent, ?_, aligned.server, aligned.requests, left⟩
      dsimp only
      rw [whole]
      exact clientAt_clientLoop next
    · refine callsLeft_lt ?_ ?_ rfl
      · show clientLeft params (clientLoop params (i + 1)) < _
        rw [clientLeft_clientLoop next]
        simp only [clientLeft, partway]
        omega
      · show unwritten params (clientLoop params (i + 1)) + _ ≤ _
        rw [unwritten_clientLoop next]
        exact Nat.le_refl _

/-- The server has closed the connection in the middle of a message. -/
theorem Aligned.clientEnds
    (aligned :
      Aligned params state (sizeofUnsigned * (i + 1)) count received sent)
    (round : i < params.iters.toNat) (unfinished : done < params.msgSize.toNat)
    (client :
      state.client = .receiving i (partway params.msgSize.toNat done))
    (step : Session.clientStep params state 0 = some result) :
    Intact params result ∧ callsLeft params result < callsLeft params state := by
  rcases state with ⟨_, consumed, server, iters, decoded, requests, replies⟩
  dsimp only at client
  subst client
  simp only [Session.clientStep, Option.ite_none_right_eq_some,
    Option.some.injEq] at step
  rcases step with ⟨readable, rfl⟩
  have failed :
      clientReceive params i
          ((partway params.msgSize.toNat done).after (0 : Nat)) =
        .exited .failure :=
    if_pos (Nat.ne_of_lt unfinished)
  rw [failed]
  have rounds :
      sizeofUnsigned * (i + 1) < sizeofUnsigned * (params.iters.toNat + 1) :=
    Nat.mul_lt_mul_of_pos_left (Nat.succ_lt_succ round) (by decide)
  constructor
  · exact
      ⟨_, count, received, sent,
        ⟨.failed rounds, aligned.server, aligned.requests, aligned.replies⟩⟩
  · refine callsLeft_lt ?_ ?_ rfl
    · simp only [clientLeft]
      omega
    · simp only [unwritten]
      omega

/-- The client writes a part of the final zero. -/
theorem Aligned.clientCompletes
    (aligned :
      Aligned params state (sizeofUnsigned * params.iters.toNat + done) count
        received sent)
    (client : state.client = .completing (partway sizeofUnsigned done))
    (consumed :
      state.consumed = params.iters.toNat * params.msgSize.toNat)
    (step : Session.clientStep params state n = some result) :
    Intact params result ∧ callsLeft params result < callsLeft params state := by
  rcases state with ⟨_, _, server, iters, decoded, requests, replies⟩
  dsimp only at client consumed
  subst client consumed
  simp only [Session.clientStep, Option.ite_none_right_eq_some,
    Option.some.injEq] at step
  rcases step with ⟨writable, rfl⟩
  have grown :=
    script_write (getElem?_sizes_last params) (add_le_of_canWrite writable)
      aligned.requests
  have flying :
      (requests ++
          ((partway sizeofUnsigned done).curBuf
            (memory params 0) false).take n).length ≤
        requests.length + n :=
    length_append_take_le _ _ _
  have positive := writable.1
  rcases after_write_cases writable with
    ⟨short, running⟩ | ⟨complete, returned⟩
  · rw [running]
    constructor
    · exact
        ⟨_, count, received, sent,
          ⟨.completing short, aligned.server, grown, aligned.replies⟩⟩
    · refine callsLeft_lt ?_ ?_ rfl
      · simp only [clientComplete, clientLeft, partway]
        omega
      · simp only [clientComplete, unwritten, partway] at flying ⊢
        omega
  · rw [complete] at grown
    rw [returned, clientComplete, if_neg (fun ne => ne rfl)]
    constructor
    · exact
        ⟨_, count, received, sent,
          ⟨.succeeded, aligned.server, grown, aligned.replies⟩⟩
    · refine callsLeft_lt ?_ ?_ rfl
      · simp only [clientLeft, partway]
        omega
      · simp only [unwritten, partway] at flying ⊢
        omega

theorem Aligned.clientStep
    (aligned : Aligned params state written count received sent)
    (size : 0 < params.msgSize.toNat)
    (step : Session.clientStep params state n = some result) :
    Intact params result ∧ callsLeft params result < callsLeft params state := by
  rcases state with ⟨client, consumed, server, iters, decoded, requests, replies⟩
  have position := aligned.client
  dsimp only at position
  cases position with
  | requesting round unfinished =>
      exact aligned.clientRequests size round rfl rfl step
  | receiving round unfinished =>
      rcases Nat.eq_zero_or_pos n with rfl | positive
      · exact aligned.clientEnds round unfinished rfl step
      · exact aligned.clientReceives round rfl rfl positive step
  | completing unfinished => exact aligned.clientCompletes rfl rfl step
  | succeeded => cases step
  | failed unfinished => cases step

/-! ### The server -/

/-- The server reads something, and may have to write a message for it. -/
theorem callsLeft_lt_of_read
    (client : result.client = state.client) {read : Nat}
    (positive : 0 < read)
    (flying : result.requests.length + read = state.requests.length)
    (server :
      serverLeft result.server ≤
        serverLeft state.server + params.msgSize.toNat) :
    callsLeft params result < callsLeft params state := by
  have split :
      unwritten params state.client + state.requests.length =
        unwritten params state.client + result.requests.length + read := by
    omega
  have paid : params.msgSize.toNat + 1 ≤ read * (params.msgSize.toNat + 1) :=
    Nat.le_mul_of_pos_left _ positive
  rw [callsLeft, callsLeft, client, split, Nat.add_mul _ read]
  omega

theorem callsLeft_lt_of_server
    (client : result.client = state.client)
    (requests : result.requests = state.requests)
    (server : serverLeft result.server < serverLeft state.server) :
    callsLeft params result < callsLeft params state := by
  rw [callsLeft, callsLeft, client, requests]
  omega

/-- The server has read a size. -/
theorem Aligned.serverSize
    {bytes requests : List (BitVec 8)} {consumed : Nat}
    {replies : List (BitVec 8)} {client : Client} {server : Server}
    (size : 0 < params.msgSize.toNat)
    (position : ClientAt params client written consumed)
    (round : count ≤ params.iters.toNat)
    (complete : bytes.length = sizeofUnsigned)
    (requested :
      (script params).take written =
        (script params).take (sizeofUnsigned * count) ++ (bytes ++ requests))
    (replied : consumed + replies.length = count * params.msgSize.toNat) :
    let result :=
      Session.serverSize
        { client := client
          consumed := consumed
          server := server
          iters := BitVec.ofNat 32 count
          decoded := List.replicate count params.msgSize
          requests := requests
          replies := replies }
        (BitVec.ofNat 32 (params.order.decode bytes))
    Intact params result ∧ result.client = client ∧
      result.requests = requests ∧
        serverLeft result.server ≤ params.msgSize.toNat + 1 := by
  rcases Nat.lt_or_eq_of_le round with less | last
  · rcases
        eq_block_of_append (length_memory params) (getElem?_sizes_of_lt less)
          complete requested with
      ⟨whole, rest⟩
    have nonzero : params.msgSize ≠ 0 := by
      intro zero
      rw [zero] at size
      exact absurd size (Nat.lt_irrefl 0)
    rw [whole, decode_memory, Session.serverSize, if_neg nonzero,
      enter_eq_partway size]
    simp only [serverSend, ← List.replicate_succ']
    refine
      ⟨⟨written, count + 1, [], count * params.msgSize.toNat + 0, ?_⟩,
        trivial, trivial, ?_⟩
    · exact ⟨position, .sending less size, rest, replied⟩
    · exact Nat.le_refl _
  · subst last
    rcases
        eq_block_of_append (length_memory params)
          (getElem?_sizes_last params) complete requested with
      ⟨whole, rest⟩
    have counted : BitVec.ofNat 32 params.iters.toNat = params.iters :=
      (BitVec.ofNat_toNat 32 params.iters).trans (BitVec.setWidth_eq _)
    rw [whole, decode_memory, Session.serverSize, if_pos rfl, counted]
    refine
      ⟨⟨written, params.iters.toNat + 1, [],
          params.iters.toNat * params.msgSize.toNat, ?_⟩,
        rfl, rfl, ?_⟩
    · exact ⟨position, .succeeded, rest, replied⟩
    · exact Nat.zero_le _

/-- The server reads a part of a size. -/
theorem Aligned.serverDecodes
    (aligned :
      Aligned params state written count received
        (count * params.msgSize.toNat))
    (size : 0 < params.msgSize.toNat) (round : count ≤ params.iters.toNat)
    (server : state.server = decodingOf received)
    (counter : state.iters = BitVec.ofNat 32 count)
    (decoded : state.decoded = List.replicate count params.msgSize)
    (positive : 0 < n)
    (step : Session.serverStep params state n = some result) :
    Intact params result ∧ callsLeft params result < callsLeft params state := by
  rcases state with ⟨client, consumed, _, _, _, requests, replies⟩
  have requested := aligned.requests
  dsimp only at server counter decoded requested
  subst server counter decoded
  simp only [Session.serverStep, decodingOf, Option.ite_none_right_eq_some,
    Option.some.injEq] at step
  rcases step with ⟨readable, rfl⟩
  rw [CanRead, if_neg (Nat.ne_of_gt positive)] at readable
  have bound :=
    Nat.le_trans readable.1
      (request_partway_le sizeofUnsigned received.length _)
  have length :
      (received ++ requests.take n).length = received.length + n := by
    rw [List.length_append, List.length_take, Nat.min_eq_left readable.2]
  have flying : (requests.drop n).length + n = requests.length := by
    rw [List.length_drop]
    exact Nat.sub_add_cancel readable.2
  rw [← List.take_append_drop n requests, ← List.append_assoc received]
    at requested
  rcases after_partway_cases positive bound with
    ⟨short, running⟩ | ⟨complete, returned⟩
  · rw [running, serverDecode]
    rw [← length] at short ⊢
    constructor
    · exact
        ⟨written, count, _, _,
          ⟨aligned.client, .decoding round short, requested,
            aligned.replies⟩⟩
    · exact callsLeft_lt_of_read rfl positive flying (Nat.le_add_right _ _)
  · rw [← length] at complete
    rw [returned, serverDecode, if_neg (fun ne => ne rfl)]
    rcases
        Aligned.serverSize size aligned.client round complete requested
          aligned.replies with
      ⟨intact, sameClient, sameRequests, bounded⟩
    refine ⟨intact, ?_⟩
    apply callsLeft_lt_of_read sameClient positive
    · rw [sameRequests]
      exact flying
    · rw [Nat.add_comm]
      exact bounded

/-- The client has closed the connection in the middle of a size. -/
theorem Aligned.serverEnds
    (aligned :
      Aligned params state written count received
        (count * params.msgSize.toNat))
    (round : count ≤ params.iters.toNat)
    (unfinished : received.length < sizeofUnsigned)
    (server : state.server = decodingOf received)
    (decoded : state.decoded = List.replicate count params.msgSize)
    (step : Session.serverStep params state 0 = some result) :
    Intact params result ∧ callsLeft params result < callsLeft params state := by
  rcases state with ⟨client, consumed, _, iters, _, requests, replies⟩
  have requested := aligned.requests
  dsimp only at server decoded requested
  subst server decoded
  simp only [Session.serverStep, decodingOf, Option.ite_none_right_eq_some,
    Option.some.injEq] at step
  rcases step with ⟨readable, rfl⟩
  have nothing : requests = [] := by
    rw [CanRead, if_pos rfl] at readable
    exact readable.1
  subst nothing
  have failed :
      (partway sizeofUnsigned received.length).after (0 : Nat) =
        .returned received.length :=
    rfl
  rw [failed, serverDecode, if_pos (Nat.ne_of_lt unfinished)]
  constructor
  · exact
      ⟨written, count, received, _,
        ⟨aligned.client, .failed round (Nat.le_refl _), requested,
          aligned.replies⟩⟩
  · exact callsLeft_lt_of_server rfl rfl Nat.one_pos

/-- The server writes a part of a message. -/
theorem Aligned.serverSends
    (aligned :
      Aligned params state written (count + 1) []
        (count * params.msgSize.toNat + done))
    (round : count < params.iters.toNat)
    (server :
      state.server =
        .sending params.msgSize (partway params.msgSize.toNat done))
    (counter : state.iters = BitVec.ofNat 32 count)
    (decoded : state.decoded = List.replicate (count + 1) params.msgSize)
    (step : Session.serverStep params state n = some result) :
    Intact params result ∧ callsLeft params result < callsLeft params state := by
  rcases state with ⟨client, consumed, _, _, _, requests, replies⟩
  have replied := aligned.replies
  dsimp only at server counter decoded replied
  subst server counter decoded
  simp only [Session.serverStep, Option.ite_none_right_eq_some,
    Option.some.injEq] at step
  rcases step with ⟨writable, rfl⟩
  have length :
      (replies ++ writeBuf.take n).length = replies.length + n := by
    rw [List.length_append, List.length_take, writeBuf,
      List.length_replicate, Nat.min_eq_left]
    exact Nat.le_trans writable.2 (Transfer.request_le_max _ _)
  have positive := writable.1
  rcases after_write_cases writable with
    ⟨short, running⟩ | ⟨complete, returned⟩
  · rw [running]
    constructor
    · refine
        ⟨written, count + 1, [], _,
          ⟨aligned.client, .sending round short, aligned.requests, ?_⟩⟩
      show consumed + (replies ++ writeBuf.take n).length = _
      omega
    · refine callsLeft_lt_of_server rfl rfl ?_
      simp only [serverSend, serverLeft, partway]
      omega
  · rw [returned, serverSend, if_neg (fun ne => ne rfl)]
    have counted :
        BitVec.ofNat 32 count + 1 = BitVec.ofNat 32 (count + 1) :=
      (BitVec.ofNat_add count 1).symm
    have first : ([] : List (BitVec 8)).length < sizeofUnsigned := by
      decide
    rw [counted]
    constructor
    · refine
        ⟨written, count + 1, [], _,
          ⟨aligned.client, .decoding round first, aligned.requests, ?_⟩⟩
      show consumed + (replies ++ writeBuf.take n).length = _
      rw [Nat.succ_mul]
      omega
    · refine callsLeft_lt_of_server rfl rfl ?_
      simp only [serverLoop, serverLeft, partway]
      omega

theorem Aligned.serverStep
    (aligned : Aligned params state written count received sent)
    (size : 0 < params.msgSize.toNat)
    (step : Session.serverStep params state n = some result) :
    Intact params result ∧ callsLeft params result < callsLeft params state := by
  rcases state with ⟨client, consumed, server, iters, decoded, requests, replies⟩
  have position := aligned.server
  dsimp only at position
  cases position with
  | decoding round unfinished =>
      rcases Nat.eq_zero_or_pos n with rfl | positive
      · exact aligned.serverEnds round unfinished rfl rfl step
      · exact aligned.serverDecodes size round rfl rfl rfl positive step
  | sending round unfinished =>
      exact aligned.serverSends round rfl rfl rfl step
  | succeeded => cases step
  | failed round bounded => cases step

/-! ### Calls that fail -/

theorem Aligned.clientFault
    (aligned : Aligned params state written count received sent)
    (step : Faults.clientFault params state = some result) :
    Intact params result := by
  rcases state with ⟨client, consumed, server, iters, decoded, requests, replies⟩
  have position := aligned.client
  have requested := aligned.requests
  have replied := aligned.replies
  dsimp only at position requested replied
  have exits
      (unfinished :
        written < sizeofUnsigned * (params.iters.toNat + 1)) :
      Intact params
        { client := .exited .failure
          consumed := consumed
          server := server
          iters := iters
          decoded := decoded
          requests := requests
          replies := replies } :=
    ⟨written, count, received, sent,
      ⟨.failed unfinished, aligned.server, requested, replied⟩⟩
  cases position with
  | @requesting i done round unfinished =>
      have failed :
          clientRequest params i
              ((partway sizeofUnsigned done).after (-1)) =
            .exited .failure :=
        if_pos (Nat.ne_of_lt unfinished)
      simp only [Faults.clientFault, failed] at step
      cases step
      apply exits
      have rounds := Nat.mul_le_mul_left sizeofUnsigned round
      rw [Nat.mul_succ] at rounds ⊢
      omega
  | @receiving i got round unfinished =>
      have failed :
          clientReceive params i
              ((partway params.msgSize.toNat got).after (-1)) =
            .exited .failure :=
        if_pos (Nat.ne_of_lt unfinished)
      simp only [Faults.clientFault, failed] at step
      cases step
      apply exits
      exact Nat.mul_lt_mul_of_pos_left (Nat.succ_lt_succ round) (by decide)
  | @completing done unfinished =>
      have failed :
          clientComplete ((partway sizeofUnsigned done).after (-1)) =
            .exited .failure :=
        if_pos (Nat.ne_of_lt unfinished)
      simp only [Faults.clientFault, failed] at step
      cases step
      apply exits
      rw [Nat.mul_succ]
      omega
  | succeeded => cases step
  | failed unfinished => cases step

theorem Aligned.serverFault
    (aligned : Aligned params state written count received sent)
    (step : Faults.serverFault params state = some result) :
    Intact params result := by
  rcases state with ⟨client, consumed, server, iters, decoded, requests, replies⟩
  have position := aligned.server
  have requested := aligned.requests
  have replied := aligned.replies
  dsimp only at position requested replied
  cases position with
  | decoding round unfinished =>
      have failed :
          (partway sizeofUnsigned received.length).after (-1) =
            .returned received.length :=
        rfl
      simp only [Faults.serverFault, decodingOf] at step
      rw [failed, serverDecode, if_pos (Nat.ne_of_lt unfinished)] at step
      cases step
      exact
        ⟨written, count, received, _,
          ⟨aligned.client, .failed round (Nat.le_refl _), requested, replied⟩⟩
  | @sending count done round unfinished =>
      have failed :
          (partway params.msgSize.toNat done).after (-1) = .returned done :=
        rfl
      simp only [Faults.serverFault] at step
      rw [failed, serverSend, if_pos (Nat.ne_of_lt unfinished)] at step
      cases step
      refine
        ⟨written, count + 1, [], _,
          ⟨aligned.client, .failed round ?_, requested, replied⟩⟩
      rw [Nat.succ_mul]
      omega
  | succeeded => cases step
  | failed round bounded => cases step

end Steps

/-! ## What the positions say about each other -/

section Aligned

variable {params : Parameters} {state : State} {written count sent : Nat}
  {received : List (BitVec 8)}

theorem ClientAt.written_le
    {client : Client} {consumed : Nat}
    (position : ClientAt params client written consumed) :
    written ≤ sizeofUnsigned * (params.iters.toNat + 1) := by
  cases position with
  | @requesting i done round unfinished =>
      have rounds := Nat.mul_le_mul_left sizeofUnsigned round
      rw [Nat.mul_succ] at rounds ⊢
      omega
  | @receiving i got round unfinished =>
      exact Nat.mul_le_mul_left _ (Nat.succ_le_succ (Nat.le_of_lt round))
  | completing unfinished =>
      rw [Nat.mul_succ]
      omega
  | succeeded => exact Nat.le_refl _
  | failed unfinished => exact Nat.le_of_lt unfinished

/-- A client that has written everything was successful. -/
theorem ClientAt.eq_of_written
    {client : Client} {consumed : Nat}
    (position : ClientAt params client written consumed)
    (complete : sizeofUnsigned * (params.iters.toNat + 1) ≤ written) :
    client = .exited .success := by
  cases position with
  | @requesting i done round unfinished =>
      have rounds := Nat.mul_le_mul_left sizeofUnsigned round
      rw [Nat.mul_succ] at rounds complete
      omega
  | @receiving i got round unfinished =>
      have rounds := Nat.le_of_mul_le_mul_left complete (by decide)
      omega
  | completing unfinished =>
      rw [Nat.mul_succ] at complete
      omega
  | succeeded => rfl
  | failed unfinished => omega

theorem ServerAt.count_le
    {server : Server} {counter : BitVec 32} {decoded : List (BitVec 32)}
    (position : ServerAt params server counter decoded count received sent) :
    count ≤ params.iters.toNat + 1 := by
  cases position with
  | decoding round unfinished => exact Nat.le_succ_of_le round
  | sending round unfinished => exact Nat.le_succ_of_le round
  | succeeded => exact Nat.le_refl _
  | failed round bounded => exact Nat.le_succ_of_le round

/-- What is written was decoded, is held by the server, or is in flight. -/
theorem Aligned.written_eq
    (aligned : Aligned params state written count received sent) :
    written =
      sizeofUnsigned * count + received.length + state.requests.length := by
  have lengths := congrArg List.length aligned.requests
  have decoded :=
    Nat.mul_le_mul_left sizeofUnsigned aligned.server.count_le
  rw [List.length_take, length_script,
    Nat.min_eq_left aligned.client.written_le, List.length_append,
    List.length_take, length_script, Nat.min_eq_left decoded,
    List.length_append] at lengths
  omega

theorem replicate_isPrefix
    {size : BitVec 32} {few many : Nat} (less : few ≤ many) :
    List.replicate few size <+: List.replicate many size ++ [0] := by
  have split : List.replicate few size ++ List.replicate (many - few) size =
      List.replicate many size := by
    rw [List.replicate_append_replicate, Nat.add_sub_cancel' less]
  rw [← split, List.append_assoc]
  exact List.prefix_append _ _

/-- Only the client's sizes are decoded. -/
theorem Aligned.decoded_isPrefix
    (aligned : Aligned params state written count received sent) :
    state.decoded <+: sizes params := by
  rcases state with ⟨client, consumed, server, iters, decoded, requests, replies⟩
  have position := aligned.server
  dsimp only at position ⊢
  cases position with
  | decoding round unfinished => exact replicate_isPrefix round
  | sending round unfinished => exact replicate_isPrefix round
  | succeeded => exact List.prefix_rfl
  | failed round bounded => exact replicate_isPrefix round

/-- A server that is successful has served a client that was. -/
theorem Aligned.of_server
    (aligned : Aligned params state written count received sent)
    (succeeded : state.server = .exited .success) :
    state.client = .exited .success ∧ state.iters = params.iters ∧
      state.decoded = sizes params := by
  have total := aligned.written_eq
  rcases state with ⟨client, consumed, server, iters, decoded, requests, replies⟩
  have position := aligned.server
  dsimp only at position succeeded total ⊢
  subst succeeded
  cases position with
  | succeeded =>
      refine ⟨?_, rfl, rfl⟩
      apply aligned.client.eq_of_written
      omega

/-- A client that is successful has been served in every round. -/
theorem Aligned.of_client
    (aligned : Aligned params state written count received sent)
    (size : 0 < params.msgSize.toNat)
    (succeeded : state.client = .exited .success) :
    state.consumed = params.iters.toNat * params.msgSize.toNat ∧
      List.replicate params.iters.toNat params.msgSize <+:
        state.decoded := by
  have all : state.consumed = params.iters.toNat * params.msgSize.toNat := by
    have position := aligned.client
    generalize state.consumed = consumed at position ⊢
    rw [succeeded] at position
    cases position
    rfl
  refine ⟨all, ?_⟩
  have replied := aligned.replies
  rw [all] at replied
  have everyRound
      (few : Nat) (round : few ≤ params.iters.toNat)
      (enough :
        params.iters.toNat * params.msgSize.toNat ≤
          few * params.msgSize.toNat) :
      few = params.iters.toNat :=
    Nat.le_antisymm round (Nat.le_of_mul_le_mul_right enough size)
  rcases state with ⟨client, consumed, server, iters, decoded, requests, replies⟩
  have position := aligned.server
  dsimp only at position replied ⊢
  cases position with
  | decoding round unfinished =>
      have last := everyRound _ round (by omega)
      exact ⟨[], by rw [List.append_nil, last]⟩
  | @sending few done round unfinished =>
      have less : few * params.msgSize.toNat + done <
          (few + 1) * params.msgSize.toNat := by
        rw [Nat.succ_mul]
        omega
      have atMost :
          (few + 1) * params.msgSize.toNat ≤
            params.iters.toNat * params.msgSize.toNat :=
        Nat.mul_le_mul_right _ round
      omega
  | succeeded => exact List.prefix_append _ _
  | failed round bounded =>
      have last := everyRound _ round (by omega)
      exact ⟨[], by rw [List.append_nil, last]⟩

/-! ## No process waits for ever -/

section Stuck

variable (aligned : Aligned params state written count received sent)
  (stuck : Stuck (restrict (nextFaulty params) Succeeds) state)

include stuck

theorem clientStep_eq_none (n : Nat) :
    Session.clientStep params state n = none :=
  eq_none_of_stuck stuck (.call (.client n)) rfl

theorem serverStep_eq_none (n : Nat) :
    Session.serverStep params state n = none :=
  eq_none_of_stuck stuck (.call (.server n)) rfl

/-- A client that writes can go on. -/
theorem client_ne_requesting
    {i done : Nat} (unfinished : done < sizeofUnsigned) :
    state.client ≠ .requesting i (partway sizeofUnsigned done) := by
  intro client
  have blocked := clientStep_eq_none stuck 1
  simp only [Session.clientStep, client] at blocked
  rw [if_pos (canWrite_partway unfinished (by decide))] at blocked
  cases blocked

theorem client_ne_completing
    {done : Nat} (unfinished : done < sizeofUnsigned) :
    state.client ≠ .completing (partway sizeofUnsigned done) := by
  intro client
  have blocked := clientStep_eq_none stuck 1
  simp only [Session.clientStep, client] at blocked
  rw [if_pos (canWrite_partway unfinished (by decide))] at blocked
  cases blocked

/-- A client that reads waits for a server that has not closed. -/
theorem waits_of_receiving
    {i got : Nat} (unfinished : got < params.msgSize.toNat)
    (client :
      state.client = .receiving i (partway params.msgSize.toNat got)) :
    state.replies = [] ∧ state.server.closed = false := by
  have nothing : state.replies = [] := by
    by_contra nonempty
    have blocked := clientStep_eq_none stuck 1
    simp only [Session.clientStep, client] at blocked
    rw [if_pos (canRead_partway unfinished (by decide) nonempty _)] at blocked
    cases blocked
  refine ⟨nothing, ?_⟩
  cases closed : state.server.closed with
  | false => rfl
  | true =>
      have blocked := clientStep_eq_none stuck 0
      simp only [Session.clientStep, client] at blocked
      rw [if_pos] at blocked
      · cases blocked
      · rw [CanRead, if_pos rfl]
        exact ⟨nothing, closed⟩

/-- A server that writes can go on. -/
theorem server_ne_sending
    {done : Nat} (unfinished : done < params.msgSize.toNat) :
    state.server ≠
      .sending params.msgSize (partway params.msgSize.toNat done) := by
  intro server
  have blocked := serverStep_eq_none stuck 1
  simp only [Session.serverStep, server] at blocked
  rw [if_pos (canWrite_partway unfinished (by decide))] at blocked
  cases blocked

/-- A server that reads waits for a client that has not closed. -/
theorem waits_of_decoding
    (unfinished : received.length < sizeofUnsigned)
    (server : state.server = decodingOf received) :
    state.requests = [] ∧ state.client.closed = false := by
  rw [decodingOf] at server
  have nothing : state.requests = [] := by
    by_contra nonempty
    have blocked := serverStep_eq_none stuck 1
    simp only [Session.serverStep, server] at blocked
    rw [if_pos (canRead_partway unfinished (by decide) nonempty _)] at blocked
    cases blocked
  refine ⟨nothing, ?_⟩
  cases closed : state.client.closed with
  | false => rfl
  | true =>
      have blocked := serverStep_eq_none stuck 0
      simp only [Session.serverStep, server] at blocked
      rw [if_pos] at blocked
      · cases blocked
      · rw [CanRead, if_pos rfl]
        exact ⟨nothing, closed⟩

include aligned

/-- The server has exited, or it waits for its client. -/
theorem Aligned.server_closed_or_waits :
    state.server.closed = true ∨
      received.length < sizeofUnsigned ∧ state.requests = [] ∧
        state.client.closed = false ∧ sent = count * params.msgSize.toNat := by
  have position := aligned.server
  generalize at_server : state.server = server at position ⊢
  generalize state.iters = counter at position
  generalize state.decoded = decoded at position
  cases position with
  | decoding round unfinished =>
      rcases waits_of_decoding stuck unfinished at_server with
        ⟨nothing, running⟩
      exact .inr ⟨unfinished, nothing, running, rfl⟩
  | sending round unfinished =>
      exact absurd at_server (server_ne_sending stuck unfinished)
  | succeeded => exact .inl rfl
  | failed round bounded => exact .inl rfl

/-- The processes cannot wait for each other: a size is not read in part. -/
theorem Aligned.client_closed : state.client.closed = true := by
  have total := aligned.written_eq
  have replied := aligned.replies
  have position := aligned.client
  generalize at_client : state.client = client at position ⊢
  generalize at_consumed : state.consumed = consumed at position replied
  cases position with
  | requesting round unfinished =>
      exact absurd at_client (client_ne_requesting stuck unfinished)
  | completing unfinished =>
      exact absurd at_client (client_ne_completing stuck unfinished)
  | @receiving i got round unfinished =>
      rcases waits_of_receiving stuck unfinished at_client with
        ⟨noReplies, serving⟩
      rcases aligned.server_closed_or_waits stuck with
        closed | ⟨short, noRequests, _, all⟩
      · rw [serving] at closed
        cases closed
      · rw [noReplies, List.length_nil] at replied
        rw [noRequests, List.length_nil] at total
        have same : i + 1 = count := by
          rw [sizeofUnsigned] at total short
          omega
        subst same
        rw [Nat.succ_mul] at all
        omega
  | succeeded => rfl
  | failed unfinished => rfl

/-- Where no call can return, both processes have exited. -/
theorem Aligned.closed_of_stuck :
    state.client.closed = true ∧ state.server.closed = true := by
  have client := aligned.client_closed stuck
  refine ⟨client, ?_⟩
  rcases aligned.server_closed_or_waits stuck with closed | ⟨_, _, running, _⟩
  · exact closed
  · rw [client] at running
    cases running

end Stuck

end Aligned

/-! ## All schedules and failures -/

section Runs

variable {params : Parameters}

theorem intact_start (params : Parameters) : Intact params (start params) := by
  have client := clientAt_clientLoop (Nat.zero_le params.iters.toNat)
  have first : ([] : List (BitVec 8)).length < sizeofUnsigned := by
    decide
  have server :
      ServerAt params (decodingOf []) 0 [] 0 [] (0 * params.msgSize.toNat) :=
    .decoding (Nat.zero_le _) first
  rw [Nat.zero_mul] at client server
  exact ⟨_, 0, [], 0, ⟨client, server, rfl, rfl⟩⟩

theorem Intact.next
    {state result : State} {action : Action} (intact : Intact params state)
    (size : 0 < params.msgSize.toNat)
    (step : Session.next params state action = some result) :
    Intact params result ∧ callsLeft params result < callsLeft params state := by
  rcases intact with ⟨written, count, received, sent, aligned⟩
  cases action with
  | client n => exact aligned.clientStep size step
  | server n => exact aligned.serverStep size step

theorem intact_of_reachable
    (size : 0 < params.msgSize.toNat) {state : State}
    (reachable : Reachable (nextFaulty params) (start params) state) :
    Intact params state := by
  apply reachable.invariant _ (intact_start params)
  intro before action after intact step
  cases action with
  | call action => exact (intact.next size step).1
  | clientFails =>
      rcases intact with ⟨written, count, received, sent, aligned⟩
      exact aligned.clientFault step
  | serverFails =>
      rcases intact with ⟨written, count, received, sent, aligned⟩
      exact aligned.serverFault step

end Runs

/--
In every state that a session reaches, whatever calls have failed: the server
has decoded sizes of the client only.  If it was successful then so was the
client, and it has served every round; if the client was successful then it
has read every message.  If no more calls fail, then after a bounded number of
calls both processes have exited, in every order of their calls.
-/
theorem session_survives
    (params : Parameters) (nonzero : params.msgSize ≠ 0) {state : State}
    (reachable : Reachable (nextFaulty params) (start params) state) :
    state.decoded <+:
        List.replicate params.iters.toNat params.msgSize ++ [0] ∧
      (state.server = .exited .success →
        state.client = .exited .success ∧ state.iters = params.iters ∧
          state.decoded =
            List.replicate params.iters.toNat params.msgSize ++ [0]) ∧
      (state.client = .exited .success →
        state.consumed = params.iters.toNat * params.msgSize.toNat ∧
          List.replicate params.iters.toNat params.msgSize <+:
            state.decoded) ∧
      Settles (restrict (nextFaulty params) Succeeds)
        (fun final =>
          final.client.closed = true ∧ final.server.closed = true)
        state := by
  have size : 0 < params.msgSize.toNat :=
    BitVec.toNat_pos_of_ne_zero nonzero
  have intact := intact_of_reachable size reachable
  have decreases :
      ∀ before action after,
        Intact params before →
          restrict (nextFaulty params) Succeeds before action = some after →
            Intact params after ∧
              callsLeft params after < callsLeft params before := by
    intro before action after kept step
    rw [restrict_eq_some_iff] at step
    cases action with
    | call action => exact kept.next size step.2
    | clientFails => cases step.1
    | serverFails => cases step.1
  have settles :=
    settles_of_measure decreases
      (fun _ kept stuck => by
        rcases kept with ⟨_, _, _, _, aligned⟩
        exact aligned.closed_of_stuck stuck)
      intact
  rcases intact with ⟨written, count, received, sent, aligned⟩
  exact
    ⟨aligned.decoded_isPrefix, aligned.of_server, aligned.of_client size,
      settles⟩

/-- The server fails in the middle of the message. -/
def cutOff : State where
  client := .receiving 0 ⟨3, 0⟩
  consumed := 0
  server := .exited .failure
  iters := 0
  decoded := [3]
  requests := []
  replies := [0, 0]

theorem session_survives_cutOff :
    cutOff.decoded <+:
        List.replicate oneRequest.iters.toNat oneRequest.msgSize ++ [0] ∧
      Settles (restrict (nextFaulty oneRequest) Succeeds)
        (fun final =>
          final.client.closed = true ∧ final.server.closed = true)
        cutOff := by
  have reachable :
      Reachable (nextFaulty oneRequest) (start oneRequest) cutOff :=
    ⟨[.call (.client 4), .call (.server 4), .call (.server 2), .serverFails],
      by decide⟩
  have survives := session_survives oneRequest (by decide) reachable
  exact ⟨survives.1, survives.2.2.2⟩

/--
Without failures, a session is over after a bounded number of calls, in every
order of the calls, and both processes were successful.
-/
theorem session_completes
    (params : Parameters) (nonzero : params.msgSize ≠ 0) :
    Settles (next params)
      (fun final =>
        final.client = .exited .success ∧ final.server = .exited .success ∧
          final.iters = params.iters ∧
            final.consumed = params.iters.toNat * params.msgSize.toNat)
      (start params) := by
  have size : 0 < params.msgSize.toNat :=
    BitVec.toNat_pos_of_ne_zero nonzero
  have decreases :
      ∀ before action after,
        Sound params before ∧ Intact params before →
          next params before action = some after →
            (Sound params after ∧ Intact params after) ∧
              callsLeft params after < callsLeft params before := by
    intro before action after kept step
    have moved := kept.2.next size step
    exact ⟨⟨kept.1.next step size, moved.1⟩, moved.2⟩
  apply settles_of_measure decreases _
    ⟨sound_start params, intact_start params⟩
  rintro final ⟨sound, written, count, received, sent, aligned⟩ stuck
  rcases sound.exited_of_stuck stuck with ⟨client, server⟩
  exact
    ⟨client, server, (aligned.of_server server).2.1,
      (aligned.of_client size client).1⟩

/-- One request, in whatever order the two processes make their calls. -/
theorem session_completes_oneRequest :
    Settles (next oneRequest)
      (fun final =>
        final.client = .exited .success ∧ final.server = .exited .success ∧
          final.iters = oneRequest.iters ∧
            final.consumed =
              oneRequest.iters.toNat * oneRequest.msgSize.toNat)
      (start oneRequest) :=
  session_completes oneRequest (by decide)

end CodingExamples.SimpleTrafficGen.Faults
