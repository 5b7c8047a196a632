import CodingExamples.EchoServer.Unp
import CodingExamples.Library.Execution
import CodingExamples.Library.Fifo
import Mathlib.Data.List.TakeWhile

/-!
# A session of `str_cli` with `str_echo`

The client sends the pieces of a text one by one and prints what `readline`
returns for each; the server writes back whatever it reads.  No call fails.
An action is one call of `fgets`, `write` or `read`, together with the code up
to the next call; how many bytes a `write` or `read` transfers is not
determined.

The main theorem is about the states in which the client is about to call
`fgets`: it has then printed exactly the pieces that it has sent.
-/

namespace CodingExamples.EchoServer.Session

open CodingExamples.Library.Execution
open CodingExamples.Library.Fifo
open CodingExamples.EchoServer.Unp

/-- Where the client is, with the local variables of the call it is in. -/
inductive Client where
  | fetching
  | writing (left : List (BitVec 8))
  | reading (stored : List (BitVec 8))
  | closed
deriving DecidableEq, Repr

/-- Where the server is. -/
inductive Server where
  | reading
  | writing (left : List (BitVec 8))
  | closed
deriving DecidableEq, Repr

/-- Both processes and what is in flight between them. -/
structure State where
  /-- The text that `fgets` has not read. -/
  input : List (BitVec 8)
  client : Client
  /-- The pieces that the client has sent or is sending. -/
  sent : List (List (BitVec 8))
  /-- The strings that the client has printed. -/
  printed : List (List (BitVec 8))
  server : Server
  toServer : List (BitVec 8)
  toClient : List (BitVec 8)
deriving DecidableEq, Repr

/-- One call, with the number of bytes that it transfers. -/
inductive Action where
  | fgets
  | client (count : Nat)
  | server (count : Nat)
deriving DecidableEq, Repr

/-! ## The client -/

/-- The client in or after `readline`. -/
def clientRead (state : State) : Readline → State
  | .reading stored => { state with client := .reading stored }
  | .returned line =>
      if line.length > 0 then
        { state with
          client := .fetching
          printed := state.printed ++ [cString line] }
      else
        { state with client := .closed }
  | .error => { state with client := .closed }

/-- The client in or after `writen`, whose result is ignored. -/
def clientWrite (state : State) : Writen → State
  | .writing left => { state with client := .writing left }
  | .returned _ => clientRead state (readlineLoop maxline [])

/-- A call of `fgets`; at the end of the text the process exits. -/
def clientFetch (state : State) : Option State :=
  match state.client with
  | .fetching =>
      match fgets maxline state.input with
      | none => some { state with client := .closed }
      | some (sendline, rest) =>
          some
            (clientWrite
              { state with
                input := rest
                sent := state.sent ++ [cString sendline] }
              (writenLoop (cString sendline)))
  | _ => none

/-- Has the process closed its end of the connection? -/
def Client.isClosed : Client → Bool
  | .closed => true
  | _ => false

def Server.isClosed : Server → Bool
  | .closed => true
  | _ => false

/-- A `write` or `read` of the client. -/
def clientStep (state : State) (count : Nat) : Option State :=
  match state.client with
  | .writing left =>
      if CanWrite left.length count then
        some
          (clientWrite
            { state with toServer := state.toServer ++ left.take count }
            (writenAfter left (.returned count)))
      else
        none
  | .reading stored =>
      if CanRead state.toClient state.server.isClosed
          (readlineRequest maxline stored) count then
        some
          (clientRead { state with toClient := state.toClient.drop count }
            (readlineAfter maxline stored
              (.returned (state.toClient.take count))))
      else
        none
  | _ => none

/-! ## The server -/

/-- The server in or after `writen`, whose result is ignored. -/
def serverWrite (state : State) : Writen → State
  | .writing left => { state with server := .writing left }
  | .returned _ => { state with server := .reading }

/-- A `write` or `read` of the server. -/
def serverStep (state : State) (count : Nat) : Option State :=
  match state.server with
  | .reading =>
      if CanRead state.toServer state.client.isClosed maxline count then
        if count > 0 then
          some
            (serverWrite { state with toServer := state.toServer.drop count }
              (writenLoop (state.toServer.take count)))
        else
          some { state with server := .closed }
      else
        none
  | .writing left =>
      if CanWrite left.length count then
        some
          (serverWrite
            { state with toClient := state.toClient ++ left.take count }
            (writenAfter left (.returned count)))
      else
        none
  | .closed => none

/-! ## The session -/

/-- The step function of the session. -/
def next (state : State) : Action → Option State
  | .fgets => clientFetch state
  | .client count => clientStep state count
  | .server count => serverStep state count

/-- The connection is established. -/
def start (text : List (BitVec 8)) : State where
  input := text
  client := .fetching
  sent := []
  printed := []
  server := .reading
  toServer := []
  toClient := []

/-! ## The invariant -/

/-- The server with some bytes that it has read and not yet written back. -/
def holding : List (BitVec 8) → Server
  | [] => .reading
  | byte :: rest => .writing (byte :: rest)

/--
The states of a session.  While a piece is under way, its bytes are spread, in
order, over the line that the client has stored, the stream to the client, the
server, the stream to the server and what the client has left to write.
-/
inductive Sound (text : List (BitVec 8)) : State → Prop where
  | fetching {input : List (BitVec 8)} {sent : List (List (BitVec 8))}
      (cut : sent ++ pieces input = pieces text)
      (nulFree : 0 ∉ input) :
      Sound text
        { input := input
          client := .fetching
          sent := sent
          printed := sent
          server := .reading
          toServer := []
          toClient := [] }
  | writing {input piece left held toServer toClient : List (BitVec 8)}
      {printed : List (List (BitVec 8))}
      (cut : printed ++ piece :: pieces input = pieces text)
      (nulFree : 0 ∉ piece ++ input)
      (isPiece : IsPiece piece)
      (unfinished : left ≠ [])
      (split : piece = toClient ++ held ++ toServer ++ left) :
      Sound text
        { input := input
          client := .writing left
          sent := printed ++ [piece]
          printed := printed
          server := holding held
          toServer := toServer
          toClient := toClient }
  | reading {input piece stored held toServer toClient : List (BitVec 8)}
      {printed : List (List (BitVec 8))}
      (cut : printed ++ piece :: pieces input = pieces text)
      (nulFree : 0 ∉ piece ++ input)
      (isPiece : IsPiece piece)
      (unfinished : ¬ Complete stored)
      (split : piece = stored ++ (toClient ++ held ++ toServer)) :
      Sound text
        { input := input
          client := .reading stored
          sent := printed ++ [piece]
          printed := printed
          server := holding held
          toServer := toServer
          toClient := toClient }
  | closing :
      Sound text
        { input := []
          client := .closed
          sent := pieces text
          printed := pieces text
          server := .reading
          toServer := []
          toClient := [] }
  | closed :
      Sound text
        { input := []
          client := .closed
          sent := pieces text
          printed := pieces text
          server := .closed
          toServer := []
          toClient := [] }

/-- A string without a zero is printed as a whole. -/
theorem cString_eq_self
    {line : List (BitVec 8)} (nulFree : 0 ∉ line) :
    cString line = line := by
  rw [cString, List.takeWhile_eq_self_iff]
  intro byte member
  rw [bne_iff_ne]
  intro zero
  rw [zero] at member
  exact nulFree member

theorem serverWrite_writenLoop
    (state : State) (left : List (BitVec 8)) :
    serverWrite state (writenLoop left) =
      { state with server := holding left } := by
  cases left with
  | nil => rfl
  | cons byte rest => rfl

theorem clientWrite_writenLoop
    (state : State) {left : List (BitVec 8)} (unfinished : left ≠ []) :
    clientWrite state (writenLoop left) =
      { state with client := .writing left } := by
  rw [writenLoop, if_pos (List.length_pos_iff.mpr unfinished)]
  rfl

theorem clientWrite_writenLoop_nil (state : State) :
    clientWrite state (writenLoop []) =
      { state with client := .reading [] } :=
  rfl

/-- A `write` that transfers some bytes. -/
theorem writenAfter_of_pos
    (left : List (BitVec 8)) {count : Nat} (positive : 0 < count) :
    writenAfter left (.returned count) = writenLoop (left.drop count) := by
  rw [writenAfter, if_neg (Nat.ne_of_gt positive)]

theorem not_complete_nil : ¬ Complete [] := by
  decide

/-! ## Preservation -/

section Sound

variable {text : List (BitVec 8)} {state result : State}

theorem Sound.clientFetch
    (sound : Sound text state)
    (step : Session.clientFetch state = some result) :
    Sound text result := by
  cases sound with
  | @fetching input sent cut nulFree =>
      cases got : fgets maxline input with
      | none =>
          simp only [Session.clientFetch, got, Option.some.injEq] at step
          rw [fgets_eq_none_iff] at got
          rw [got, pieces_nil, List.append_nil] at cut
          rw [← step, got, cut]
          exact .closing
      | some result =>
          rcases result with ⟨piece, rest⟩
          simp only [Session.clientFetch, got, Option.some.injEq] at step
          rw [← append_of_fgets got] at nulFree
          have isPiece := isPiece_of_fgets got
          have whole : cString piece = piece :=
            cString_eq_self fun zero =>
              nulFree (List.mem_append_left rest zero)
          rw [← step, whole, clientWrite_writenLoop _ isPiece.nonempty]
          rw [pieces_of_fgets got] at cut
          have split : piece = [] ++ [] ++ [] ++ piece := rfl
          have sound :=
            Sound.writing cut nulFree isPiece isPiece.nonempty split
          exact sound
  | writing => cases step
  | reading => cases step
  | closing => cases step
  | closed => cases step

/-- A piece that the client is about to read. -/
theorem Sound.reading_nil
    {input piece held toServer toClient : List (BitVec 8)}
    {printed : List (List (BitVec 8))}
    (cut : printed ++ piece :: pieces input = pieces text)
    (nulFree : 0 ∉ piece ++ input) (isPiece : IsPiece piece)
    (split : piece = toClient ++ held ++ toServer) :
    Sound text
      { input := input
        client := .reading []
        sent := printed ++ [piece]
        printed := printed
        server := holding held
        toServer := toServer
        toClient := toClient } :=
  .reading cut nulFree isPiece not_complete_nil split

theorem Sound.clientStep
    {count : Nat} (sound : Sound text state)
    (step : Session.clientStep state count = some result) :
    Sound text result := by
  cases sound with
  | fetching => cases step
  | @writing input piece left held toServer toClient printed cut nulFree
      isPiece unfinished split =>
      simp only [Session.clientStep, Option.ite_none_right_eq_some,
        Option.some.injEq] at step
      rcases step with ⟨writable, rfl⟩
      rw [writenAfter_of_pos left writable.1]
      have moved :
          piece =
            toClient ++ held ++ (toServer ++ left.take count) ++
              left.drop count := by
        rw [split]
        simp only [List.append_assoc, List.take_append_drop]
      by_cases rest : left.drop count = []
      · rw [rest, clientWrite_writenLoop_nil]
        rw [rest, List.append_nil] at moved
        exact Sound.reading_nil cut nulFree isPiece moved
      · rw [clientWrite_writenLoop _ rest]
        exact .writing cut nulFree isPiece rest moved
  | @reading input piece stored held toServer toClient printed cut nulFree
      isPiece unfinished split =>
      have opened : (holding held).isClosed = false := by
        cases held <;> rfl
      simp only [Session.clientStep, Option.ite_none_right_eq_some,
        Option.some.injEq, opened] at step
      rcases step with ⟨readable, rfl⟩
      rcases canRead_open_iff.mp readable with ⟨positive, requested, inside⟩
      have length : (toClient.take count).length = count := by
        rw [List.length_take, Nat.min_eq_left inside]
      have nonempty : toClient.take count ≠ [] := by
        apply List.length_pos_iff.mp
        rw [length]
        exact positive
      rw [readlineAfter_eq nonempty (by rw [length]; exact requested)]
      have moved :
          piece =
            stored ++ toClient.take count ++
              (toClient.drop count ++ held ++ toServer) := by
        rw [split]
        nth_rewrite 1 [← List.take_append_drop count toClient]
        simp only [List.append_assoc]
      split_ifs with complete
      · have nothing := isPiece.after_eq_nil moved complete
        rw [nothing, List.append_nil] at moved
        rw [List.append_eq_nil_iff, List.append_eq_nil_iff] at nothing
        rcases nothing with ⟨⟨noneFlying, noneHeld⟩, noneWritten⟩
        have whole : cString piece = piece :=
          cString_eq_self fun zero =>
            nulFree (List.mem_append_left input zero)
        rw [clientRead, ← moved, noneFlying, noneHeld, noneWritten, whole,
          if_pos (List.length_pos_iff.mpr isPiece.nonempty)]
        refine .fetching ?_ ?_
        · rw [List.append_assoc]
          exact cut
        · intro zero
          exact nulFree (List.mem_append_right piece zero)
      · exact .reading cut nulFree isPiece complete moved
  | closing => cases step
  | closed => cases step

/-- The server moves the bytes of the piece, whatever the client does. -/
theorem serverStep_holding
    {count : Nat} {held : List (BitVec 8)}
    (server : state.server = holding held)
    (opened : state.client.isClosed = false)
    (step : Session.serverStep state count = some result) :
    ∃ holds toServer toClient,
      toClient ++ holds ++ toServer =
          state.toClient ++ held ++ state.toServer ∧
        result =
          { state with
            server := holding holds
            toServer := toServer
            toClient := toClient } := by
  cases held with
  | nil =>
      rw [Session.serverStep, server] at step
      simp only [holding, opened, Option.ite_none_right_eq_some] at step
      rcases step with ⟨readable, step⟩
      rcases canRead_open_iff.mp readable with ⟨positive, _, inside⟩
      rw [if_pos positive, Option.some.injEq,
        serverWrite_writenLoop] at step
      refine
        ⟨state.toServer.take count, state.toServer.drop count,
          state.toClient, ?_, step.symm⟩
      simp only [List.append_assoc, List.take_append_drop, List.nil_append]
  | cons byte rest =>
      rw [Session.serverStep, server] at step
      simp only [holding, Option.ite_none_right_eq_some,
        Option.some.injEq] at step
      rcases step with ⟨writable, step⟩
      rw [writenAfter_of_pos _ writable.1, serverWrite_writenLoop] at step
      refine
        ⟨(byte :: rest).drop count, state.toServer,
          state.toClient ++ (byte :: rest).take count, ?_, step.symm⟩
      simp only [List.append_assoc]
      rw [← List.append_assoc ((byte :: rest).take count),
        List.take_append_drop]

theorem Sound.serverStep
    {count : Nat} (sound : Sound text state)
    (step : Session.serverStep state count = some result) :
    Sound text result := by
  cases sound with
  | fetching cut nulFree =>
      simp only [Session.serverStep, Option.ite_none_right_eq_some] at step
      exact absurd step.1 not_canRead_nil
  | writing cut nulFree isPiece unfinished split =>
      rcases serverStep_holding rfl rfl step with
        ⟨holds, toServer, toClient, moved, rfl⟩
      rw [← moved] at split
      exact .writing cut nulFree isPiece unfinished split
  | reading cut nulFree isPiece unfinished split =>
      rcases serverStep_holding rfl rfl step with
        ⟨holds, toServer, toClient, moved, rfl⟩
      rw [← moved] at split
      exact .reading cut nulFree isPiece unfinished split
  | closing =>
      simp only [Session.serverStep, Option.ite_none_right_eq_some] at step
      rcases step with ⟨readable, step⟩
      have empty : count = 0 := by
        by_contra nonzero
        rw [CanRead, if_neg nonzero] at readable
        exact nonzero (Nat.le_zero.mp readable.2)
      rw [empty] at step
      cases step
      exact .closed
  | closed => cases step

theorem Sound.next
    {action : Action} (sound : Sound text state)
    (step : Session.next state action = some result) :
    Sound text result := by
  cases action with
  | fgets => exact sound.clientFetch step
  | client count => exact sound.clientStep step
  | server count => exact sound.serverStep step

theorem sound_of_reachable
    (nulFree : 0 ∉ text)
    (reachable : Reachable Session.next (start text) state) :
    Sound text state := by
  refine Reachable.invariant ?_ (.fetching rfl nulFree) reachable
  intro state action result sound step
  exact sound.next step

end Sound

/--
Whenever the client is about to call `fgets`, and after it has exited, it has
printed exactly the pieces that it has sent, each as a line of its own.  These
fit into the buffer and are the text that has been read so far.
-/
theorem printed_eq_sent
    {text : List (BitVec 8)} (nulFree : 0 ∉ text)
    {state : State} (reachable : Reachable next (start text) state)
    (idle : state.client = .fetching ∨ state.client = .closed) :
    state.printed = state.sent ∧
      state.sent ++ pieces state.input = pieces text ∧
      state.printed.flatten ++ state.input = text ∧
      ∀ piece ∈ state.sent, piece.length ≤ maxline - 1 := by
  have equal :
      state.printed = state.sent ∧
        state.sent ++ pieces state.input = pieces text := by
    cases sound_of_reachable nulFree reachable with
    | fetching cut nulFree => exact ⟨rfl, cut⟩
    | writing => rcases idle with idle | idle <;> cases idle
    | reading => rcases idle with idle | idle <;> cases idle
    | closing => exact ⟨rfl, by rw [pieces_nil, List.append_nil]⟩
    | closed => exact ⟨rfl, by rw [pieces_nil, List.append_nil]⟩
  rcases equal with ⟨printed, cut⟩
  refine ⟨printed, cut, ?_, ?_⟩
  · have bytes := congrArg List.flatten cut
    rw [List.flatten_append, flatten_pieces, flatten_pieces,
      ← printed] at bytes
    exact bytes
  · intro piece member
    have cutOff : piece ∈ pieces text := by
      rw [← cut]
      exact List.mem_append_left _ member
    exact (isPiece_of_mem_pieces cutOff).fits

/-- The line `a` has been printed. -/
def echoed : State where
  input := []
  client := .fetching
  sent := [[97, 10]]
  printed := [[97, 10]]
  server := .reading
  toServer := []
  toClient := []

/-- The line `a`, written and read in parts. -/
theorem printed_eq_sent_echoed :
    echoed.printed = echoed.sent ∧
      echoed.sent ++ pieces echoed.input = pieces [97, 10] ∧
      echoed.printed.flatten ++ echoed.input = [97, 10] ∧
      ∀ piece ∈ echoed.sent, piece.length ≤ maxline - 1 := by
  have reachable : Reachable next (start [97, 10]) echoed :=
    ⟨[.fgets, .client 1, .server 1, .client 1, .server 1, .client 1,
        .server 1, .server 1, .client 1],
      by decide⟩
  exact printed_eq_sent (by decide) reachable (.inl rfl)

end CodingExamples.EchoServer.Session
