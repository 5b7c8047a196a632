import CodingExamples.PollEchoServer.Server
import CodingExamples.SelectEchoServer.Server

/-!
# Echoes of many clients

Both servers use one buffer for all clients, and descriptors and slots again
after a client has left.  Every connection still gets back its own bytes and
nothing else: between `read` and the end of `writen` no descriptor is opened
or closed, and `writen` is given the bytes of that `read` only.
-/

namespace CodingExamples.EchoServer.Isolation

open CodingExamples.EchoServer.Multiplexing
open CodingExamples.EchoServer.Unp
open CodingExamples.Library.Execution
open CodingExamples.Library.SocketTable

/-- A connection that may be refused at once. -/
theorem accept_or_close_settled
    {sockets : Sockets (BitVec 8)} (settled : sockets.Settled)
    (connfd : Nat) (full : Prop) [Decidable full] :
    (if full then (sockets.accept connfd).close connfd
      else sockets.accept connfd).Settled := by
  split
  · exact (settled.accept connfd).close connfd
  · exact settled.accept connfd

/-! ## The `select` server -/

namespace Select

open CodingExamples.SelectEchoServer.Server

theorem start_echoing
    (listenfd : Nat) (inherited : Nat → Bool) (buf : List (BitVec 8)) :
    (start listenfd inherited buf).loop.Echoing := by
  have echoing := Loop.start_echoing listenfd inherited buf
  rw [start]
  dsimp only
  split
  · exact echoing
  · exact echoing

theorem handlers_echoing : handlers.Echoing := by
  constructor
  case withLoop =>
    intro state loop
    rfl
  case afterReady =>
    intro state nready rset settled top
    show (afterSelect state nready rset).loop.Echoing
    rw [afterSelect]
    dsimp only
    split
    · apply Loop.echoing_of_settled settled
      intro i sockfd left inside
      cases top.symm.trans inside
    · split
      · exact settled
      · exact settled
      · exact settled
  case afterAccept =>
    intro state connfd settled
    show (afterAccept state connfd).loop.Echoing
    rw [afterAccept]
    dsimp only
    split
    · exact accept_or_close_settled settled connfd _
    · apply Loop.advance_echoing
      exact accept_or_close_settled settled connfd _
  case scan =>
    intro state i settled
    show (scan state i).loop.Echoing
    rw [scan]
    split
    · split
      · exact settled
      · exact settled
      · split
        · exact settled
        · exact settled
        · exact settled
    · exact settled
  case closeClient =>
    intro state i sockfd settled
    show (closeClient state i sockfd).loop.Echoing
    rw [closeClient]
    split
    · exact settled
    · exact Loop.closeClient_echoing settled i sockfd

end Select

/-! ## The `poll` server -/

namespace Poll

open CodingExamples.PollEchoServer.Server

theorem start_echoing
    (listenfd : Nat) (inherited : Nat → Bool) (buf : List (BitVec 8))
    (clients : List PollFd) :
    (start listenfd inherited buf clients).loop.Echoing := by
  have echoing := Loop.start_echoing listenfd inherited buf
  cases clients with
  | nil => exact echoing
  | cons first rest => exact echoing

theorem handlers_echoing : handlers.Echoing := by
  constructor
  case withLoop =>
    intro state loop
    rfl
  case afterReady =>
    intro state nready revents settled top
    show (afterPoll state nready revents).loop.Echoing
    rw [afterPoll]
    dsimp only
    split
    · split
      · apply Loop.echoing_of_settled settled
        intro i sockfd left inside
        cases top.symm.trans inside
      · split
        · exact settled
        · split
          · exact settled
          · exact settled
    · exact settled
  case afterAccept =>
    intro state connfd settled
    show (afterAccept state connfd).loop.Echoing
    rw [afterAccept]
    dsimp only
    split
    · exact accept_or_close_settled settled connfd _
    · apply Loop.advance_echoing
      exact accept_or_close_settled settled connfd _
  case scan =>
    intro state i settled
    show (scan state i).loop.Echoing
    rw [scan]
    split
    · split
      · exact settled
      · split
        · exact settled
        · split
          · exact settled
          · exact settled
    · exact settled
  case closeClient =>
    intro state i sockfd settled
    exact Loop.closeClient_echoing settled i sockfd

end Poll

/-! ## Runs -/

/-- The invariant of every run of a server whose writes work. -/
theorem run_echoing
    {State Report : Type} {handlers : Handlers State Report}
    (server : handlers.Echoing) {start final : State}
    {events : List (Event Report)}
    (initial : (handlers.loop start).Echoing)
    (ran : run (next handlers) start events = some final)
    (works : Along (next handlers) (fun _ event => WriteWorks event)
      start events) :
    (handlers.loop final).Echoing := by
  have preserved :
      ∀ state event result,
        (handlers.loop state).Echoing → WriteWorks event →
          next handlers state event = some result →
            (handlers.loop result).Echoing :=
    fun _ _ _ => server.preserved
  have throughout := works.throughout preserved initial
  exact throughout events [] final (List.append_nil events).symm ran

/-- At the top of the loop every connection has got back its own bytes. -/
def EchoedAtTop (loop : Loop) : Prop :=
  loop.phase = .top →
    ∀ number, loop.sockets.sent number = loop.sockets.received number

theorem echoedAtTop
    {loop : Loop} (echoing : loop.Echoing) : EchoedAtTop loop := by
  intro top
  apply echoing.settled
  intro i sockfd left inside
  cases top.symm.trans inside

/-- Both servers, in every run in which `write` does not fail for good. -/
theorem runs_echoed :
    (∀ (listenfd : Nat) (inherited : Nat → Bool) (buf : List (BitVec 8))
        (clients : List PollEchoServer.Server.PollFd)
        (events : List PollEchoServer.Server.Event)
        (final : PollEchoServer.Server.State),
        run PollEchoServer.Server.next
            (PollEchoServer.Server.start listenfd inherited buf clients)
            events = some final →
          Along PollEchoServer.Server.next
              (fun _ event => WriteWorks event)
              (PollEchoServer.Server.start listenfd inherited buf clients)
              events →
            EchoedAtTop final.loop) ∧
      ∀ (listenfd : Nat) (inherited : Nat → Bool) (buf : List (BitVec 8))
        (events : List SelectEchoServer.Server.Event)
        (final : SelectEchoServer.Server.State),
        run SelectEchoServer.Server.next
            (SelectEchoServer.Server.start listenfd inherited buf)
            events = some final →
          Along SelectEchoServer.Server.next
              (fun _ event => WriteWorks event)
              (SelectEchoServer.Server.start listenfd inherited buf)
              events →
            EchoedAtTop final.loop := by
  constructor
  · intro listenfd inherited buf clients events final ran works
    have initial := Poll.start_echoing listenfd inherited buf clients
    exact
      echoedAtTop (run_echoing Poll.handlers_echoing initial ran works)
  · intro listenfd inherited buf events final ran works
    have initial := Select.start_echoing listenfd inherited buf
    exact
      echoedAtTop (run_echoing Select.handlers_echoing initial ran works)

/-- The second client gets the descriptor and the slot of the first one. -/
def reusedByPoll : List PollEchoServer.Server.Event :=
  [.ready 1 [64], .accept (some 4), .ready 1 [0, 64], .scan,
    .read (.returned [104, 105]), .write (.returned 1),
    .write (.failed true), .write (.returned 1), .ready 1 [0, 64], .scan,
    .read (.returned []), .ready 1 [64, 0], .accept (some 4),
    .ready 1 [0, 64], .scan, .read (.returned [33]), .write (.returned 1)]

def reusedBySelect : List SelectEchoServer.Server.Event :=
  [.ready 1 {3}, .accept (some 4), .ready 1 {4}, .scan,
    .read (.returned [104, 105]), .write (.returned 1),
    .write (.failed true), .write (.returned 1), .ready 1 {4}, .scan,
    .read (.returned []), .ready 1 {3}, .accept (some 4), .ready 1 {4},
    .scan, .read (.returned [33]), .write (.returned 1)]

/-- The bytes that were sent to the first two connections. -/
def firstTwo (loop : Loop) : Phase × List (List (BitVec 8)) :=
  (loop.phase, [loop.sockets.sent 0, loop.sockets.sent 1])

theorem runs_echoed_reused :
    (∃ final,
      run PollEchoServer.Server.next
          (PollEchoServer.Server.start 3 (fun fd => decide (fd < 3)) []
            (List.replicate 8 ⟨none, 0, 0⟩))
          reusedByPoll = some final ∧
        firstTwo final.loop = (.top, [[104, 105], [33]]) ∧
          EchoedAtTop final.loop) ∧
      ∃ final,
        run SelectEchoServer.Server.next
            (SelectEchoServer.Server.start 3 (fun fd => decide (fd < 3)) [])
            reusedBySelect = some final ∧
          firstTwo final.loop = (.top, [[104, 105], [33]]) ∧
            EchoedAtTop final.loop := by
  constructor
  · have ran :
        (run PollEchoServer.Server.next
            (PollEchoServer.Server.start 3 (fun fd => decide (fd < 3)) []
              (List.replicate 8 ⟨none, 0, 0⟩))
            reusedByPoll).map (fun state => firstTwo state.loop) =
          some (.top, [[104, 105], [33]]) := by
      decide +kernel
    rcases Option.map_eq_some_iff.mp ran with ⟨final, ran, bytes⟩
    refine ⟨final, ran, bytes, ?_⟩
    exact
      runs_echoed.1 3 _ [] _ reusedByPoll final ran (by decide +kernel)
  · have ran :
        (run SelectEchoServer.Server.next
            (SelectEchoServer.Server.start 3 (fun fd => decide (fd < 3)) [])
            reusedBySelect).map (fun state => firstTwo state.loop) =
          some (.top, [[104, 105], [33]]) := by
      decide +kernel
    rcases Option.map_eq_some_iff.mp ran with ⟨final, ran, bytes⟩
    refine ⟨final, ran, bytes, ?_⟩
    exact runs_echoed.2 3 _ [] reusedBySelect final ran (by decide +kernel)

end CodingExamples.EchoServer.Isolation
