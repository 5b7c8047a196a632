import CodingExamples.Library.SocketOwnership
import CodingExamples.PollEchoServer.Slots
import CodingExamples.SelectEchoServer.Descriptors

/-!
# Open descriptors of the servers with one process

Both servers close a descriptor where they forget a client, and only there.
As long as every connection finds a slot, the descriptors that they have open
are therefore those that they began with and one for each client.
-/

namespace CodingExamples.EchoServer.OpenSockets

open CodingExamples.EchoServer.Multiplexing
open CodingExamples.Library.Execution
open CodingExamples.Library.SlotTable
open CodingExamples.Library.SocketTable

namespace Select

open CodingExamples.SelectEchoServer.Descriptors
open CodingExamples.SelectEchoServer.Server

/-- Each client is held under its descriptor. -/
def Owned (base : Nat → Bool) (state : State) : Prop :=
  state.loop.sockets.Owned base fun fd => some fd ∈ state.clients

end Select

/-! ## The `poll` server -/

namespace Poll

open CodingExamples.PollEchoServer.Server
open CodingExamples.PollEchoServer.Slots

/-- The first slot is that of the listening socket. -/
structure Owned (base : Nat → Bool) (listenfd : Nat) (state : State) :
    Prop where
  listens : state.listenfd = listenfd
  sockets :
    state.loop.sockets.Owned base fun fd =>
      fd ≠ listenfd ∧ some fd ∈ descriptors state.clients

theorem Owned.congr
    {base : Nat → Bool} {listenfd : Nat} {state result : State}
    (owned : Owned base listenfd state)
    (same : result.listenfd = state.listenfd)
    (sockets : result.loop.sockets = state.loop.sockets)
    (slots : descriptors result.clients = descriptors state.clients) :
    Owned base listenfd result where
  listens := same.trans owned.listens
  sockets := by
    rw [sockets, slots]
    exact owned.sockets

end Poll

end CodingExamples.EchoServer.OpenSockets
