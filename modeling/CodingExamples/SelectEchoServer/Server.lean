import CodingExamples.EchoServer.Multiplexing
import CodingExamples.Library.Execution
import CodingExamples.Library.SlotTable

/-!
# The echo server with `select`

`clients` is the array of the connected clients' descriptors, where `none` is
the value -1, and `allset` is the set that `select` waits for.  A set has
room for the descriptors below `FD_SETSIZE` only, and `clients` has as many
elements.  An access outside of these bounds is not defined.

`select` may return any number and any part of `allset`.  `accept` may return
any descriptor that is not open, since the limit on open files of a process
can be larger than `FD_SETSIZE`.
-/

namespace CodingExamples.SelectEchoServer.Server

open CodingExamples.EchoServer.Multiplexing
open CodingExamples.EchoServer.Unp
open CodingExamples.Library.SlotTable

/-- `FD_SETSIZE`. -/
def fdSetsize : Nat := 1024

/-- The variables of `main`. -/
structure State where
  loop : Loop
  listenfd : Nat
  maxfd : Nat
  maxi : Int
  clients : List (Option Nat)
  allset : Finset Nat
  rset : Finset Nat
  /-- Every descriptor that was passed to `FD_SET`. -/
  marked : List Nat

/-- What happens at an event; the report of `select` is `rset`. -/
abbrev Event : Type := EchoServer.Multiplexing.Event (Finset Nat)

/-- `FD_SET(fd, &set)`, `none` outside of the set's bounds. -/
def fdSet (fd : Nat) (set : Finset Nat) : Option (Finset Nat) :=
  if fd < fdSetsize then some (insert fd set) else none

/-- `FD_CLR(fd, &set)`. -/
def fdClr (fd : Nat) (set : Finset Nat) : Option (Finset Nat) :=
  if fd < fdSetsize then some (set.erase fd) else none

/-- `FD_ISSET(fd, &set)`. -/
def fdIsset (fd : Nat) (set : Finset Nat) : Option Bool :=
  if fd < fdSetsize then some (decide (fd ∈ set)) else none

/-- After an access out of bounds. -/
def State.undefined (state : State) : State :=
  { state with loop := { state.loop with phase := .undefined } }

def State.enter (state : State) (phase : Phase) : State :=
  { state with loop := { state.loop with phase := phase } }

/-- The loop of `main` is reached. -/
def start (listenfd : Nat) (inherited : Nat → Bool)
    (buf : List (BitVec 8)) : State :=
  let state : State :=
    { loop := Loop.start listenfd inherited buf
      listenfd := listenfd
      maxfd := listenfd
      maxi := -1
      clients := List.replicate fdSetsize none
      allset := ∅
      rset := ∅
      marked := [listenfd] }
  match fdSet listenfd ∅ with
  | none => state.undefined
  | some allset => { state with allset := allset }

/-- `select` returned. -/
def afterSelect (state : State) (nready : Int) (rset : Finset Nat) :
    State :=
  let state : State :=
    { state with
      loop := { state.loop with nready := nready }
      rset := rset }
  if nready ≤ 0 then
    state
  else
    match fdIsset state.listenfd rset with
    | none => state.undefined
    | some true => state.enter .accepting
    | some false => state.enter (.scanning 0)

/-- `accept` returned a descriptor. -/
def afterAccept (state : State) (connfd : Nat) : State :=
  let sockets := state.loop.sockets.accept connfd
  let i := freeSlot state.clients
  let clients := state.clients.set i (some connfd)
  -- "too many clients"
  let sockets := if i = fdSetsize then sockets.close connfd else sockets
  let state : State :=
    { state with
      loop := { state.loop with sockets := sockets }
      clients := clients
      marked := connfd :: state.marked }
  match fdSet connfd state.allset with
  | none => state.undefined
  | some allset =>
      { state with
        loop := state.loop.advance 0
        allset := allset
        maxfd := if connfd > state.maxfd then connfd else state.maxfd
        maxi := if (i : Int) > state.maxi then i else state.maxi }

/-- The loop over the clients, up to the next `read`. -/
def scan (state : State) (i : Nat) : State :=
  if (i : Int) ≤ state.maxi then
    match state.clients[i]? with
    | none => state.undefined
    | some none => state.enter (.scanning (i + 1))
    | some (some sockfd) =>
        match fdIsset sockfd state.rset with
        | none => state.undefined
        | some true => state.enter (.reading i sockfd)
        | some false => state.enter (.scanning (i + 1))
  else
    state.enter .top

/-- `read` failed, or the client has closed its connection. -/
def closeClient (state : State) (i sockfd : Nat) : State :=
  match fdClr sockfd state.allset with
  | none => state.undefined
  | some allset =>
      { state with
        loop := state.loop.closeClient i sockfd
        allset := allset
        clients := state.clients.set i none }

/-- The server's own parts of the loop. -/
def handlers : Handlers State (Finset Nat) where
  loop := State.loop
  withLoop := fun state loop => { state with loop := loop }
  reports := fun state rset => decide (rset ⊆ state.allset)
  afterReady := afterSelect
  afterAccept := afterAccept
  scan := scan
  closeClient := closeClient

/-- The state after an event, if it can happen. -/
def next : State → Event → Option State :=
  EchoServer.Multiplexing.next handlers

end CodingExamples.SelectEchoServer.Server
