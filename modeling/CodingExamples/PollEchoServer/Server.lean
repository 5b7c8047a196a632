import CodingExamples.EchoServer.Multiplexing
import CodingExamples.Library.Execution
import CodingExamples.Library.SlotTable

/-!
# The echo server with `poll`

`clients` is an array of `OPEN_MAX` elements; the first one is for the
listening socket, and `none` is the descriptor -1.  Only the descriptors are
initialised: `revents` of an element is what it was before `main` until `poll`
has stored it.  An access outside of the array is not defined.

`poll` may return any number, and store any flags in the elements it gets.
-/

namespace CodingExamples.PollEchoServer.Server

open CodingExamples.EchoServer.Multiplexing
open CodingExamples.EchoServer.Unp
open CodingExamples.Library.SlotTable

/-- `POLLRDNORM`. -/
def pollrdnorm : BitVec 16 := 64

/-- `POLLERR`. -/
def pollerr : BitVec 16 := 8

/-- `struct pollfd`. -/
structure PollFd where
  fd : Option Nat
  events : BitVec 16
  revents : BitVec 16
deriving DecidableEq, Repr

/-- The variables of `main`. -/
structure State where
  loop : Loop
  openMax : Nat
  listenfd : Nat
  maxi : Nat
  clients : List PollFd

/-- What happens at an event; `poll` reports the flags that it stores. -/
abbrev Event : Type := EchoServer.Multiplexing.Event (List (BitVec 16))

/-- The descriptors of an array. -/
def descriptors (clients : List PollFd) : List (Option Nat) :=
  clients.map fun client => client.fd

/-- `clients[i].fd = fd`. -/
def setFd (clients : List PollFd) (i : Nat) (fd : Option Nat) :
    List PollFd :=
  clients.modify i fun client => { client with fd := fd }

/-- `clients[i].events = POLLRDNORM`, `none` outside of the array. -/
def setEvents (clients : List PollFd) (i : Nat) : Option (List PollFd) :=
  if i < clients.length then
    some (clients.modify i fun client => { client with events := pollrdnorm })
  else
    none

/-- `poll` stores the flags of the elements that it was called with. -/
def storeRevents : List PollFd → List (BitVec 16) → List PollFd
  | client :: clients, revents :: rest =>
      { client with revents := revents } :: storeRevents clients rest
  | clients, _ => clients

/-- After an access out of bounds. -/
def State.undefined (state : State) : State :=
  { state with loop := { state.loop with phase := .undefined } }

def State.enter (state : State) (phase : Phase) : State :=
  { state with loop := { state.loop with phase := phase } }

/-- The loop of `main` is reached; the array is not initialised before. -/
def start (listenfd : Nat) (inherited : Nat → Bool)
    (buf : List (BitVec 8)) (clients : List PollFd) : State :=
  let state : State :=
    { loop := Loop.start listenfd inherited buf
      openMax := clients.length
      listenfd := listenfd
      maxi := 0
      clients := clients }
  match clients with
  | [] => state.undefined
  | first :: rest =>
      { state with
        clients :=
          { first with fd := some listenfd, events := pollrdnorm } ::
            rest.map fun client => { client with fd := none } }

/-- `poll` returned. -/
def afterPoll (state : State) (nready : Int) (revents : List (BitVec 16)) :
    State :=
  if state.maxi + 1 ≤ state.clients.length then
    let state : State :=
      { state with
        loop := { state.loop with nready := nready }
        clients := storeRevents state.clients revents }
    if nready ≤ 0 then
      state
    else
      match state.clients[0]? with
      | none => state.undefined
      | some client =>
          if client.revents &&& pollrdnorm ≠ 0 then
            state.enter .accepting
          else
            state.enter (.scanning 1)
  else
    state.undefined

/-- `accept` returned a descriptor. -/
def afterAccept (state : State) (connfd : Nat) : State :=
  let sockets := state.loop.sockets.accept connfd
  let i := freeSlot (descriptors state.clients)
  let clients := setFd state.clients i (some connfd)
  -- "too many clients"
  let sockets := if i = state.openMax then sockets.close connfd else sockets
  let state : State :=
    { state with loop := { state.loop with sockets := sockets } }
  match setEvents clients i with
  | none => { state with clients := clients }.undefined
  | some clients =>
      { state with
        loop := state.loop.advance 1
        clients := clients
        maxi := if i > state.maxi then i else state.maxi }

/-- The loop over the clients, up to the next `read`. -/
def scan (state : State) (i : Nat) : State :=
  if i ≤ state.maxi then
    match state.clients[i]? with
    | none => state.undefined
    | some client =>
        match client.fd with
        | none => state.enter (.scanning (i + 1))
        | some sockfd =>
            if client.revents &&& (pollrdnorm ||| pollerr) ≠ 0 then
              state.enter (.reading i sockfd)
            else
              state.enter (.scanning (i + 1))
  else
    state.enter .top

/-- `read` failed, or the client has closed its connection. -/
def closeClient (state : State) (i sockfd : Nat) : State :=
  { state with
    loop := state.loop.closeClient i sockfd
    clients := setFd state.clients i none }

/-- The server's own parts of the loop. -/
def handlers : Handlers State (List (BitVec 16)) where
  loop := State.loop
  withLoop := fun state loop => { state with loop := loop }
  reports := fun state revents => decide (revents.length = state.maxi + 1)
  afterReady := afterPoll
  afterAccept := afterAccept
  scan := scan
  closeClient := closeClient

theorem State.handlers_loop (state : State) :
    handlers.loop state = state.loop :=
  rfl

/-- The state after an event, if it can happen. -/
def next : State → Event → Option State :=
  EchoServer.Multiplexing.next handlers

end CodingExamples.PollEchoServer.Server
