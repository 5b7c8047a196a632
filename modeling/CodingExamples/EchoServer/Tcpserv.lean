import CodingExamples.EchoServer.Unp
import CodingExamples.Library.Execution
import Mathlib.Data.Finset.Basic

/-!
# The server that forks

`main` of `tcpserv.c` accepts a connection and forks.  The child closes the
listening socket, runs `str_echo`, closes the connection and exits; the parent
closes the connection and goes on.  A child that has exited is a zombie until
`waitpid` has been called for it, which only `sig_chld` does.

Signals are not queued: a `SIGCHLD` that arrives while another one is pending
is lost.  The handler interrupts the parent between any two calls, and while
it runs the signal is blocked.

A step is one system call, or one `printf`, of one of the processes, together
with the code up to its next call, or something that a client does.  A call
that blocks is no step until it returns: how much a connection holds for a
client that does not read is not part of the model, so that `write` may always
return, and neither is the `SIGPIPE` of a `write` to a client that is gone.

The output is what the parent passes to `printf`.  The buffer behind `stdout`,
which `fork` copies and `exit` flushes, is left out.
-/

namespace CodingExamples.EchoServer.Tcpserv

open CodingExamples.EchoServer.Unp

/-- What a descriptor names. -/
inductive Socket where
  | listening
  | connection (number : Nat)
  | other
deriving DecidableEq, Repr

/-- The descriptors of a process. -/
abbrev Descriptors := Nat → Option Socket

def Descriptors.set
    (descriptors : Descriptors) (fd : Nat) (socket : Option Socket) :
    Descriptors :=
  fun other => if other = fd then socket else descriptors other

/-- A process that has exited holds nothing. -/
def Descriptors.none : Descriptors :=
  fun _ => Option.none

/-- Where the parent is in `main`. -/
inductive Main where
  | accepting
  | forking (connfd : Nat)
  | printing (connfd : Nat) (childpid : Int)
  | closing (connfd : Nat)
  /-- `main` has returned. -/
  | returned
deriving DecidableEq, Repr

/-- Where the parent is in `sig_chld`. -/
inductive Handler where
  | idle
  | waiting
  | printing (pid : Nat)
deriving DecidableEq, Repr

/-- Where a child is. -/
inductive Child where
  /-- Before `close(listenfd)`. -/
  | started (connfd : Nat)
  /-- In `str_echo`, before `read`. -/
  | reading (connfd : Nat)
  /-- In `str_echo`, in `writen`. -/
  | writing (connfd : Nat) (left : List (BitVec 8))
  /-- Before `close(connfd)`. -/
  | closing (connfd : Nat)
  | exiting
  | zombie
  /-- Its parent has waited for it; there is no such process any more. -/
  | reaped
deriving DecidableEq, Repr

structure Process where
  pid : Nat
  descriptors : Descriptors
  phase : Child

/-- A connection, with all bytes that the server has received and sent. -/
structure Connection where
  /-- What the client has sent and no process has read. -/
  unread : List (BitVec 8)
  clientClosed : Bool
  received : List (BitVec 8)
  sent : List (BitVec 8)
deriving DecidableEq, Repr

/-- What the parent passes to `printf`. -/
inductive Line where
  | start (childpid : Int)
  | terminated (pid : Nat)
deriving DecidableEq, Repr

structure State where
  main : Main
  descriptors : Descriptors
  handler : Handler
  /-- A `SIGCHLD` is pending. -/
  pending : Bool
  /-- A signal was handled while `accept` waited. -/
  interrupted : Bool
  /-- All children, in the order in which they were forked. -/
  children : List Process
  /-- All connections, in the order in which they were established. -/
  connections : List Connection
  /-- How many of them `accept` has returned. -/
  accepted : Nat
  /-- The calls of `printf` in the parent. -/
  output : List Line

/-- The results of `accept`. -/
inductive Accepted where
  | connected (connfd : Nat)
  | failed (interrupted : Bool)
deriving DecidableEq, Repr

/-- The calls of a child. -/
inductive Call where
  | close
  | read (result : ReadResult)
  | write (result : WriteResult)
  | exit
deriving DecidableEq, Repr

inductive Action where
  /-- A client connects, sends and closes. -/
  | connect
  | clientSend (number : Nat) (bytes : List (BitVec 8))
  | clientClose (number : Nat)
  | accept (result : Accepted)
  /-- `fork` returns a new process identifier, or fails. -/
  | fork (result : Option Nat)
  | printStart
  | close
  /-- The handler is entered. -/
  | deliver
  /-- `waitpid` returns for the child with the index, or for none. -/
  | waitpid (result : Option Nat)
  | printTerminated
  | child (index : Nat) (call : Call)
deriving DecidableEq, Repr

/-! ## The processes -/

/-- The process still has its identifier. -/
def Process.Exists (process : Process) : Prop :=
  process.phase ≠ .reaped

instance (process : Process) : Decidable process.Exists :=
  inferInstanceAs (Decidable (_ ≠ _))

/-- The child with an index becomes another one. -/
def State.setChild (state : State) (index : Nat) (process : Process) : State :=
  { state with children := state.children.set index process }

def State.setConnection
    (state : State) (number : Nat) (connection : Connection) : State :=
  { state with connections := state.connections.set number connection }

/-- `str_echo` in or after `writen`, whose result is ignored. -/
def inWriten (connfd : Nat) : Writen → Child
  | .writing left => .writing connfd left
  | .returned _ => .reading connfd

/-- The connection that a descriptor of a process names. -/
def Process.connection (process : Process) (fd : Nat) : Option Nat :=
  match process.descriptors fd with
  | some (.connection number) => some number
  | _ => none

/-- A `read` of a child. -/
def childRead
    (state : State) (index : Nat) (process : Process) (connfd : Nat) :
    ReadResult → Option State
  | .failed interrupted =>
      some
        (state.setChild index
          { process with
            phase := if interrupted then .reading connfd else .closing connfd })
  | .returned bytes =>
      (process.connection connfd).bind fun number =>
        (state.connections[number]?).bind fun connection =>
          if bytes.length = 0 then
            if connection.unread = [] ∧ connection.clientClosed = true then
              some
                (state.setChild index
                  { process with phase := .closing connfd })
            else
              none
          else if bytes.length ≤ maxline ∧ bytes <+: connection.unread then
            some
              ((state.setConnection number
                  { connection with
                    unread := connection.unread.drop bytes.length
                    received := connection.received ++ bytes }).setChild index
                { process with phase := inWriten connfd (writenLoop bytes) })
          else
            none

/--
A `write` of a child.  It may return whatever the client does: a `write` that
blocks is no step.
-/
def childWrite
    (state : State) (index : Nat) (process : Process) (connfd : Nat)
    (left : List (BitVec 8)) : WriteResult → Option State
  | .failed interrupted =>
      some
        (state.setChild index
          { process with
            phase := inWriten connfd (writenAfter left (.failed interrupted)) })
  | .returned count =>
      (process.connection connfd).bind fun number =>
        (state.connections[number]?).bind fun connection =>
          if count ≤ left.length then
            some
              ((state.setConnection number
                  { connection with
                    sent := connection.sent ++ left.take count }).setChild index
                { process with
                  phase :=
                    inWriten connfd (writenAfter left (.returned count)) })
          else
            none

/-- A call of a child. -/
def childStep
    (listenfd : Nat) (state : State) (index : Nat) (process : Process)
    (call : Call) : Option State :=
  match process.phase, call with
  | .started connfd, .close =>
      some
        (state.setChild index
          { process with
            descriptors := process.descriptors.set listenfd none
            phase := .reading connfd })
  | .reading connfd, .read result => childRead state index process connfd result
  | .writing connfd left, .write result =>
      childWrite state index process connfd left result
  | .closing connfd, .close =>
      some
        (state.setChild index
          { process with
            descriptors := process.descriptors.set connfd none
            phase := .exiting })
  | .exiting, .exit =>
      some
        ({ state with pending := true }.setChild index
          { process with descriptors := .none, phase := .zombie })
  | _, _ => none

/-! ## The parent -/

/-- `accept` returns. -/
def acceptStep (state : State) : Accepted → Option State
  | .connected connfd =>
      if state.accepted < state.connections.length ∧
          state.descriptors connfd = none then
        some
          { state with
            main := .forking connfd
            descriptors :=
              state.descriptors.set connfd (some (.connection state.accepted))
            accepted := state.accepted + 1
            interrupted := false }
      else
        none
  | .failed true =>
      if state.interrupted then
        some { state with interrupted := false }
      else
        none
  | .failed false =>
      some { state with main := .returned, descriptors := .none }

/-- `fork` returns in the parent and, if it has not failed, in the child. -/
def forkStep (state : State) (connfd : Nat) : Option Nat → Option State
  | none => some { state with main := .printing connfd (-1) }
  | some pid =>
      if 0 < pid ∧ ∀ process ∈ state.children, process.Exists → process.pid ≠ pid
      then
        some
          { state with
            main := .printing connfd pid
            children :=
              state.children ++
                [{ pid := pid
                   descriptors := state.descriptors
                   phase := .started connfd }] }
      else
        none

/-- The parent in `main`, while the handler does not run. -/
def mainStep (state : State) (action : Action) : Option State :=
  match state.main, action with
  | .accepting, .accept result => acceptStep state result
  | .forking connfd, .fork result => forkStep state connfd result
  | .printing connfd childpid, .printStart =>
      some
        { state with
          main := .closing connfd
          output := state.output ++ [.start childpid] }
  | .closing connfd, .close =>
      some
        { state with
          main := .accepting
          descriptors := state.descriptors.set connfd none
          interrupted := false }
  | _, _ => none

/-- `waitpid(-1, &stat, WNOHANG)` returns. -/
def waitStep (state : State) : Option Nat → Option State
  | some index =>
      (state.children[index]?).bind fun process =>
        if process.phase = .zombie then
          some
            ({ state with handler := .printing process.pid }.setChild index
              { process with phase := .reaped })
        else
          none
  | none =>
      if ∀ process ∈ state.children, process.phase ≠ .zombie then
        some { state with handler := .idle }
      else
        none

/-- The parent in `sig_chld`. -/
def handlerStep (state : State) (action : Action) : Option State :=
  match state.handler, action with
  | .waiting, .waitpid result => waitStep state result
  | .printing pid, .printTerminated =>
      some
        { state with
          handler := .waiting
          output := state.output ++ [.terminated pid] }
  | _, _ => none

/-! ## The server -/

/-- What a client does. -/
def clientStep (state : State) : Action → Option State
  | .connect =>
      some
        { state with connections := state.connections ++ [⟨[], false, [], []⟩] }
  | .clientSend number bytes =>
      (state.connections[number]?).bind fun connection =>
        if connection.clientClosed then
          none
        else
          some
            (state.setConnection number
              { connection with unread := connection.unread ++ bytes })
  | .clientClose number =>
      (state.connections[number]?).map fun connection =>
        state.setConnection number { connection with clientClosed := true }
  | _ => none

/-- The state after an action, if it can happen. -/
def next (listenfd : Nat) (state : State) (action : Action) : Option State :=
  match action with
  | .connect | .clientSend _ _ | .clientClose _ => clientStep state action
  | .child index call =>
      (state.children[index]?).bind fun process =>
        childStep listenfd state index process call
  | .deliver =>
      if state.pending = true ∧ state.handler = .idle ∧ state.main ≠ .returned
      then
        some
          { state with
            handler := .waiting
            pending := false
            interrupted := true }
      else
        none
  | .waitpid _ | .printTerminated => handlerStep state action
  | .accept _ | .fork _ | .printStart | .close =>
      if state.handler = .idle then mainStep state action else none

/-- The descriptors of a process that has called `socket`. -/
def openDescriptors (listenfd : Nat) (inherited : Finset Nat) : Descriptors :=
  fun fd =>
    if fd = listenfd then
      some .listening
    else if fd ∈ inherited then
      some .other
    else
      none

/-- Before the first `accept`. -/
def start (listenfd : Nat) (inherited : Finset Nat) : State where
  main := .accepting
  descriptors := openDescriptors listenfd inherited
  handler := .idle
  pending := false
  interrupted := false
  children := []
  connections := []
  accepted := 0
  output := []

/-! ## What a step can do -/

/-- The calls of a child, with what they start from and lead to. -/
inductive ChildStep (listenfd : Nat) (state : State) (index : Nat)
    (process : Process) : Call → State → Prop where
  | started (connfd : Nat) (phase : process.phase = .started connfd) :
      ChildStep listenfd state index process .close
        (state.setChild index
          { process with
            descriptors := process.descriptors.set listenfd none
            phase := .reading connfd })
  | readFailed (connfd : Nat) (interrupted : Bool)
      (phase : process.phase = .reading connfd) :
      ChildStep listenfd state index process (.read (.failed interrupted))
        (state.setChild index
          { process with
            phase := if interrupted then .reading connfd else .closing connfd })
  | readEnd (connfd number : Nat) (connection : Connection)
      (phase : process.phase = .reading connfd)
      (named : process.connection connfd = some number)
      (found : state.connections[number]? = some connection)
      (empty : connection.unread = [])
      (closed : connection.clientClosed = true) :
      ChildStep listenfd state index process (.read (.returned []))
        (state.setChild index { process with phase := .closing connfd })
  | read (connfd number : Nat) (connection : Connection)
      (bytes : List (BitVec 8))
      (phase : process.phase = .reading connfd)
      (named : process.connection connfd = some number)
      (found : state.connections[number]? = some connection)
      (nonempty : bytes ≠ [])
      (available : bytes <+: connection.unread) :
      ChildStep listenfd state index process (.read (.returned bytes))
        ((state.setConnection number
            { connection with
              unread := connection.unread.drop bytes.length
              received := connection.received ++ bytes }).setChild index
          { process with phase := inWriten connfd (writenLoop bytes) })
  | writeFailed (connfd : Nat) (left : List (BitVec 8)) (interrupted : Bool)
      (phase : process.phase = .writing connfd left) :
      ChildStep listenfd state index process (.write (.failed interrupted))
        (state.setChild index
          { process with
            phase := inWriten connfd (writenAfter left (.failed interrupted)) })
  | write (connfd number : Nat) (connection : Connection)
      (left : List (BitVec 8)) (count : Nat)
      (phase : process.phase = .writing connfd left)
      (named : process.connection connfd = some number)
      (found : state.connections[number]? = some connection)
      (possible : count ≤ left.length) :
      ChildStep listenfd state index process (.write (.returned count))
        ((state.setConnection number
            { connection with
              sent := connection.sent ++ left.take count }).setChild index
          { process with
            phase := inWriten connfd (writenAfter left (.returned count)) })
  | closed (connfd : Nat) (phase : process.phase = .closing connfd) :
      ChildStep listenfd state index process .close
        (state.setChild index
          { process with
            descriptors := process.descriptors.set connfd none
            phase := .exiting })
  | exited (phase : process.phase = .exiting) :
      ChildStep listenfd state index process .exit
        ({ state with pending := true }.setChild index
          { process with descriptors := .none, phase := .zombie })

theorem childStep_of_eq_some
    {listenfd : Nat} {state result : State} {index : Nat} {process : Process}
    {call : Call}
    (stepped : childStep listenfd state index process call = some result) :
    ChildStep listenfd state index process call result := by
  unfold childStep at stepped
  split at stepped
  case h_1 connfd phase =>
    cases stepped
    exact .started connfd phase
  case h_2 connfd outcome phase =>
    cases outcome with
    | failed interrupted =>
        cases stepped
        exact .readFailed connfd interrupted phase
    | returned bytes =>
        rw [childRead, Option.bind_eq_some_iff] at stepped
        rcases stepped with ⟨number, named, stepped⟩
        rw [Option.bind_eq_some_iff] at stepped
        rcases stepped with ⟨connection, found, stepped⟩
        split at stepped
        case isTrue zero =>
          rw [Option.ite_none_right_eq_some] at stepped
          rcases stepped with ⟨⟨empty, closed⟩, ⟨⟩⟩
          rw [List.eq_nil_of_length_eq_zero zero]
          exact .readEnd connfd number connection phase named found empty closed
        case isFalse nonzero =>
          rw [Option.ite_none_right_eq_some] at stepped
          rcases stepped with ⟨⟨_, available⟩, ⟨⟩⟩
          have nonempty : bytes ≠ [] := by
            rintro rfl
            exact nonzero rfl
          exact
            .read connfd number connection bytes phase named found nonempty
              available
  case h_3 connfd left outcome phase =>
    cases outcome with
    | failed interrupted =>
        cases stepped
        exact .writeFailed connfd left interrupted phase
    | returned count =>
        rw [childWrite, Option.bind_eq_some_iff] at stepped
        rcases stepped with ⟨number, named, stepped⟩
        rw [Option.bind_eq_some_iff] at stepped
        rcases stepped with ⟨connection, found, stepped⟩
        rw [Option.ite_none_right_eq_some] at stepped
        rcases stepped with ⟨possible, ⟨⟩⟩
        exact .write connfd number connection left count phase named found possible
  case h_4 connfd phase =>
    cases stepped
    exact .closed connfd phase
  case h_5 phase =>
    cases stepped
    exact .exited phase
  case h_6 => cases stepped

/-- The steps of the system, with what they start from and lead to. -/
inductive Step (listenfd : Nat) (state : State) : Action → State → Prop where
  | connect :
      Step listenfd state .connect
        { state with connections := state.connections ++ [⟨[], false, [], []⟩] }
  | clientSend (number : Nat) (bytes : List (BitVec 8))
      (connection : Connection)
      (found : state.connections[number]? = some connection)
      (isOpen : connection.clientClosed = false) :
      Step listenfd state (.clientSend number bytes)
        (state.setConnection number
          { connection with unread := connection.unread ++ bytes })
  | clientClose (number : Nat) (connection : Connection)
      (found : state.connections[number]? = some connection) :
      Step listenfd state (.clientClose number)
        (state.setConnection number { connection with clientClosed := true })
  | accepted (connfd : Nat)
      (accepting : state.main = .accepting) (idle : state.handler = .idle)
      (queued : state.accepted < state.connections.length)
      (unused : state.descriptors connfd = none) :
      Step listenfd state (.accept (.connected connfd))
        { state with
          main := .forking connfd
          descriptors :=
            state.descriptors.set connfd (some (.connection state.accepted))
          accepted := state.accepted + 1
          interrupted := false }
  | acceptInterrupted
      (accepting : state.main = .accepting) (idle : state.handler = .idle)
      (interrupted : state.interrupted = true) :
      Step listenfd state (.accept (.failed true))
        { state with interrupted := false }
  | acceptFailed
      (accepting : state.main = .accepting) (idle : state.handler = .idle) :
      Step listenfd state (.accept (.failed false))
        { state with main := .returned, descriptors := .none }
  | forkFailed (connfd : Nat)
      (forking : state.main = .forking connfd) (idle : state.handler = .idle) :
      Step listenfd state (.fork none)
        { state with main := .printing connfd (-1) }
  | forked (connfd pid : Nat)
      (forking : state.main = .forking connfd) (idle : state.handler = .idle)
      (positive : 0 < pid)
      (fresh :
        ∀ process ∈ state.children, process.Exists → process.pid ≠ pid) :
      Step listenfd state (.fork (some pid))
        { state with
          main := .printing connfd pid
          children :=
            state.children ++
              [{ pid := pid
                 descriptors := state.descriptors
                 phase := .started connfd }] }
  | printStart (connfd : Nat) (childpid : Int)
      (printing : state.main = .printing connfd childpid)
      (idle : state.handler = .idle) :
      Step listenfd state .printStart
        { state with
          main := .closing connfd
          output := state.output ++ [.start childpid] }
  | close (connfd : Nat)
      (closing : state.main = .closing connfd) (idle : state.handler = .idle) :
      Step listenfd state .close
        { state with
          main := .accepting
          descriptors := state.descriptors.set connfd none
          interrupted := false }
  | deliver (pending : state.pending = true) (idle : state.handler = .idle)
      (running : state.main ≠ .returned) :
      Step listenfd state .deliver
        { state with
          handler := .waiting
          pending := false
          interrupted := true }
  | waited (index : Nat) (process : Process)
      (waiting : state.handler = .waiting)
      (found : state.children[index]? = some process)
      (zombie : process.phase = .zombie) :
      Step listenfd state (.waitpid (some index))
        ({ state with handler := .printing process.pid }.setChild index
          { process with phase := .reaped })
  | waitedAll (waiting : state.handler = .waiting)
      (noZombie : ∀ process ∈ state.children, process.phase ≠ .zombie) :
      Step listenfd state (.waitpid none) { state with handler := .idle }
  | printTerminated (pid : Nat) (printing : state.handler = .printing pid) :
      Step listenfd state .printTerminated
        { state with
          handler := .waiting
          output := state.output ++ [.terminated pid] }
  | child (index : Nat) (process : Process) (call : Call) (result : State)
      (found : state.children[index]? = some process)
      (step : ChildStep listenfd state index process call result) :
      Step listenfd state (.child index call) result

theorem step_of_mainStep
    {listenfd : Nat} {state result : State} {action : Action}
    (idle : state.handler = .idle)
    (stepped : mainStep state action = some result) :
    Step listenfd state action result := by
  unfold mainStep at stepped
  split at stepped
  case h_1 outcome accepting =>
    unfold acceptStep at stepped
    split at stepped
    case h_1 connfd =>
      rw [Option.ite_none_right_eq_some] at stepped
      rcases stepped with ⟨⟨queued, unused⟩, ⟨⟩⟩
      exact .accepted connfd accepting idle queued unused
    case h_2 =>
      rw [Option.ite_none_right_eq_some] at stepped
      rcases stepped with ⟨interrupted, ⟨⟩⟩
      exact .acceptInterrupted accepting idle interrupted
    case h_3 =>
      cases stepped
      exact .acceptFailed accepting idle
  case h_2 connfd outcome forking =>
    cases outcome with
    | none =>
        cases stepped
        exact .forkFailed connfd forking idle
    | some pid =>
        rw [forkStep, Option.ite_none_right_eq_some] at stepped
        rcases stepped with ⟨⟨positive, fresh⟩, ⟨⟩⟩
        exact .forked connfd pid forking idle positive fresh
  case h_3 connfd childpid printing =>
    cases stepped
    exact .printStart connfd childpid printing idle
  case h_4 connfd closing =>
    cases stepped
    exact .close connfd closing idle
  case h_5 => cases stepped

theorem step_of_handlerStep
    {listenfd : Nat} {state result : State} {action : Action}
    (stepped : handlerStep state action = some result) :
    Step listenfd state action result := by
  unfold handlerStep at stepped
  split at stepped
  case h_1 outcome waiting =>
    cases outcome with
    | none =>
        rw [waitStep, Option.ite_none_right_eq_some] at stepped
        rcases stepped with ⟨noZombie, ⟨⟩⟩
        exact .waitedAll waiting noZombie
    | some index =>
        rw [waitStep, Option.bind_eq_some_iff] at stepped
        rcases stepped with ⟨process, found, stepped⟩
        rw [Option.ite_none_right_eq_some] at stepped
        rcases stepped with ⟨zombie, ⟨⟩⟩
        exact .waited index process waiting found zombie
  case h_2 pid printing =>
    cases stepped
    exact .printTerminated pid printing
  case h_3 => cases stepped

theorem step_of_clientStep
    {listenfd : Nat} {state result : State} {action : Action}
    (stepped : clientStep state action = some result) :
    Step listenfd state action result := by
  unfold clientStep at stepped
  split at stepped
  case h_1 =>
    cases stepped
    exact .connect
  case h_2 number bytes =>
    rw [Option.bind_eq_some_iff] at stepped
    rcases stepped with ⟨connection, found, stepped⟩
    rw [Option.ite_none_left_eq_some] at stepped
    rcases stepped with ⟨isOpen, ⟨⟩⟩
    exact .clientSend number bytes connection found (Bool.not_eq_true _ ▸ isOpen)
  case h_3 number =>
    rcases Option.map_eq_some_iff.mp stepped with ⟨connection, found, rfl⟩
    exact .clientClose number connection found
  case h_4 => cases stepped

theorem step_of_next
    {listenfd : Nat} {state result : State} {action : Action}
    (stepped : next listenfd state action = some result) :
    Step listenfd state action result := by
  unfold next at stepped
  split at stepped
  case h_1 => exact step_of_clientStep stepped
  case h_2 => exact step_of_clientStep stepped
  case h_3 => exact step_of_clientStep stepped
  case h_4 index call =>
    rw [Option.bind_eq_some_iff] at stepped
    rcases stepped with ⟨process, found, stepped⟩
    exact .child index process call result found (childStep_of_eq_some stepped)
  case h_5 =>
    rw [Option.ite_none_right_eq_some] at stepped
    rcases stepped with ⟨⟨pending, idle, running⟩, ⟨⟩⟩
    exact .deliver pending idle running
  case h_6 => exact step_of_handlerStep stepped
  case h_7 => exact step_of_handlerStep stepped
  all_goals
    rw [Option.ite_none_right_eq_some] at stepped
    exact step_of_mainStep stepped.1 stepped.2

end CodingExamples.EchoServer.Tcpserv
