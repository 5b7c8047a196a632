import CodingExamples.Library.Barrier
import CodingExamples.Library.Execution

/-!
# The incast group

An `Incast_group` has all of its connections send the same number of bytes,
each after a random time, and waits until all of them have finished before it
starts the next round.  `done_data` of a connection calls `fin_notify` of the
group, which counts the finished connections.

The model has one transition for each event of the simulator: a command that
was given to `at`, or `done_data` for a transfer.  The times of the commands
and the durations of the transfers decide in which order events happen, so
every order is allowed.  The goodput that is printed depends on the times
only and is left out.
-/

namespace CodingExamples.IncastNs2.Group

open CodingExamples.Library

/-- The command `$tcp_pairs(i) send num_bytes`. -/
structure Send where
  pair : Nat
  numBytes : Nat
deriving DecidableEq, Repr

/-- What is observed of a group. -/
inductive Entry where
  /-- A command is given to `at`. -/
  | issued (command : Send)
  /-- `advance-bytes` and `done_data` of a transfer. -/
  | transfer (step : Barrier.Step Send)
  /-- The line that is printed for a round. -/
  | report (numIter : Int)
deriving DecidableEq, Repr

/-- The variables of the group, the events that are pending and the past. -/
structure State where
  numPairs : Nat
  finPairs : Nat
  warmupMode : Bool
  numIter : Int
  totNumBytes : Nat
  pending : List Send
  /-- The transfers for which `done_data` has not been called yet. -/
  unfinished : List Send
  exited : Bool
  trace : List Entry
deriving DecidableEq, Repr

/-! ## The procedures -/

/-- `Incast_group init`; other variables are set before they are read. -/
def init : State where
  numPairs := 0
  finPairs := 0
  warmupMode := false
  numIter := 0
  totNumBytes := 0
  pending := []
  unfinished := []
  exited := false
  trace := []

/-- `Incast_group add_pair`. -/
def addPair (state : State) : State :=
  { state with numPairs := state.numPairs + 1 }

/-- The commands of a round. -/
def sends (numPairs numBytes : Nat) : List Send :=
  (List.range numPairs).map fun i => ⟨i, numBytes⟩

/-- `Incast_group send_per_pair`. -/
def sendPerPair (state : State) (numBytes : Nat) : State :=
  { state with
    finPairs := 0
    pending := state.pending ++ sends state.numPairs numBytes
    trace :=
      state.trace ++ (sends state.numPairs numBytes).map Entry.issued }

/-- `Incast_group fin_notify`. -/
def finNotify (state : State) : State :=
  let state := { state with finPairs := state.finPairs + 1 }
  if state.finPairs = state.numPairs then
    if state.warmupMode = false then
      let state :=
        { state with
          trace := state.trace ++ [.report state.numIter]
          numIter := state.numIter - 1 }
      if state.numIter > 0 then
        sendPerPair state (state.totNumBytes / state.numPairs)
      else
        { state with exited := true }
    else
      state
  else
    state

/-- `Incast_group warmup`. -/
def warmup (state : State) (numBytes : Nat) : State :=
  sendPerPair
    { state with
      warmupMode := true
      totNumBytes := state.numPairs * numBytes }
    numBytes

/-- `Incast_group schedule`. -/
def schedule (state : State) (numBytes : Nat) (iter : Int) : State :=
  sendPerPair
    { state with
      warmupMode := false
      numIter := iter
      totNumBytes := state.numPairs * numBytes }
    numBytes

/-- `TCP_pair send`. -/
def send (state : State) (command : Send) : State :=
  { state with
    pending := state.pending.erase command
    unfinished := command :: state.unfinished
    trace := state.trace ++ [.transfer (.start command)] }

/-- `Agent/TCP/FullTcp done_data`; `add_pair` has set `incast_ctrl`. -/
def doneData (state : State) (command : Send) : State :=
  finNotify
    { state with
      unfinished := state.unfinished.erase command
      trace := state.trace ++ [.transfer (.finish command)] }

/-- A connection other than the last one is only counted. -/
theorem doneData_of_ne
    {state : State} (command : Send)
    (early : state.finPairs + 1 ≠ state.numPairs) :
    doneData state command =
      { state with
        finPairs := state.finPairs + 1
        unfinished := state.unfinished.erase command
        trace := state.trace ++ [.transfer (.finish command)] } :=
  if_neg early

/-- After the last connection the round is reported. -/
theorem doneData_of_eq
    {state : State} (command : Send)
    (last : state.finPairs + 1 = state.numPairs)
    (measured : state.warmupMode = false) :
    doneData state command =
      (let reported :=
        { state with
          finPairs := state.finPairs + 1
          unfinished := state.unfinished.erase command
          numIter := state.numIter - 1
          trace :=
            state.trace ++ [.transfer (.finish command)] ++
              [.report state.numIter] }
      if state.numIter - 1 > 0 then
        sendPerPair reported (state.totNumBytes / state.numPairs)
      else
        { reported with exited := true }) := by
  rw [doneData, finNotify, if_pos last, if_pos measured]

/-! ## The events -/

inductive Event where
  | send (command : Send)
  | doneData (command : Send)
deriving DecidableEq, Repr

/-- The state after an event, if it can happen. -/
def next (state : State) (event : Event) : Option State :=
  if state.exited then
    none
  else
    match event with
    | .send command =>
        if command ∈ state.pending then
          some (send state command)
        else
          none
    | .doneData command =>
        if command ∈ state.unfinished then
          some (doneData state command)
        else
          none

/-- What an event can do. -/
theorem next_eq_some_iff {state result : State} {event : Event} :
    next state event = some result ↔
      state.exited = false ∧
        ((∃ command ∈ state.pending, event = .send command ∧
            result = send state command) ∨
          ∃ command ∈ state.unfinished, event = .doneData command ∧
            result = doneData state command) := by
  cases exited : state.exited with
  | true => simp [next, exited]
  | false =>
      cases event with
      | send command =>
          by_cases member : command ∈ state.pending
          · simp [next, exited, member, eq_comm]
          · simp [next, exited, member]
      | doneData command =>
          by_cases member : command ∈ state.unfinished
          · simp [next, exited, member, eq_comm]
          · simp [next, exited, member]

/-- An event can happen as long as there is work left. -/
theorem not_stuck
    {state : State} (running : state.exited = false)
    (work : 0 < state.pending.length + state.unfinished.length) :
    ¬ Execution.Stuck next state := by
  intro stuck
  cases pending : state.pending with
  | cons command rest =>
      have stopped := stuck (.send command)
      simp [next, running, pending] at stopped
  | nil =>
      cases unfinished : state.unfinished with
      | cons command rest =>
          have stopped := stuck (.doneData command)
          simp [next, running, unfinished] at stopped
      | nil =>
          rw [pending, unfinished] at work
          exact absurd work (Nat.lt_irrefl 0)

end CodingExamples.IncastNs2.Group
