import Mathlib

/-!
# The traffic generator for the network simulator

A group of connections (`Agent_Aggr_pair`) generates flows at times of its
own: `schedule` picks an idle connection, or creates one, and has its `send`
run at once; the simulator calls `done_data` when the flow has been sent,
which goes through `fin_notify` of the connection to that of the group.  All
groups share the counters of generated and finished flows and of flow
identifiers.

The model has one transition for each event of the simulator.  Times decide
in which order events happen, so every order is allowed, except that the
events of `at-now` happen before any other.  A warm-up transfer is not a flow
and changes none of the variables below.

Times are integers in place of the script's doubles, so that differences and
sums of them are exact.
-/

namespace CodingExamples.TrafficGenNs2.Generator

/-- A `TCP_pair`. -/
structure Pair where
  pairId : Nat
  flowId : Nat
  isBusy : Bool
  startTime : Int
  bytes : Nat
  fct : Int
  timeouts : Int
deriving DecidableEq, Repr

/-- An `Agent_Aggr_pair`; `pairs` is its array of connections. -/
structure Group where
  pairs : List Pair
  nrPairs : Nat
  nrBusyPairs : Int
deriving DecidableEq, Repr

/-- The command `$pairs(id) send bytes` of a group. -/
structure Send (count : Nat) where
  group : Fin count
  id : Nat
  bytes : Nat
deriving DecidableEq, Repr

/-- A line of the flow log. -/
structure Record (count : Nat) where
  bytes : Nat
  fct : Int
  timeouts : Int
  group : Fin count
deriving DecidableEq, Repr

inductive Status where
  | running
  /-- `finish` has ended the simulation. -/
  | finished
  /-- The interpreter stopped at an unset variable. -/
  | error
deriving DecidableEq, Repr

/-- The variables of the script and the events that are pending. -/
structure State (count : Nat) where
  groups : Fin count → Group
  flowTot : Nat
  flowGen : Nat
  flowFin : Nat
  initFid : Nat
  /-- The groups on which `init_schedule` has been called. -/
  started : Fin count → Bool
  /-- The pending calls of `schedule`. -/
  scheduled : List (Fin count)
  atNow : List (Send count)
  /-- The sends for which `done_data` has not been called yet. -/
  unfinished : List (Fin count × Nat)
  flowlog : List (Record count)
  status : Status

variable {count : Nat}

/-- Change a group. -/
def State.setGroup (state : State count) (g : Fin count) (group : Group) :
    State count :=
  { state with groups := Function.update state.groups g group }

/-! ## The procedures -/

/--
A connection after `setup`, `set_group_id`, `set_pair_id` and `set_flow_id`;
the variables of a flow are unset until the first `send`.
-/
def newPair (pairId flowId : Nat) : Pair where
  pairId := pairId
  flowId := flowId
  isBusy := false
  startTime := 0
  bytes := 0
  fct := 0
  timeouts := 0

/-- `Agent_Aggr_pair setup` with `nr` connections. -/
def setup (nr : Fin count → Nat) (state : State count) (g : Fin count) :
    State count :=
  { state.setGroup g
      { pairs :=
          (List.range (nr g)).map fun i => newPair i (state.initFid + i)
        nrPairs := nr g
        nrBusyPairs := 0 } with
    initFid := state.initFid + nr g }

/-- The state when the simulation starts. -/
def start (flowTot : Nat) (nr : Fin count → Nat) : State count :=
  (List.finRange count).foldl (setup nr)
    { groups := fun _ => ⟨[], 0, 0⟩
      flowTot := flowTot
      flowGen := 0
      flowFin := 0
      initFid := 0
      started := fun _ => false
      scheduled := []
      atNow := []
      unfinished := []
      flowlog := []
      status := .running }

/-- The connection that `schedule` creates when all others are busy. -/
def addPair (state : State count) (g : Fin count) : State count :=
  let group := state.groups g
  { state.setGroup g
      { group with
        pairs := group.pairs ++ [newPair group.nrPairs state.initFid]
        nrPairs := group.nrPairs + 1 } with
    initFid := state.initFid + 1 }

/-- The flow is counted, and sent on a connection at once. -/
def startFlow (state : State count) (g : Fin count) (id nbytes : Nat) :
    State count :=
  let group := state.groups g
  if state.flowGen < state.flowTot then
    { state.setGroup g
        { group with nrBusyPairs := group.nrBusyPairs + 1 } with
      flowGen := state.flowGen + 1
      atNow := state.atNow ++ [⟨g, id, nbytes⟩] }
  else
    state

/-- The same without a connection: `$pairs(-1)` is not set. -/
def startFlowNowhere (state : State count) (g : Fin count) : State count :=
  let group := state.groups g
  if state.flowGen < state.flowTot then
    { state.setGroup g
        { group with nrBusyPairs := group.nrBusyPairs + 1 } with
      flowGen := state.flowGen + 1
      status := .error }
  else
    state

/-- The search for an idle connection; `none` is the index -1. -/
def findIdle (group : Group) : Option Nat :=
  group.pairs.findIdx? fun pair => !pair.isBusy

/-- The part of `schedule` that generates a flow of that size. -/
def generate (state : State count) (g : Fin count) (size : Nat) :
    State count :=
  let group := state.groups g
  if group.nrBusyPairs = group.nrPairs then
    let state := addPair state g
    let id := (state.groups g).nrPairs - 1
    startFlow state g id (max size 2)
  else
    match findIdle group with
    | none => startFlowNowhere state g
    | some id => startFlow state g id (max size 2)

/-- The end of `schedule`: the next call is scheduled if flows are left. -/
def reschedule (state : State count) (g : Fin count) : State count :=
  if state.flowGen < state.flowTot then
    { state with scheduled := g :: state.scheduled }
  else
    state

/-- `Agent_Aggr_pair schedule`; `size` is the value of `rx_flow_size`. -/
def schedule (state : State count) (g : Fin count) (size : Nat) :
    State count :=
  if state.flowGen ≥ state.flowTot then
    state
  else
    let state := generate state g size
    if state.status = .error then state else reschedule state g

/-- `TCP_pair send`. -/
def send (state : State count) (command : Send count) (now : Int) :
    State count :=
  let group := state.groups command.group
  match group.pairs[command.id]? with
  | none => { state with status := .error }
  | some pair =>
      let pair :=
        { pair with
          isBusy := true
          startTime := now
          bytes := command.bytes }
      { state.setGroup command.group
          { group with pairs := group.pairs.set command.id pair } with
        unfinished := (command.group, command.id) :: state.unfinished }

/-- `Agent_Aggr_pair fin_notify`. -/
def groupFinNotify (state : State count) (g : Fin count)
    (bytes : Nat) (fct timeouts : Int) : State count :=
  let group := state.groups g
  let state : State count :=
    { state.setGroup g
        { group with nrBusyPairs := group.nrBusyPairs - 1 } with
      flowlog := state.flowlog ++ [⟨bytes, fct, timeouts, g⟩]
      flowFin := state.flowFin + 1 }
  if state.flowFin ≥ state.flowTot then
    { state with status := .finished }
  else
    state

/-- `TCP_pair fin_notify`; `nrexmit` is the sender's number of timeouts. -/
def finNotify (state : State count) (g : Fin count) (id : Nat)
    (now nrexmit : Int) : State count :=
  let group := state.groups g
  match group.pairs[id]? with
  | none => { state with status := .error }
  | some pair =>
      let finished :=
        { pair with
          isBusy := false
          fct := now - pair.startTime
          timeouts := nrexmit }
      groupFinNotify
        (state.setGroup g { group with pairs := group.pairs.set id finished })
        g finished.bytes finished.fct (nrexmit - pair.timeouts)

/-! ## The events -/

inductive Event (count : Nat) where
  | initSchedule (g : Fin count)
  | schedule (g : Fin count) (size : Nat)
  /-- The first command of `at-now`. -/
  | send (now : Int)
  /-- `done_data` for a send. -/
  | doneData (g : Fin count) (id : Nat) (now nrexmit : Int)
deriving DecidableEq, Repr

/-- The state after an event, if it can happen. -/
def next (state : State count) (event : Event count) :
    Option (State count) :=
  if state.status = .running then
    match event, state.atNow with
    | .send now, command :: rest =>
        some (send { state with atNow := rest } command now)
    | .initSchedule g, [] =>
        if state.started g then
          none
        else
          some
            { state with
              started := Function.update state.started g true
              scheduled := g :: state.scheduled }
    | .schedule g size, [] =>
        if g ∈ state.scheduled then
          some
            (schedule
              { state with scheduled := state.scheduled.erase g } g size)
        else
          none
    | .doneData g id now nrexmit, [] =>
        if (g, id) ∈ state.unfinished then
          some
            (finNotify
              { state with
                unfinished := state.unfinished.erase (g, id) }
              g id now nrexmit)
        else
          none
    | _, _ => none
  else
    none

end CodingExamples.TrafficGenNs2.Generator
