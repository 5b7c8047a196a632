import CodingExamples.Library.History
import CodingExamples.Library.ListTable
import CodingExamples.Library.Progress
import CodingExamples.TrafficGenNs2.Runs

/-!
# The flows of a simulation

A flow is generated by `schedule`, sent, finished and logged.  Its size is
kept in its connection in the meantime, where the connection's next flow
overwrites it.  No flow is lost or logged twice, and every simulation ends:
each event takes a flow or a call of `schedule` further.
-/

namespace CodingExamples.TrafficGenNs2.Flows

open CodingExamples.Library.Execution
open CodingExamples.Library.History
open CodingExamples.Library.Progress
open CodingExamples.TrafficGenNs2.Counters
open CodingExamples.TrafficGenNs2.Generator
open CodingExamples.TrafficGenNs2.Runs

variable {count : Nat}

/-! ## What a run is about -/

/-- The size and the group of the flow that an event generates. -/
def generatedBy (state : State count) :
    Event count → List (Nat × Fin count)
  | .schedule g size =>
      if state.flowGen < state.flowTot then [(max size 2, g)] else []
  | .initSchedule _ | .send _ | .doneData _ _ _ _ => []

/-- A flow is sent at that time. -/
def sentAt : Event count → Int
  | .send now => now
  | .initSchedule _ | .schedule _ _ | .doneData _ _ _ _ => 0

/-- A flow is finished at that time. -/
def doneAt : Event count → Int
  | .doneData _ _ now _ => now
  | .initSchedule _ | .schedule _ _ | .send _ => 0

/-- The connection of a send. -/
def pairAt (groups : Fin count → Group) (sent : Fin count × Nat) :
    Option Pair :=
  (groups sent.1).pairs[sent.2]?

section Opened

variable {Value : Type} (value : Pair → Fin count → Value)

/-- What the connections say about the flows that are sent and not finished. -/
def openedIn (groups : Fin count → Group)
    (unfinished : List (Fin count × Nat)) : List Value :=
  unfinished.filterMap fun sent =>
    (pairAt groups sent).map fun pair => value pair sent.1

def opened (state : State count) : List Value :=
  openedIn value state.groups state.unfinished

end Opened

/-- The sizes and groups of all flows: logged, to be sent, and in progress. -/
def ledger (state : State count) : List (Nat × Fin count) :=
  state.flowlog.map (fun record => (record.bytes, record.group)) ++
    (state.atNow.map (fun command => (command.bytes, command.group)) ++
      opened (fun pair g => (pair.bytes, g)) state)

/-- The timeouts of all connections. -/
def totalTimeouts (groups : Fin count → Group) : Int :=
  ∑ g, ((groups g).pairs.map Pair.timeouts).sum

/-! ## Connections that change -/

section Connections

variable {Value : Type} {value : Pair → Fin count → Value}

theorem openedIn_congr
    {groups others : Fin count → Group}
    {unfinished : List (Fin count × Nat)}
    (same :
      ∀ sent ∈ unfinished,
        (pairAt others sent).map (fun pair => value pair sent.1) =
          (pairAt groups sent).map fun pair => value pair sent.1) :
    openedIn value others unfinished = openedIn value groups unfinished :=
  List.filterMap_congr same

/-- Another group than that of the send. -/
theorem pairAt_setGroup_of_ne
    (state : State count) {g : Fin count} {sent : Fin count × Nat}
    (other : sent.1 ≠ g) (group : Group) :
    pairAt (state.setGroup g group).groups sent = pairAt state.groups sent := by
  rw [pairAt, setGroup_groups_of_ne state other, pairAt]

theorem pairAt_setGroup_self
    (state : State count) (g : Fin count) (group : Group) (id : Nat) :
    pairAt (state.setGroup g group).groups (g, id) = group.pairs[id]? := by
  rw [pairAt, setGroup_groups_self]

/-- A connection that keeps its index. -/
theorem pairAt_setGroup
    (state : State count) {g : Fin count} {group : Group}
    {sent : Fin count × Nat}
    (kept :
      sent.1 = g → group.pairs[sent.2]? = (state.groups g).pairs[sent.2]?) :
    pairAt (state.setGroup g group).groups sent = pairAt state.groups sent := by
  by_cases same : sent.1 = g
  · rw [pairAt, same, setGroup_groups_self, kept same, pairAt, same]
  · exact pairAt_setGroup_of_ne state same group

/-- Replacing one connection leaves the others as they are. -/
theorem pairAt_set_of_ne
    (state : State count) {g : Fin count} {id : Nat} (pair : Pair)
    {busy : Int} {sent : Fin count × Nat} (other : sent ≠ (g, id)) :
    pairAt
        (state.setGroup g
          { state.groups g with
            pairs := (state.groups g).pairs.set id pair
            nrBusyPairs := busy }).groups
        sent =
      pairAt state.groups sent := by
  apply pairAt_setGroup
  intro same
  apply List.getElem?_set_ne
  rintro rfl
  exact other (Prod.ext same rfl)

/-- What the values of all groups add up to after one group has changed. -/
theorem sum_setGroup_add
    (state : State count) (g : Fin count) (group : Group)
    (value : Group → Int) :
    ∑ h, value ((state.setGroup g group).groups h) + value (state.groups g) =
      ∑ h, value (state.groups h) + value group := by
  have split (groups : Fin count → Group) :
      ∑ h, value (groups h) =
        value (groups g) + ∑ h ∈ Finset.univ.erase g, value (groups h) :=
    (Finset.add_sum_erase _ _ (Finset.mem_univ g)).symm
  have rest :
      ∑ h ∈ Finset.univ.erase g, value ((state.setGroup g group).groups h) =
        ∑ h ∈ Finset.univ.erase g, value (state.groups h) := by
    apply Finset.sum_congr rfl
    intro h member
    rw [setGroup_groups_of_ne state (Finset.ne_of_mem_erase member)]
  rw [split (state.setGroup g group).groups, split state.groups, rest,
    setGroup_groups_self]
  ring

theorem totalTimeouts_setGroup
    (state : State count) (g : Fin count) (group : Group) :
    totalTimeouts (state.setGroup g group).groups +
        ((state.groups g).pairs.map Pair.timeouts).sum =
      totalTimeouts state.groups + (group.pairs.map Pair.timeouts).sum :=
  sum_setGroup_add state g group fun group =>
    (group.pairs.map Pair.timeouts).sum

end Connections

/-! ## The procedures -/

/-- What the generation of a flow does. -/
structure Generates (state : State count) (g : Fin count) (size : Nat)
    (result : State count) : Prop where
  flowTot : result.flowTot = state.flowTot
  flowGen : result.flowGen = state.flowGen + 1
  flowFin : result.flowFin = state.flowFin
  started : result.started = state.started
  scheduled : result.scheduled.length ≤ state.scheduled.length + 1
  sends : ∃ id, result.atNow = [⟨g, id, max size 2⟩]
  unfinished : result.unfinished = state.unfinished
  flowlog : result.flowlog = state.flowlog
  status : result.status = state.status
  pairs :
    ∀ sent ∈ state.unfinished,
      pairAt result.groups sent = pairAt state.groups sent
  timeouts : totalTimeouts result.groups = totalTimeouts state.groups

theorem startFlow_generates
    {state : State count} (quiet : state.atNow = [])
    (left : state.flowGen < state.flowTot) (g : Fin count) (id size : Nat) :
    Generates state g size (startFlow state g id (max size 2)) := by
  have sent :
      (startFlow state g id (max size 2)).atNow = [⟨g, id, max size 2⟩] :=
    startFlow_sent quiet left _
  rw [startFlow, if_pos left] at sent ⊢
  constructor
  case flowTot => rfl
  case flowGen => rfl
  case flowFin => rfl
  case started => rfl
  case scheduled => exact Nat.le_succ _
  case sends => exact ⟨id, sent⟩
  case unfinished => rfl
  case flowlog => rfl
  case status => rfl
  case pairs =>
    intro sent _
    exact pairAt_setGroup state fun _ => rfl
  case timeouts =>
    have changed :=
      totalTimeouts_setGroup state g
        { state.groups g with
          nrBusyPairs := (state.groups g).nrBusyPairs + 1 }
    exact add_right_cancel changed

/-- The new connection has had no timeouts. -/
theorem totalTimeouts_addPair (state : State count) (g : Fin count) :
    totalTimeouts (addPair state g).groups = totalTimeouts state.groups := by
  have changed :=
    totalTimeouts_setGroup state g
      { state.groups g with
        pairs :=
          (state.groups g).pairs ++
            [newPair (state.groups g).nrPairs state.initFid]
        nrPairs := (state.groups g).nrPairs + 1 }
  rw [List.map_append, List.sum_append] at changed
  have nothing :
      ([newPair (state.groups g).nrPairs state.initFid].map
        Pair.timeouts).sum = 0 :=
    rfl
  rw [nothing, add_zero] at changed
  exact add_right_cancel changed

theorem generate_generates
    {state : State count} (counted : Counted state)
    (quiet : state.atNow = []) (left : state.flowGen < state.flowTot)
    (g : Fin count) (size : Nat) :
    Generates state g size (generate state g size) := by
  rw [generate]
  by_cases full : (state.groups g).nrBusyPairs = (state.groups g).nrPairs
  · rw [if_pos full]
    have noneAdded : (addPair state g).atNow = [] :=
      quiet
    have leftAdded : (addPair state g).flowGen < (addPair state g).flowTot :=
      left
    have generates :=
      startFlow_generates noneAdded leftAdded g
        (((addPair state g).groups g).nrPairs - 1) size
    constructor
    case flowTot => exact generates.flowTot
    case flowGen => exact generates.flowGen
    case flowFin => exact generates.flowFin
    case started => exact generates.started
    case scheduled => exact generates.scheduled
    case sends => exact generates.sends
    case unfinished => exact generates.unfinished
    case flowlog => exact generates.flowlog
    case status => exact generates.status
    case pairs =>
      intro sent member
      rw [generates.pairs sent member]
      rcases counted.active sent member with ⟨pair, found, _⟩
      apply pairAt_setGroup
      intro same
      rw [same] at found
      exact
        List.getElem?_append_left (List.getElem?_eq_some_iff.mp found).1
    case timeouts =>
      exact generates.timeouts.trans (totalTimeouts_addPair state g)
  · rw [if_neg full]
    rcases exists_findIdle_of_ne counted quiet full with ⟨id, found⟩
    rw [found]
    exact startFlow_generates quiet left g id size

/-- `schedule` generates a flow as long as there are flows left. -/
theorem schedule_generates
    {state : State count} (counted : Counted state)
    (quiet : state.atNow = []) (left : state.flowGen < state.flowTot)
    (g : Fin count) (size : Nat) :
    Generates state g size (schedule state g size) := by
  have generates := generate_generates counted quiet left g size
  have generated := generate_counted counted quiet left g size
  have plan := (generate_plan state g size).2
  rw [schedule, if_neg (Nat.not_le.mpr left)]
  dsimp only
  rw [if_neg generated.noError, reschedule]
  split
  case isTrue =>
    constructor
    case flowTot => exact generates.flowTot
    case flowGen => exact generates.flowGen
    case flowFin => exact generates.flowFin
    case started => exact generates.started
    case scheduled =>
      dsimp only
      rw [plan, List.length_cons]
    case sends => exact generates.sends
    case unfinished => exact generates.unfinished
    case flowlog => exact generates.flowlog
    case status => exact generates.status
    case pairs => exact generates.pairs
    case timeouts => exact generates.timeouts
  case isFalse => exact generates

/-- The connection of a flow that is sent. -/
def sending (pair : Pair) (bytes : Nat) (now : Int) : Pair :=
  { pair with isBusy := true, startTime := now, bytes := bytes }

/-- What a send does that finds its connection. -/
structure Sends (state : State count) (command : Send count)
    (rest : List (Send count)) (pair : Pair) (now : Int)
    (result : State count) : Prop where
  groups :
    result.groups =
      (state.setGroup command.group
        { state.groups command.group with
          pairs :=
            (state.groups command.group).pairs.set command.id
              (sending pair command.bytes now) }).groups
  flowTot : result.flowTot = state.flowTot
  flowGen : result.flowGen = state.flowGen
  flowFin : result.flowFin = state.flowFin
  started : result.started = state.started
  scheduled : result.scheduled = state.scheduled
  atNow : result.atNow = rest
  unfinished :
    result.unfinished = (command.group, command.id) :: state.unfinished
  flowlog : result.flowlog = state.flowlog
  status : result.status = state.status

theorem send_sends
    (state : State count) {command : Send count} {pair : Pair}
    (found : (state.groups command.group).pairs[command.id]? = some pair)
    (rest : List (Send count)) (now : Int) :
    Sends state command rest pair now
      (send { state with atNow := rest } command now) := by
  rw [send, found]
  exact ⟨rfl, rfl, rfl, rfl, rfl, rfl, rfl, rfl, rfl, rfl⟩

/-- The connection of a flow that is finished. -/
def finished (pair : Pair) (now nrexmit : Int) : Pair :=
  { pair with
    isBusy := false
    fct := now - pair.startTime
    timeouts := nrexmit }

/-- The group of a flow that is finished. -/
def finishedGroup (group : Group) (id : Nat) (pair : Pair)
    (now nrexmit : Int) : Group :=
  { group with
    pairs := group.pairs.set id (finished pair now nrexmit)
    nrBusyPairs := group.nrBusyPairs - 1 }

/-- What the end of a flow does. -/
structure Finishes (state : State count) (g : Fin count) (id : Nat)
    (pair : Pair) (now nrexmit : Int) (result : State count) : Prop where
  groups :
    result.groups =
      (state.setGroup g
        (finishedGroup (state.groups g) id pair now nrexmit)).groups
  flowTot : result.flowTot = state.flowTot
  flowGen : result.flowGen = state.flowGen
  flowFin : result.flowFin = state.flowFin + 1
  started : result.started = state.started
  scheduled : result.scheduled = state.scheduled
  atNow : result.atNow = state.atNow
  unfinished : result.unfinished = state.unfinished.erase (g, id)
  flowlog :
    result.flowlog =
      state.flowlog ++
        [⟨pair.bytes, now - pair.startTime, nrexmit - pair.timeouts, g⟩]
  status :
    result.status =
      if state.flowFin + 1 ≥ state.flowTot then
        .finished
      else
        state.status

theorem finNotify_finishes
    (state : State count) {g : Fin count} {id : Nat} {pair : Pair}
    (found : (state.groups g).pairs[id]? = some pair) (now nrexmit : Int) :
    Finishes state g id pair now nrexmit
      (finNotify { state with unfinished := state.unfinished.erase (g, id) }
        g id now nrexmit) := by
  rw [finNotify, found]
  dsimp only
  rw [groupFinNotify, setGroup_groups_self, setGroup_setGroup]
  dsimp only
  have result (status : Status) (last :
      status =
        if state.flowFin + 1 ≥ state.flowTot then
          .finished
        else
          state.status) :
      Finishes state g id pair now nrexmit
        { state.setGroup g
            (finishedGroup (state.groups g) id pair now nrexmit) with
          flowFin := state.flowFin + 1
          unfinished := state.unfinished.erase (g, id)
          flowlog :=
            state.flowlog ++
              [⟨pair.bytes, now - pair.startTime, nrexmit - pair.timeouts, g⟩]
          status := status } :=
    ⟨rfl, rfl, rfl, rfl, rfl, rfl, rfl, rfl, rfl, last⟩
  split
  case isTrue last => exact result .finished (if_pos last).symm
  case isFalse more => exact result state.status (if_neg more).symm

/-! ## What an event changes -/

/-- What the log says of the times, but for the flows that are in progress. -/
def loggedTime (state : State count) : Int :=
  (state.flowlog.map Record.fct).sum -
    (opened (fun pair _ => pair.startTime) state).sum

/-- The timeouts that are not logged. -/
def unloggedTimeouts (state : State count) : Int :=
  totalTimeouts state.groups - (state.flowlog.map Record.timeouts).sum

/-- The event is accounted for. -/
structure Accounts (state : State count) (event : Event count)
    (result : State count) : Prop where
  flows : (ledger result).Perm (ledger state ++ generatedBy state event)
  times : loggedTime result = loggedTime state + doneAt event - sentAt event
  timeouts : unloggedTimeouts result = unloggedTimeouts state

section Events

variable {state result : State count}

theorem Generates.opened_eq
    {g : Fin count} {size : Nat} (generates : Generates state g size result)
    {Value : Type} (value : Pair → Fin count → Value) :
    opened value result = opened value state := by
  rw [opened, generates.unfinished]
  apply openedIn_congr
  intro sent member
  rw [generates.pairs sent member]

theorem Generates.accounts
    {g : Fin count} {size : Nat} (generates : Generates state g size result)
    (quiet : state.atNow = []) (left : state.flowGen < state.flowTot) :
    Accounts state (.schedule g size) result := by
  rcases generates.sends with ⟨id, sends⟩
  constructor
  case flows =>
    rw [generatedBy, if_pos left, ledger, ledger, generates.flowlog, sends,
      quiet, generates.opened_eq, List.append_assoc]
    exact List.Perm.append_left _ List.perm_append_comm
  case times =>
    rw [loggedTime, loggedTime, generates.flowlog, generates.opened_eq]
    exact (add_zero _).symm.trans (sub_zero _).symm
  case timeouts =>
    rw [unloggedTimeouts, unloggedTimeouts, generates.flowlog,
      generates.timeouts]

theorem Sends.accounts
    {command : Send count} {rest : List (Send count)} {pair : Pair}
    {now : Int} (sends : Sends state command rest pair now result)
    (counted : Counted state) (pending : state.atNow = command :: rest)
    (found : (state.groups command.group).pairs[command.id]? = some pair)
    (idle : pair.isBusy = false) :
    Accounts state (.send now) result := by
  have notSent : (command.group, command.id) ∉ state.unfinished := by
    intro sent
    rcases counted.active _ sent with ⟨active, foundAgain, busy⟩
    rw [found] at foundAgain
    cases foundAgain
    rw [idle] at busy
    cases busy
  have inside := (List.getElem?_eq_some_iff.mp found).1
  have openedNow {Value : Type} (value : Pair → Fin count → Value) :
      opened value result =
        value (sending pair command.bytes now) command.group ::
          opened value state := by
    rw [opened, openedIn, sends.groups, sends.unfinished,
      List.filterMap_cons_some]
    · congr 1
      apply openedIn_congr
      intro sent member
      rw [pairAt_set_of_ne]
      rintro rfl
      exact notSent member
    · rw [pairAt_setGroup_self, List.getElem?_set_self inside]
      rfl
  constructor
  case flows =>
    rw [generatedBy, List.append_nil, ledger, ledger, sends.flowlog,
      openedNow, sends.atNow, pending, List.map_cons, List.cons_append]
    exact List.Perm.append_left _ List.perm_middle
  case times =>
    rw [loggedTime, loggedTime, sends.flowlog, openedNow, List.sum_cons,
      doneAt, sentAt, sending]
    ring
  case timeouts =>
    rw [unloggedTimeouts, unloggedTimeouts, sends.flowlog, sends.groups]
    congr 1
    have changed :=
      totalTimeouts_setGroup state command.group
        { state.groups command.group with
          pairs :=
            (state.groups command.group).pairs.set command.id
              (sending pair command.bytes now) }
    have same :
        ((state.groups command.group).pairs.set command.id
            (sending pair command.bytes now)).map Pair.timeouts =
          (state.groups command.group).pairs.map Pair.timeouts :=
      Library.ListTable.map_set_eq found rfl
    rw [same] at changed
    exact add_right_cancel changed

theorem Finishes.accounts
    {g : Fin count} {id : Nat} {pair : Pair} {now nrexmit : Int}
    (finishes : Finishes state g id pair now nrexmit result)
    (counted : Counted state) (sent : (g, id) ∈ state.unfinished)
    (found : (state.groups g).pairs[id]? = some pair) :
    Accounts state (.doneData g id now nrexmit) result := by
  have openedBefore {Value : Type} (value : Pair → Fin count → Value) :
      (opened value state).Perm
        (value pair g ::
          openedIn value state.groups (state.unfinished.erase (g, id))) := by
    have perm :=
      (List.perm_cons_erase sent).filterMap fun sent =>
        (pairAt state.groups sent).map fun pair => value pair sent.1
    rwa [List.filterMap_cons_some (b := value pair g)] at perm
    rw [pairAt, found]
    rfl
  have openedAfter {Value : Type} (value : Pair → Fin count → Value) :
      opened value result =
        openedIn value state.groups (state.unfinished.erase (g, id)) := by
    rw [opened, finishes.groups, finishes.unfinished]
    apply openedIn_congr
    intro other member
    rw [finishedGroup, pairAt_set_of_ne]
    rintro rfl
    exact counted.nodup.not_mem_erase member
  constructor
  case flows =>
    rw [generatedBy, List.append_nil, ledger, ledger, finishes.flowlog,
      finishes.atNow, openedAfter, List.map_append, List.map_singleton,
      List.append_assoc, List.singleton_append]
    apply List.Perm.append_left
    have before := openedBefore fun pair g => (pair.bytes, g)
    refine List.Perm.trans ?_ (List.Perm.append_left _ before.symm)
    exact List.perm_middle.symm
  case times =>
    have before := (openedBefore fun pair _ => pair.startTime).sum_eq
    rw [List.sum_cons] at before
    rw [loggedTime, loggedTime, before, finishes.flowlog, openedAfter,
      List.map_append, List.sum_append, List.map_singleton,
      List.sum_singleton, doneAt, sentAt]
    ring
  case timeouts =>
    have changed :=
      totalTimeouts_setGroup state g
        (finishedGroup (state.groups g) id pair now nrexmit)
    have moved :=
      Library.ListTable.sum_map_set found (finished pair now nrexmit)
        Pair.timeouts
    rw [unloggedTimeouts, unloggedTimeouts, finishes.groups,
      finishes.flowlog, List.map_append, List.sum_append,
      List.map_singleton, List.sum_singleton]
    rw [finishedGroup] at changed ⊢
    rw [finished] at moved changed ⊢
    dsimp only at moved changed ⊢
    linarith

theorem next_accounts
    (counted : Counted state) {event : Event count}
    (stepped : next state event = some result) :
    Accounts state event result := by
  cases step_of_next stepped with
  | send now command rest pending =>
      have member : command ∈ state.atNow := by
        rw [pending]
        exact List.mem_cons_self
      rcases counted.idle command member with ⟨pair, found, idle⟩
      have sends := send_sends state found rest now
      exact sends.accounts counted pending found idle
  | initSchedule g quiet fresh =>
      constructor
      case flows =>
        rw [generatedBy, List.append_nil]
        exact List.Perm.refl _
      case times => exact (add_zero _).symm.trans (sub_zero _).symm
      case timeouts => rfl
  | schedule g size quiet member =>
      by_cases left : state.flowGen < state.flowTot
      · have generates :=
          schedule_generates
            (counted.plan state.started (state.scheduled.erase g)) quiet left
            g size
        have accounts := generates.accounts quiet left
        exact ⟨accounts.flows, accounts.times, accounts.timeouts⟩
      · rw [schedule, if_pos (Nat.not_lt.mp left)]
        constructor
        case flows =>
          rw [generatedBy, if_neg left, List.append_nil]
          exact List.Perm.refl _
        case times => exact (add_zero _).symm.trans (sub_zero _).symm
        case timeouts => rfl
  | doneData g id now nrexmit quiet sent =>
      rcases counted.active (g, id) sent with ⟨pair, active, _⟩
      have found : (state.groups g).pairs[id]? = some pair := active
      have finishes := finNotify_finishes state found now nrexmit
      exact finishes.accounts counted sent found

end Events

theorem run_accounts
    {state final : State count} {events : List (Event count)}
    (counted : Counted state) (ran : run next state events = some final) :
    (ledger final).Perm (ledger state ++ emitted next generatedBy state events) ∧
      loggedTime final =
        loggedTime state + ((events.map doneAt).sum -
          (events.map sentAt).sum) ∧
      unloggedTimeouts final = unloggedTimeouts state := by
  induction events generalizing state with
  | nil =>
      cases ran
      refine ⟨?_, ?_, rfl⟩
      · rw [emitted, List.append_nil]
      · rw [List.map_nil, List.map_nil, List.sum_nil, sub_zero, add_zero]
  | cons event rest ih =>
      rw [run_cons_eq_some_iff] at ran
      rcases ran with ⟨middle, stepped, ranRest⟩
      have accounts := next_accounts counted stepped
      rcases ih (next_counted counted stepped) ranRest with
        ⟨flows, times, timeouts⟩
      refine ⟨?_, ?_, timeouts.trans accounts.timeouts⟩
      · rw [emitted_cons stepped, ← List.append_assoc]
        exact flows.trans (accounts.flows.append_right _)
      · rw [times, accounts.times, List.map_cons, List.map_cons,
          List.sum_cons, List.sum_cons]
        ring

/-! ## From the start -/

/-- Nothing has been logged, and no connection has had a timeout. -/
structure Unlogged (flowTot : Nat) (state : State count) : Prop where
  flowTot : state.flowTot = flowTot
  flowlog : state.flowlog = []
  timeouts : ∀ g, ∀ pair ∈ (state.groups g).pairs, pair.timeouts = 0

theorem setup_unlogged
    {flowTot : Nat} {state : State count} (unlogged : Unlogged flowTot state)
    (nr : Fin count → Nat) (g : Fin count) :
    Unlogged flowTot (setup nr state g) where
  flowTot := unlogged.flowTot
  flowlog := unlogged.flowlog
  timeouts := by
    apply setGroup_forall fun _ group =>
      ∀ pair ∈ group.pairs, pair.timeouts = 0
    · intro pair member
      rcases List.mem_map.mp member with ⟨i, -, rfl⟩
      rfl
    · exact unlogged.timeouts

theorem start_unlogged (flowTot : Nat) (nr : Fin count → Nat) :
    Unlogged flowTot (start flowTot nr) := by
  have setups (groups : List (Fin count)) (state : State count)
      (unlogged : Unlogged flowTot state) :
      Unlogged flowTot (groups.foldl (setup nr) state) := by
    induction groups generalizing state with
    | nil => exact unlogged
    | cons g rest ih => exact ih (setup nr state g) (setup_unlogged unlogged nr g)
  apply setups
  constructor
  case flowTot => rfl
  case flowlog => rfl
  case timeouts =>
    intro g pair member
    cases member

theorem Unlogged.totalTimeouts
    {flowTot : Nat} {state : State count}
    (unlogged : Unlogged flowTot state) :
    totalTimeouts state.groups = 0 := by
  apply Finset.sum_eq_zero
  intro g _
  apply List.sum_eq_zero
  intro timeouts member
  rcases List.mem_map.mp member with ⟨pair, inside, rfl⟩
  exact unlogged.timeouts g pair inside

/--
The sizes, the times and the timeouts in the log of a run; times are added and
subtracted exactly.
-/
theorem run_accounted
    (flowTot : Nat) (nr : Fin count → Nat) (events : List (Event count))
    (final : State count)
    (ran : run next (start flowTot nr) events = some final) :
    (emitted next generatedBy (start flowTot nr) events).Perm
        (ledger final) ∧
      (final.flowlog.map Record.fct).sum =
        (events.map doneAt).sum - (events.map sentAt).sum +
          (opened (fun pair _ => pair.startTime) final).sum ∧
      (final.flowlog.map Record.timeouts).sum =
        totalTimeouts final.groups := by
  have fresh := (start_fresh flowTot nr).1
  have unlogged := start_unlogged flowTot nr
  rcases run_accounts fresh.counted ran with ⟨flows, times, timeouts⟩
  have nothing {Value : Type} (value : Pair → Fin count → Value) :
      opened value (start flowTot nr) = [] := by
    rw [opened, fresh.unfinished]
    rfl
  refine ⟨?_, ?_, ?_⟩
  · have empty : ledger (start flowTot nr) = [] := by
      rw [ledger, unlogged.flowlog, fresh.atNow, nothing]
      rfl
    rw [empty, List.nil_append] at flows
    exact flows.symm
  · rw [loggedTime, loggedTime, unlogged.flowlog, nothing, List.map_nil,
      List.sum_nil, sub_zero, zero_add] at times
    exact sub_eq_iff_eq_add.mp times
  · rw [unloggedTimeouts, unloggedTimeouts, unlogged.flowlog,
      unlogged.totalTimeouts, List.map_nil, List.sum_nil, sub_zero] at timeouts
    exact (sub_eq_zero.mp timeouts).symm

/-- Two flows of the first group are generated, and one of them is logged. -/
theorem run_accounted_twoGroups :
    ∃ final,
      run next (start 3 fun _ => 1) twoGroups = some final ∧
        final.flowlog = [⟨900, 20, 1, 0⟩] ∧
        (emitted next generatedBy (start 3 fun _ => 1) twoGroups).Perm
          (ledger final) ∧
        (final.flowlog.map Record.fct).sum =
          (twoGroups.map doneAt).sum - (twoGroups.map sentAt).sum +
            (opened (fun pair _ => pair.startTime) final).sum :=
  ⟨_, rfl, rfl,
    (run_accounted 3 (fun _ => 1) twoGroups _ rfl).1,
    (run_accounted 3 (fun _ => 1) twoGroups _ rfl).2.1⟩

/-! ## The end of a simulation -/

/-- Where a flow is after it has been generated. -/
structure Located (total : Nat) (state : State count) : Prop where
  flowTot : state.flowTot = total
  flows :
    state.flowGen =
      state.flowFin + (state.atNow.length + state.unfinished.length)
  logged : state.flowlog.length = state.flowFin
  running : state.status = .running → state.flowFin < state.flowTot
  ended : state.status = .finished → state.flowTot ≤ state.flowFin

/-- The groups that are not started. -/
def unstarted (state : State count) : Finset (Fin count) :=
  Finset.univ.filter fun g => state.started g = false

/-- The events to come: those of flows, and those that generate none. -/
def remaining (state : State count) : Nat :=
  2 * (unstarted state).card + 4 * (state.flowTot - state.flowGen) +
    state.scheduled.length + 2 * state.atNow.length +
    state.unfinished.length

section Steps

variable {total : Nat} {state result : State count}

theorem Located.of_eq
    (located : Located total state)
    (flowTot : result.flowTot = state.flowTot)
    (flowFin : result.flowFin = state.flowFin)
    (flowlog : result.flowlog = state.flowlog)
    (status : result.status = state.status)
    (flows :
      result.flowGen =
        state.flowFin + (result.atNow.length + result.unfinished.length)) :
    Located total result where
  flowTot := flowTot.trans located.flowTot
  flows := by
    rw [flowFin]
    exact flows
  logged := by
    rw [flowlog, flowFin]
    exact located.logged
  running := by
    rw [status, flowTot, flowFin]
    exact located.running
  ended := by
    rw [status, flowTot, flowFin]
    exact located.ended

theorem unstarted_update
    (state : State count) {g : Fin count} (fresh : state.started g = false)
    (scheduled : List (Fin count)) :
    (unstarted
        { state with
          started := Function.update state.started g true
          scheduled := scheduled }).card + 1 =
      (unstarted state).card := by
  have erased :
      unstarted
          { state with
            started := Function.update state.started g true
            scheduled := scheduled } =
        (unstarted state).erase g := by
    ext h
    rw [unstarted, unstarted, Finset.mem_erase, Finset.mem_filter,
      Finset.mem_filter]
    by_cases same : h = g
    · subst same
      simp
    · simp [same]
  rw [erased]
  apply Finset.card_erase_add_one
  rw [unstarted, Finset.mem_filter]
  exact ⟨Finset.mem_univ g, fresh⟩

theorem next_located
    (counted : Counted state) (located : Located total state)
    {event : Event count} (stepped : next state event = some result) :
    Located total result ∧ remaining result < remaining state := by
  have flows := located.flows
  have running : state.status = .running := by
    by_contra other
    unfold next at stepped
    rw [if_neg other] at stepped
    cases stepped
  cases step_of_next stepped with
  | send now command rest pending =>
      have member : command ∈ state.atNow := by
        rw [pending]
        exact List.mem_cons_self
      rcases counted.idle command member with ⟨pair, found, _⟩
      have sends := send_sends state found rest now
      constructor
      · apply located.of_eq sends.flowTot sends.flowFin sends.flowlog
          sends.status
        rw [sends.flowGen, sends.atNow, sends.unfinished, List.length_cons,
          flows, pending, List.length_cons]
        omega
      · rw [remaining, remaining, unstarted, unstarted, sends.started,
          sends.flowTot, sends.flowGen, sends.scheduled, sends.atNow,
          sends.unfinished, pending, List.length_cons, List.length_cons]
        omega
  | initSchedule g quiet fresh =>
      constructor
      · exact located.of_eq rfl rfl rfl rfl flows
      · have fewer := unstarted_update state fresh (g :: state.scheduled)
        rw [remaining, remaining]
        dsimp only
        rw [List.length_cons]
        omega
  | schedule g size quiet member =>
      have erased := List.length_erase_add_one member
      by_cases left : state.flowGen < state.flowTot
      · have generates :=
          schedule_generates
            (counted.plan state.started (state.scheduled.erase g)) quiet left
            g size
        rcases generates.sends with ⟨id, sends⟩
        constructor
        · apply located.of_eq generates.flowTot generates.flowFin
            generates.flowlog generates.status
          rw [generates.flowGen, sends, generates.unfinished]
          rw [quiet] at flows
          dsimp only
          rw [flows, List.length_nil, List.length_singleton]
          omega
        · have scheduled := generates.scheduled
          rw [remaining, remaining, unstarted, unstarted, generates.started,
            generates.flowTot, generates.flowGen, sends,
            generates.unfinished, List.length_singleton]
          dsimp only at scheduled ⊢
          omega
      · rw [schedule, if_pos (Nat.not_lt.mp left)]
        constructor
        · exact located.of_eq rfl rfl rfl rfl flows
        · rw [remaining, remaining]
          dsimp only [unstarted]
          omega
  | doneData g id now nrexmit quiet sent =>
      rcases counted.active (g, id) sent with ⟨pair, active, _⟩
      have found : (state.groups g).pairs[id]? = some pair := active
      have finishes := finNotify_finishes state found now nrexmit
      have erased := List.length_erase_add_one sent
      have before := located.running running
      constructor
      · constructor
        case flowTot => exact finishes.flowTot.trans located.flowTot
        case flows =>
          rw [finishes.flowGen, finishes.flowFin, finishes.atNow,
            finishes.unfinished, flows]
          omega
        case logged =>
          rw [finishes.flowlog, finishes.flowFin, List.length_append,
            List.length_singleton, located.logged]
        case running =>
          rw [finishes.status, finishes.flowFin, finishes.flowTot]
          split
          case isTrue => simp
          case isFalse more => exact fun _ => Nat.lt_of_not_le more
        case ended =>
          rw [finishes.status, finishes.flowFin, finishes.flowTot, running]
          split
          case isTrue last => exact fun _ => last
          case isFalse => simp
      · rw [remaining, remaining, unstarted, unstarted, finishes.started,
          finishes.flowTot, finishes.flowGen, finishes.scheduled,
          finishes.atNow, finishes.unfinished]
        omega

end Steps

/-- What a simulation keeps, with the pending calls of `schedule`. -/
structure Ongoing (total : Nat) (state : State count) : Prop where
  counted : Counted state
  scheduled : Scheduled state
  located : Located total state

/-- All flows have been generated, sent, finished and logged. -/
structure Complete (total : Nat) (state : State count) : Prop where
  status : state.status = .finished
  flowGen : state.flowGen = total
  flowFin : state.flowFin = total
  logged : state.flowlog.length = total
  atNow : state.atNow = []
  unfinished : state.unfinished = []

/-- As long as the simulation runs, an event is to come. -/
theorem not_stuck_of_running
    {total : Nat} {state : State count} (ongoing : Ongoing total state)
    (g : Fin count) (running : state.status = .running) :
    ¬ Stuck next state := by
  intro stuck
  have flows := ongoing.located.flows
  have before := ongoing.located.running running
  cases pending : state.atNow with
  | cons command rest =>
      have blocked := stuck (.send 0)
      unfold next at blocked
      rw [if_pos running, pending] at blocked
      cases blocked
  | nil =>
      cases sent : state.unfinished with
      | cons send rest =>
          have blocked := stuck (.doneData send.1 send.2 0 0)
          have member : (send.1, send.2) ∈ state.unfinished := by
            rw [sent]
            exact List.mem_cons_self
          unfold next at blocked
          rw [if_pos running, pending] at blocked
          dsimp only at blocked
          rw [if_pos member] at blocked
          cases blocked
      | nil =>
          -- Flows are left, so the group is started or has a call pending.
          rw [pending, sent] at flows
          dsimp only [List.length_nil] at flows
          have left : state.flowGen < state.flowTot := by omega
          have calls := ongoing.scheduled left g
          cases started : state.started g with
          | false =>
              have blocked := stuck (.initSchedule g)
              unfold next at blocked
              rw [if_pos running, pending] at blocked
              dsimp only at blocked
              rw [started] at blocked
              cases blocked
          | true =>
              rw [started, if_pos rfl] at calls
              have member : g ∈ state.scheduled := by
                rw [← List.count_pos_iff, calls]
                exact Nat.one_pos
              have blocked := stuck (.schedule g 0)
              unfold next at blocked
              rw [if_pos running, pending] at blocked
              dsimp only at blocked
              rw [if_pos member] at blocked
              cases blocked

theorem Ongoing.complete
    {total : Nat} {state : State count} (ongoing : Ongoing total state)
    (g : Fin count) (stuck : Stuck next state) : Complete total state := by
  have status : state.status = .finished := by
    cases reached : state.status with
    | running =>
        exact absurd stuck (not_stuck_of_running ongoing g reached)
    | finished => rfl
    | error => exact absurd reached ongoing.counted.noError
  have located := ongoing.located
  have flows := located.flows
  have ended := located.ended status
  have generated := ongoing.counted.generated
  have total := located.flowTot
  constructor
  case status => exact status
  case flowGen => omega
  case flowFin => omega
  case logged =>
    rw [located.logged]
    omega
  case atNow => exact List.eq_nil_of_length_eq_zero (by omega)
  case unfinished => exact List.eq_nil_of_length_eq_zero (by omega)

/-- In whatever order the events happen, the simulation finishes. -/
theorem simulation_settles
    (flowTot : Nat) (nr : Fin count → Nat) (groups : 0 < count)
    (flows : 0 < flowTot) :
    Settles next (Complete flowTot) (start flowTot nr) := by
  have fresh := (start_fresh flowTot nr).1
  have unlogged := start_unlogged flowTot nr
  have initial : Ongoing flowTot (start flowTot nr) := by
    constructor
    case counted => exact fresh.counted
    case scheduled => exact fresh.plan
    case located =>
      constructor
      case flowTot => exact unlogged.flowTot
      case flows =>
        rw [fresh.flowGen, fresh.flowFin, fresh.atNow, fresh.unfinished]
        rfl
      case logged =>
        rw [unlogged.flowlog, fresh.flowFin]
        rfl
      case running =>
        rw [fresh.flowFin, unlogged.flowTot]
        exact fun _ => flows
      case ended =>
        rw [fresh.status]
        intro impossible
        cases impossible
  apply settles_of_measure _ _ initial
  · exact remaining
  · intro state event result ongoing stepped
    rcases next_located ongoing.counted ongoing.located stepped with
      ⟨located, decreases⟩
    refine ⟨?_, decreases⟩
    exact
      { counted := next_counted ongoing.counted stepped
        scheduled := next_scheduled ongoing.counted ongoing.scheduled stepped
        located := located }
  · intro state ongoing stuck
    exact ongoing.complete ⟨0, groups⟩ stuck

theorem simulation_settles_threeFlows :
    Settles next (Complete 3) (start 3 fun _ : Fin 2 => 1) :=
  simulation_settles 3 (fun _ => 1) Nat.two_pos (Nat.succ_pos 2)

end CodingExamples.TrafficGenNs2.Flows
