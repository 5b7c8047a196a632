import CodingExamples.Library.Execution
import CodingExamples.TrafficGenNs2.Generator

/-!
# The counters of the traffic generator

`nr_busy_pairs` counts a flow from `schedule` on, `is_busy` only from its
`send` on; both are taken back on the way through the two `fin_notify`.
`Counted` says how the counters, the flags and the pending events belong
together.  Every event preserves it, in every order of events.
-/

namespace CodingExamples.TrafficGenNs2.Counters

open CodingExamples.Library.Execution
open CodingExamples.TrafficGenNs2.Generator

variable {count : Nat}

/-- The connections of a group with `is_busy = 1`. -/
def busyPairs (group : Group) : Nat :=
  group.pairs.countP fun pair => pair.isBusy

/-- The sends of a group that have not run yet. -/
def pendingSends (state : State count) (g : Fin count) : Nat :=
  state.atNow.countP fun command => command.group = g

/-- The connection exists, with that value of `is_busy`. -/
def PairIs (state : State count) (g : Fin count) (id : Nat)
    (isBusy : Bool) : Prop :=
  ∃ pair, (state.groups g).pairs[id]? = some pair ∧ pair.isBusy = isBusy

/-- Flags, counters and pending events belong together. -/
structure Counted (state : State count) : Prop where
  sized : ∀ g, (state.groups g).pairs.length = (state.groups g).nrPairs
  busy :
    ∀ g, (state.groups g).nrBusyPairs =
      (busyPairs (state.groups g) + pendingSends state g : Nat)
  single : state.atNow.length ≤ 1
  idle :
    ∀ command ∈ state.atNow, PairIs state command.group command.id false
  active : ∀ send ∈ state.unfinished, PairIs state send.1 send.2 true
  nodup : state.unfinished.Nodup
  total :
    ∑ g, (state.groups g).nrBusyPairs = state.flowGen - state.flowFin
  generated : state.flowGen ≤ state.flowTot
  noError : state.status ≠ .error

/-! ## One group at a time -/

theorem setGroup_groups_self
    (state : State count) (g : Fin count) (group : Group) :
    (state.setGroup g group).groups g = group := by
  show Function.update state.groups g group g = group
  rw [Function.update_self]

theorem setGroup_groups_of_ne
    (state : State count) {g h : Fin count} (other : h ≠ g) (group : Group) :
    (state.setGroup g group).groups h = state.groups h := by
  show Function.update state.groups g group h = state.groups h
  rw [Function.update_of_ne other]

/-- What holds of the new group and of all old ones holds of every group. -/
theorem setGroup_forall
    (property : Fin count → Group → Prop) {state : State count}
    {g : Fin count} {group : Group} (changed : property g group)
    (others : ∀ h, property h (state.groups h)) (h : Fin count) :
    property h ((state.setGroup g group).groups h) := by
  by_cases equal : h = g
  · subst equal
    rwa [setGroup_groups_self]
  · rw [setGroup_groups_of_ne state equal]
    exact others h

/-- The busy counters of the other groups do not change. -/
theorem sum_setGroup
    (state : State count) (g : Fin count) (group : Group) :
    ∑ h, ((state.setGroup g group).groups h).nrBusyPairs =
      ∑ h, (state.groups h).nrBusyPairs +
        (group.nrBusyPairs - (state.groups g).nrBusyPairs) := by
  have split (groups : Fin count → Group) :
      ∑ h, (groups h).nrBusyPairs =
        (groups g).nrBusyPairs +
          ∑ h ∈ Finset.univ.erase g, (groups h).nrBusyPairs :=
    (Finset.add_sum_erase _ _ (Finset.mem_univ g)).symm
  have rest :
      ∑ h ∈ Finset.univ.erase g,
          ((state.setGroup g group).groups h).nrBusyPairs =
        ∑ h ∈ Finset.univ.erase g, (state.groups h).nrBusyPairs := by
    apply Finset.sum_congr rfl
    intro h member
    rw [setGroup_groups_of_ne state (Finset.ne_of_mem_erase member)]
  rw [split (state.setGroup g group).groups, split state.groups, rest,
    setGroup_groups_self]
  ring

/-- Replacing one connection by one with another flag. -/
theorem busyPairs_set
    {group : Group} {id : Nat} {old : Pair}
    (found : group.pairs[id]? = some old) (new : Pair) :
    busyPairs { group with pairs := group.pairs.set id new } +
        (if old.isBusy then 1 else 0) =
      busyPairs group + (if new.isBusy then 1 else 0) := by
  rcases List.getElem?_eq_some_iff.mp found with ⟨inside, rfl⟩
  have positive (busy : group.pairs[id].isBusy) :
      0 < group.pairs.countP fun pair => pair.isBusy := by
    rw [List.countP_pos_iff]
    exact ⟨_, List.getElem_mem inside, busy⟩
  rw [busyPairs, busyPairs, List.countP_set inside]
  by_cases busy : group.pairs[id].isBusy
  · have atLeastOne := positive busy
    simp only [busy, if_true]
    omega
  · simp only [busy]
    simp

/-- A connection that the new group has kept. -/
theorem PairIs.setGroup
    {state : State count} {g h : Fin count} {id : Nat} {isBusy : Bool}
    (pairIs : PairIs state h id isBusy) {group : Group}
    (kept :
      h = g → ∀ pair, (state.groups g).pairs[id]? = some pair →
        group.pairs[id]? = some pair) :
    PairIs (state.setGroup g group) h id isBusy := by
  rcases pairIs with ⟨pair, found, flag⟩
  refine ⟨pair, ?_, flag⟩
  by_cases equal : h = g
  · subst equal
    rw [setGroup_groups_self]
    exact kept rfl pair found
  · rw [setGroup_groups_of_ne state equal]
    exact found

/--
A group was changed, and with it the pending events and the numbers of flows;
its counters still fit, and the busy counter has changed as they have.
-/
theorem Counted.setGroup
    {state result : State count} (counted : Counted state)
    {g : Fin count} {group : Group}
    (groups : result.groups = (state.setGroup g group).groups)
    (sized : group.pairs.length = group.nrPairs)
    (busy :
      group.nrBusyPairs = (busyPairs group + pendingSends result g : Nat))
    (others :
      ∀ h, h ≠ g → pendingSends result h = pendingSends state h)
    (single : result.atNow.length ≤ 1)
    (idle :
      ∀ command ∈ result.atNow,
        PairIs result command.group command.id false)
    (active :
      ∀ send ∈ result.unfinished, PairIs result send.1 send.2 true)
    (nodup : result.unfinished.Nodup)
    (total :
      (result.flowGen : Int) - result.flowFin =
        state.flowGen - state.flowFin +
          (group.nrBusyPairs - (state.groups g).nrBusyPairs))
    (generated : result.flowGen ≤ result.flowTot)
    (noError : result.status ≠ .error) :
    Counted result where
  sized := by
    rw [groups]
    apply setGroup_forall fun _ group => group.pairs.length = group.nrPairs
    · exact sized
    · exact counted.sized
  busy := by
    intro h
    rw [groups]
    by_cases equal : h = g
    · subst equal
      rw [setGroup_groups_self]
      exact busy
    · rw [setGroup_groups_of_ne state equal, others h equal]
      exact counted.busy h
  single := single
  idle := idle
  active := active
  nodup := nodup
  total := by
    rw [groups, sum_setGroup, counted.total, total]
  generated := generated
  noError := noError

/-! ## Creating a connection -/

theorem addPair_counted
    {state : State count} (counted : Counted state) (g : Fin count) :
    Counted (addPair state g) := by
  have kept {h : Fin count} {id : Nat} {isBusy : Bool}
      (pairIs : PairIs state h id isBusy) :
      PairIs (addPair state g) h id isBusy := by
    apply pairIs.setGroup
    intro _ pair found
    rw [List.getElem?_append_left (List.getElem?_eq_some_iff.mp found).1]
    exact found
  refine counted.setGroup rfl ?sized ?busy ?others ?single ?idle ?active
    ?nodup ?total ?generated ?noError
  case sized =>
    rw [List.length_append, List.length_singleton, counted.sized g]
  case busy =>
    rw [busyPairs, List.countP_append]
    exact counted.busy g
  case others => exact fun _ _ => rfl
  case single => exact counted.single
  case idle =>
    intro command member
    exact kept (counted.idle command member)
  case active =>
    intro send member
    exact kept (counted.active send member)
  case nodup => exact counted.nodup
  case total => exact (add_eq_left.mpr (sub_self _)).symm
  case generated => exact counted.generated
  case noError => exact counted.noError

/-- The new connection is the last one, and idle. -/
theorem addPair_idle
    {state : State count} (counted : Counted state) (g : Fin count) :
    PairIs (addPair state g) g
      (((addPair state g).groups g).nrPairs - 1) false := by
  have group :
      (addPair state g).groups g =
        { state.groups g with
          pairs :=
            (state.groups g).pairs ++
              [newPair (state.groups g).nrPairs state.initFid]
          nrPairs := (state.groups g).nrPairs + 1 } :=
    setGroup_groups_self state g _
  refine
    ⟨newPair (state.groups g).nrPairs state.initFid, ?_, rfl⟩
  rw [group, Nat.add_sub_cancel, ← counted.sized g]
  exact List.getElem?_concat_length

/-! ## Starting a flow -/

theorem startFlow_counted
    {state : State count} (counted : Counted state)
    (quiet : state.atNow = []) (left : state.flowGen < state.flowTot)
    {g : Fin count} {id : Nat} (idle : PairIs state g id false)
    (nbytes : Nat) :
    Counted (startFlow state g id nbytes) := by
  have kept {h : Fin count} {other : Nat} {isBusy : Bool}
      {busy : Int} (pairIs : PairIs state h other isBusy) :
      PairIs
        (state.setGroup g { state.groups g with nrBusyPairs := busy })
        h other isBusy := by
    apply pairIs.setGroup
    intro _ pair found
    exact found
  rw [startFlow, if_pos left]
  refine counted.setGroup rfl ?sized ?busy ?others ?single ?idle ?active
    ?nodup ?total ?generated ?noError
  case sized => exact counted.sized g
  case busy =>
    have busy := counted.busy g
    rw [pendingSends, quiet, List.countP_nil] at busy
    show (state.groups g).nrBusyPairs + 1 =
      (busyPairs (state.groups g) +
        List.countP _ (state.atNow ++ [⟨g, id, nbytes⟩]) : Nat)
    rw [quiet, List.nil_append, List.countP_singleton,
      if_pos (decide_eq_true rfl), busy]
    rfl
  case others =>
    intro h different
    show List.countP _ (state.atNow ++ [⟨g, id, nbytes⟩]) = _
    rw [List.countP_append, List.countP_singleton,
      if_neg (by simpa using Ne.symm different)]
    rfl
  case single =>
    show (state.atNow ++ [_]).length ≤ 1
    rw [quiet]
    exact le_rfl
  case idle =>
    intro command member
    have same : command = ⟨g, id, nbytes⟩ := by
      have : command ∈ state.atNow ++ [⟨g, id, nbytes⟩] := member
      rwa [quiet, List.nil_append, List.mem_singleton] at this
    subst same
    exact kept idle
  case active =>
    intro send member
    exact kept (counted.active send member)
  case nodup => exact counted.nodup
  case total =>
    show ((state.flowGen + 1 : Nat) : Int) - state.flowFin = _
    push_cast
    ring
  case generated => exact left
  case noError => exact counted.noError

/-! ## Searching for an idle connection -/

/-- The search succeeds when one connection at least is not busy. -/
theorem exists_findIdle
    {group : Group} (notAll : busyPairs group < group.pairs.length) :
    ∃ id, findIdle group = some id := by
  rw [busyPairs] at notAll
  cases found : findIdle group with
  | some id => exact ⟨id, rfl⟩
  | none =>
      rw [findIdle, List.findIdx?_eq_none_iff] at found
      have all :
          group.pairs.countP (fun pair => pair.isBusy) =
            group.pairs.length := by
        rw [List.countP_eq_length]
        intro pair member
        simpa using found pair member
      omega

theorem findIdle_idle
    {state : State count} {g : Fin count} {id : Nat}
    (found : findIdle (state.groups g) = some id) :
    PairIs state g id false := by
  rw [findIdle, List.findIdx?_eq_some_iff_getElem] at found
  rcases found with ⟨inside, idle, -⟩
  refine ⟨(state.groups g).pairs[id], List.getElem?_eq_getElem inside, ?_⟩
  simpa using idle

/-- When the counter differs from the number of connections, one is idle. -/
theorem exists_findIdle_of_ne
    {state : State count} (counted : Counted state)
    (quiet : state.atNow = []) {g : Fin count}
    (notAll : (state.groups g).nrBusyPairs ≠ (state.groups g).nrPairs) :
    ∃ id, findIdle (state.groups g) = some id := by
  apply exists_findIdle
  have busy := counted.busy g
  rw [pendingSends, quiet, List.countP_nil, Nat.add_zero] at busy
  have most :
      busyPairs (state.groups g) ≤ (state.groups g).pairs.length :=
    List.countP_le_length
  have sized := counted.sized g
  omega

theorem generate_counted
    {state : State count} (counted : Counted state)
    (quiet : state.atNow = []) (left : state.flowGen < state.flowTot)
    (g : Fin count) (size : Nat) :
    Counted (generate state g size) := by
  rw [generate]
  by_cases full :
      (state.groups g).nrBusyPairs = (state.groups g).nrPairs
  · rw [if_pos full]
    exact
      startFlow_counted (addPair_counted counted g) quiet left
        (addPair_idle counted g) _
  · rw [if_neg full]
    rcases exists_findIdle_of_ne counted quiet full with ⟨id, found⟩
    rw [found]
    exact startFlow_counted counted quiet left (findIdle_idle found) _

/-! ## Sending and finishing -/

/-- A connection that the replacement of another one has kept. -/
theorem PairIs.set
    {state : State count} {g h : Fin count} {id other : Nat} {isBusy : Bool}
    (pairIs : PairIs state h other isBusy) (group : Group) (new : Pair)
    (current : group.pairs = (state.groups g).pairs.set id new)
    (different : (h, other) ≠ (g, id)) :
    PairIs (state.setGroup g group) h other isBusy := by
  apply pairIs.setGroup
  intro same pair found
  have apart : id ≠ other := by
    intro equal
    apply different
    rw [same, equal]
  rw [current, List.getElem?_set_ne apart]
  exact found

/-- A connection that has just been replaced. -/
theorem pairIs_set_self
    {state : State count} {g : Fin count} {id : Nat} {old new : Pair}
    (found : (state.groups g).pairs[id]? = some old) (group : Group)
    (current : group.pairs = (state.groups g).pairs.set id new) :
    PairIs (state.setGroup g group) g id new.isBusy := by
  refine ⟨new, ?_, rfl⟩
  rw [setGroup_groups_self, current]
  exact List.getElem?_set_self (List.getElem?_eq_some_iff.mp found).1

/-- The only send that is pending turns `is_busy` on. -/
theorem send_counted
    {state : State count} (counted : Counted state)
    {command : Send count} (pending : state.atNow = [command])
    (now : Int) :
    Counted (send { state with atNow := [] } command now) := by
  have member : command ∈ state.atNow := by
    rw [pending]
    exact List.mem_singleton_self command
  rcases counted.idle command member with ⟨pair, found, idle⟩
  have notSent : (command.group, command.id) ∉ state.unfinished := by
    intro sent
    rcases counted.active _ sent with ⟨active, foundAgain, busy⟩
    rw [found] at foundAgain
    cases foundAgain
    rw [idle] at busy
    cases busy
  rw [send, found]
  refine counted.setGroup rfl ?sized ?busy ?others ?single ?idle ?active
    ?nodup ?total ?generated ?noError
  case sized =>
    rw [← counted.sized command.group]
    exact List.length_set
  case busy =>
    have busy := counted.busy command.group
    rw [pendingSends, pending, List.countP_singleton,
      if_pos (decide_eq_true rfl)] at busy
    have flags :=
      busyPairs_set found
        { pair with
          isBusy := true
          startTime := now
          bytes := command.bytes }
    rw [idle, if_neg Bool.false_ne_true, if_pos rfl, Nat.add_zero] at flags
    rw [flags]
    exact busy
  case others =>
    intro h different
    show 0 = pendingSends state h
    rw [pendingSends, pending, List.countP_singleton,
      if_neg (by simpa using Ne.symm different)]
  case single => exact Nat.zero_le 1
  case idle =>
    intro other inside
    cases inside
  case active =>
    intro sent inside
    rcases List.mem_cons.mp inside with equal | before
    · rw [equal]
      exact
        pairIs_set_self found
          { state.groups command.group with
            pairs :=
              (state.groups command.group).pairs.set command.id
                { pair with
                  isBusy := true
                  startTime := now
                  bytes := command.bytes } }
          rfl
    · apply (counted.active sent before).set _ _ rfl
      intro same
      exact notSent (same ▸ before)
  case nodup => exact List.nodup_cons.mpr ⟨notSent, counted.nodup⟩
  case total => exact (add_eq_left.mpr (sub_self _)).symm
  case generated => exact counted.generated
  case noError => exact counted.noError

/-- The log line of a flow, and the end of the simulation. -/
theorem groupFinNotify_counted
    {state : State count} {g : Fin count} {bytes : Nat} {fct timeouts : Int}
    (counted :
      Counted
        { state.setGroup g
            { state.groups g with
              nrBusyPairs := (state.groups g).nrBusyPairs - 1 } with
          flowFin := state.flowFin + 1 }) :
    Counted (groupFinNotify state g bytes fct timeouts) := by
  rw [groupFinNotify]
  split
  · exact
      { sized := counted.sized
        busy := counted.busy
        single := counted.single
        idle := counted.idle
        active := counted.active
        nodup := counted.nodup
        total := counted.total
        generated := counted.generated
        noError := by
          intro impossible
          cases impossible }
  · exact
      { sized := counted.sized
        busy := counted.busy
        single := counted.single
        idle := counted.idle
        active := counted.active
        nodup := counted.nodup
        total := counted.total
        generated := counted.generated
        noError := counted.noError }

theorem setGroup_setGroup
    (state : State count) (g : Fin count) (first second : Group) :
    (state.setGroup g first).setGroup g second = state.setGroup g second := by
  rw [State.setGroup, State.setGroup, State.setGroup]
  rw [Function.update_idem]

/-- The two `fin_notify` take a flow back, in the flag and in the counter. -/
theorem finNotify_counted
    {state : State count} (counted : Counted state)
    (quiet : state.atNow = []) {g : Fin count} {id : Nat}
    (sent : (g, id) ∈ state.unfinished) (now nrexmit : Int) :
    Counted
      (finNotify { state with unfinished := state.unfinished.erase (g, id) }
        g id now nrexmit) := by
  have active : PairIs state g id true := counted.active (g, id) sent
  rcases active with ⟨pair, found, wasBusy⟩
  rw [finNotify, found]
  apply groupFinNotify_counted
  have groups :
      (({ state with
          unfinished := state.unfinished.erase (g, id) }.setGroup g
            { state.groups g with
              pairs :=
                (state.groups g).pairs.set id
                  { pair with
                    isBusy := false
                    fct := now - pair.startTime
                    timeouts := nrexmit } }).groups g) = _ :=
    setGroup_groups_self _ g _
  dsimp only at groups ⊢
  rw [groups, setGroup_setGroup]
  refine counted.setGroup rfl ?sized ?busy ?others ?single ?idle ?active
    ?nodup ?total ?generated ?noError
  case sized =>
    rw [← counted.sized g]
    exact List.length_set
  case busy =>
    have busy := counted.busy g
    have flags :=
      busyPairs_set found
        { pair with
          isBusy := false
          fct := now - pair.startTime
          timeouts := nrexmit }
    rw [wasBusy, if_pos rfl, if_neg Bool.false_ne_true] at flags
    show (state.groups g).nrBusyPairs - 1 = _
    rw [busy, ← Nat.add_zero (busyPairs (state.groups g)), ← flags]
    push_cast
    rw [add_right_comm, add_sub_cancel_right]
    rfl
  case others => exact fun _ _ => rfl
  case single => exact counted.single
  case idle =>
    intro command inside
    have pending : command ∈ state.atNow := inside
    rw [quiet] at pending
    cases pending
  case active =>
    intro other inside
    apply
      (counted.active other (List.mem_of_mem_erase inside)).set
        { pairs := (state.groups g).pairs.set id _
          nrPairs := (state.groups g).nrPairs
          nrBusyPairs := (state.groups g).nrBusyPairs - 1 }
        _ rfl
    intro same
    exact counted.nodup.not_mem_erase (same ▸ inside)
  case nodup => exact counted.nodup.erase _
  case total =>
    show (state.flowGen : Int) - ((state.flowFin + 1 : Nat) : Int) = _
    push_cast
    ring
  case generated => exact counted.generated
  case noError => exact counted.noError

/-! ## The events -/

/-- What each event requires and does. -/
inductive Step (state : State count) : Event count → State count → Prop where
  | send (now : Int) (command : Send count) (rest : List (Send count))
      (pending : state.atNow = command :: rest) :
      Step state (.send now)
        (send { state with atNow := rest } command now)
  | initSchedule (g : Fin count) (quiet : state.atNow = [])
      (fresh : state.started g = false) :
      Step state (.initSchedule g)
        { state with
          started := Function.update state.started g true
          scheduled := g :: state.scheduled }
  | schedule (g : Fin count) (size : Nat) (quiet : state.atNow = [])
      (member : g ∈ state.scheduled) :
      Step state (.schedule g size)
        (schedule { state with scheduled := state.scheduled.erase g }
          g size)
  | doneData (g : Fin count) (id : Nat) (now nrexmit : Int)
      (quiet : state.atNow = []) (sent : (g, id) ∈ state.unfinished) :
      Step state (.doneData g id now nrexmit)
        (finNotify
          { state with unfinished := state.unfinished.erase (g, id) }
          g id now nrexmit)

theorem step_of_next
    {state result : State count} {event : Event count}
    (stepped : next state event = some result) :
    Step state event result := by
  unfold next at stepped
  rw [Option.ite_none_right_eq_some] at stepped
  rcases stepped with ⟨-, stepped⟩
  split at stepped
  case h_1 now command rest pending =>
    cases stepped
    exact .send now command rest pending
  case h_2 g quiet =>
    rw [Option.ite_none_left_eq_some] at stepped
    rcases stepped with ⟨fresh, ⟨⟩⟩
    exact .initSchedule g quiet (Bool.eq_false_of_not_eq_true fresh)
  case h_3 g size quiet =>
    rw [Option.ite_none_right_eq_some] at stepped
    rcases stepped with ⟨member, ⟨⟩⟩
    exact .schedule g size quiet member
  case h_4 g id now nrexmit quiet =>
    rw [Option.ite_none_right_eq_some] at stepped
    rcases stepped with ⟨sent, ⟨⟩⟩
    exact .doneData g id now nrexmit quiet sent
  case h_5 => cases stepped

/-- The pending calls of `schedule` do not matter to the counters. -/
theorem Counted.plan
    {state : State count} (counted : Counted state)
    (started : Fin count → Bool) (scheduled : List (Fin count)) :
    Counted { state with started := started, scheduled := scheduled } where
  sized := counted.sized
  busy := counted.busy
  single := counted.single
  idle := counted.idle
  active := counted.active
  nodup := counted.nodup
  total := counted.total
  generated := counted.generated
  noError := counted.noError

theorem schedule_counted
    {state : State count} (counted : Counted state)
    (quiet : state.atNow = []) (g : Fin count) (size : Nat) :
    Counted (schedule state g size) := by
  rw [schedule]
  by_cases enough : state.flowGen ≥ state.flowTot
  · rw [if_pos enough]
    exact counted
  · rw [if_neg enough]
    have generated :=
      generate_counted counted quiet (Nat.lt_of_not_le enough) g size
    dsimp only
    rw [if_neg generated.noError, reschedule]
    split
    · exact generated.plan _ _
    · exact generated

theorem next_counted
    {state result : State count} {event : Event count}
    (counted : Counted state)
    (stepped : next state event = some result) :
    Counted result := by
  cases step_of_next stepped with
  | send now command rest pending =>
      have single := counted.single
      rw [pending, List.length_cons] at single
      have alone : rest = [] :=
        List.eq_nil_of_length_eq_zero (by omega)
      subst alone
      exact send_counted counted pending now
  | initSchedule g quiet fresh => exact counted.plan _ _
  | schedule g size quiet member =>
      exact
        schedule_counted
          (counted.plan state.started (state.scheduled.erase g)) quiet g size
  | doneData g id now nrexmit quiet sent =>
      exact finNotify_counted counted quiet sent now nrexmit

end CodingExamples.TrafficGenNs2.Counters
