import CodingExamples.TrafficGenNs2.Counters

/-!
# Runs of the traffic generator

Two more invariants, and what all three say about every state that a run can
reach: flow identifiers are used once, and while flows are left every group
that was started has one call of `schedule` pending.
-/

namespace CodingExamples.TrafficGenNs2.Runs

open CodingExamples.Library.Execution
open CodingExamples.TrafficGenNs2.Generator
open CodingExamples.TrafficGenNs2.Counters

variable {count : Nat}

/-! ## Flow identifiers -/

/-- The flow identifiers of a group. -/
def flowIds (group : Group) : List Nat :=
  group.pairs.map fun pair => pair.flowId

/-- No flow identifier is used twice, and the next one is new. -/
structure Identified (state : State count) : Prop where
  below : ∀ g, ∀ fid ∈ flowIds (state.groups g), fid < state.initFid
  nodup : ∀ g, (flowIds (state.groups g)).Nodup
  disjoint :
    ∀ g h, g ≠ h →
      (flowIds (state.groups g)).Disjoint (flowIds (state.groups h))

theorem flowIds_set
    {group : Group} {id : Nat} {old new : Pair}
    (found : group.pairs[id]? = some old) (same : new.flowId = old.flowId) :
    flowIds { group with pairs := group.pairs.set id new } =
      flowIds group := by
  rcases List.getElem?_eq_some_iff.mp found with ⟨inside, rfl⟩
  have mapped : id < (flowIds group).length := by
    rwa [flowIds, List.length_map]
  have current : (flowIds group)[id] = group.pairs[id].flowId := by
    simp [flowIds]
  rw [flowIds, List.map_set, same, ← current]
  exact List.set_getElem_self mapped

/-- The identifiers are all that matters. -/
theorem Identified.of_eq
    {state result : State count} (identified : Identified state)
    (groups : ∀ g, flowIds (result.groups g) = flowIds (state.groups g))
    (initFid : result.initFid = state.initFid) :
    Identified result where
  below := by
    intro g fid member
    rw [groups] at member
    rw [initFid]
    exact identified.below g fid member
  nodup := by
    intro g
    rw [groups]
    exact identified.nodup g
  disjoint := by
    intro g h different
    rw [groups, groups]
    exact identified.disjoint g h different

theorem setGroup_flowIds
    {state : State count} {g : Fin count} {group : Group}
    (same : flowIds group = flowIds (state.groups g)) (h : Fin count) :
    flowIds ((state.setGroup g group).groups h) =
      flowIds (state.groups h) := by
  by_cases equal : h = g
  · subst equal
    rw [setGroup_groups_self, same]
  · rw [setGroup_groups_of_ne state equal]

/-- A group that keeps its identifiers, apart from some that are new. -/
theorem Identified.setGroup
    {state result : State count} (identified : Identified state)
    {g : Fin count} {group : Group}
    (groups : result.groups = (state.setGroup g group).groups)
    (later : state.initFid ≤ result.initFid)
    (nodup : (flowIds group).Nodup)
    (new :
      ∀ fid ∈ flowIds group,
        fid ∈ flowIds (state.groups g) ∨
          state.initFid ≤ fid ∧ fid < result.initFid) :
    Identified result := by
  have apart {h : Fin count} (different : h ≠ g) :
      (flowIds group).Disjoint (flowIds (state.groups h)) := by
    intro fid changed other
    rcases new fid changed with old | ⟨fresh, -⟩
    · exact identified.disjoint g h different.symm old other
    · exact absurd (identified.below h fid other) (Nat.not_lt.mpr fresh)
  constructor
  case below =>
    rw [groups]
    apply setGroup_forall fun _ group =>
      ∀ fid ∈ flowIds group, fid < result.initFid
    · intro fid member
      rcases new fid member with old | ⟨-, below⟩
      · exact Nat.lt_of_lt_of_le (identified.below g fid old) later
      · exact below
    · intro h fid member
      exact Nat.lt_of_lt_of_le (identified.below h fid member) later
  case nodup =>
    rw [groups]
    apply setGroup_forall fun _ group => (flowIds group).Nodup
    · exact nodup
    · exact identified.nodup
  case disjoint =>
    intro h i different
    rw [groups]
    by_cases first : h = g
    · subst first
      rw [setGroup_groups_self, setGroup_groups_of_ne state different.symm]
      exact apart different.symm
    · rw [setGroup_groups_of_ne state first]
      by_cases second : i = g
      · subst second
        rw [setGroup_groups_self]
        exact (apart first).symm
      · rw [setGroup_groups_of_ne state second]
        exact identified.disjoint h i different

/-- The connections of `setup` get the next identifiers. -/
theorem setup_identified
    {state : State count} (identified : Identified state)
    (nr : Fin count → Nat) (g : Fin count) :
    Identified (setup nr state g) := by
  have ids :
      flowIds
          { pairs :=
              (List.range (nr g)).map fun i => newPair i (state.initFid + i)
            nrPairs := nr g
            nrBusyPairs := 0 } =
        (List.range (nr g)).map fun i => state.initFid + i := by
    rw [flowIds, List.map_map]
    rfl
  refine identified.setGroup rfl ?_ ?_ ?_
  · exact Nat.le_add_right _ _
  · rw [ids]
    exact List.nodup_range.map (add_right_injective state.initFid)
  · intro fid member
    rw [ids, List.mem_map] at member
    rcases member with ⟨i, inside, rfl⟩
    right
    exact
      ⟨Nat.le_add_right _ _,
        Nat.add_lt_add_left (List.mem_range.mp inside) _⟩

/-- The connection that `schedule` creates gets the next identifier. -/
theorem addPair_identified
    {state : State count} (identified : Identified state) (g : Fin count) :
    Identified (addPair state g) := by
  have ids :
      flowIds
          { state.groups g with
            pairs :=
              (state.groups g).pairs ++
                [newPair (state.groups g).nrPairs state.initFid]
            nrPairs := (state.groups g).nrPairs + 1 } =
        flowIds (state.groups g) ++ [state.initFid] :=
    List.map_append
  refine identified.setGroup rfl ?_ ?_ ?_
  · exact Nat.le_succ _
  · rw [ids]
    apply List.Nodup.append (identified.nodup g) (List.nodup_singleton _)
    rw [List.disjoint_singleton]
    intro member
    exact Nat.lt_irrefl _ (identified.below g _ member)
  · intro fid member
    rw [ids, List.mem_append, List.mem_singleton] at member
    rcases member with old | rfl
    · exact .inl old
    · exact .inr ⟨Nat.le_refl _, Nat.lt_succ_self _⟩

theorem startFlow_identified
    {state : State count} (identified : Identified state)
    (g : Fin count) (id nbytes : Nat) :
    Identified (startFlow state g id nbytes) := by
  rw [startFlow]
  split
  · exact identified.of_eq (setGroup_flowIds rfl) rfl
  · exact identified

theorem startFlowNowhere_identified
    {state : State count} (identified : Identified state) (g : Fin count) :
    Identified (startFlowNowhere state g) := by
  rw [startFlowNowhere]
  split
  · exact identified.of_eq (setGroup_flowIds rfl) rfl
  · exact identified

theorem schedule_identified
    {state : State count} (identified : Identified state)
    (g : Fin count) (size : Nat) :
    Identified (schedule state g size) := by
  have generated : Identified (generate state g size) := by
    rw [generate]
    split
    · exact startFlow_identified (addPair_identified identified g) g _ _
    · split
      · exact startFlowNowhere_identified identified g
      · exact startFlow_identified identified g _ _
  rw [schedule]
  split
  · exact identified
  · dsimp only
    rw [reschedule]
    split
    · exact generated
    · split
      · exact generated.of_eq (fun _ => rfl) rfl
      · exact generated

theorem send_identified
    {state : State count} (identified : Identified state)
    (command : Send count) (now : Int) :
    Identified (send state command now) := by
  rw [send]
  split
  case h_1 missing => exact identified.of_eq (fun _ => rfl) rfl
  case h_2 pair found =>
    exact
      identified.of_eq (setGroup_flowIds (flowIds_set found rfl)) rfl

theorem groupFinNotify_identified
    {state : State count} (identified : Identified state)
    (g : Fin count) (bytes : Nat) (fct timeouts : Int) :
    Identified (groupFinNotify state g bytes fct timeouts) := by
  rw [groupFinNotify]
  split
  · exact identified.of_eq (setGroup_flowIds rfl) rfl
  · exact identified.of_eq (setGroup_flowIds rfl) rfl

theorem finNotify_identified
    {state : State count} (identified : Identified state)
    (g : Fin count) (id : Nat) (now nrexmit : Int) :
    Identified (finNotify state g id now nrexmit) := by
  rw [finNotify]
  split
  case h_1 missing => exact identified.of_eq (fun _ => rfl) rfl
  case h_2 pair found =>
    apply groupFinNotify_identified
    exact
      identified.of_eq (setGroup_flowIds (flowIds_set found rfl)) rfl

theorem next_identified
    {state result : State count} {event : Event count}
    (identified : Identified state)
    (stepped : next state event = some result) :
    Identified result := by
  cases step_of_next stepped with
  | send now command rest pending =>
      apply send_identified
      exact identified.of_eq (fun _ => rfl) rfl
  | initSchedule g quiet fresh => exact identified.of_eq (fun _ => rfl) rfl
  | schedule g size quiet member =>
      apply schedule_identified
      exact identified.of_eq (fun _ => rfl) rfl
  | doneData g id now nrexmit quiet sent =>
      apply finNotify_identified
      exact identified.of_eq (fun _ => rfl) rfl

/-! ## Pending calls of `schedule` -/

/-- While flows are left, each group that was started will generate one. -/
def Scheduled (state : State count) : Prop :=
  state.flowGen < state.flowTot →
    ∀ g, state.scheduled.count g = if state.started g then 1 else 0

/-- The variables that say which calls of `schedule` are to come. -/
def plan (state : State count) :
    Nat × Nat × (Fin count → Bool) × List (Fin count) :=
  (state.flowTot, state.flowGen, state.started, state.scheduled)

theorem Scheduled.of_plan
    {state result : State count} (scheduled : Scheduled state)
    (same : plan result = plan state) : Scheduled result := by
  simp only [plan, Prod.mk.injEq] at same
  rcases same with ⟨flowTot, flowGen, started, pending⟩
  rw [Scheduled, flowTot, flowGen, started, pending]
  exact scheduled

theorem send_plan
    (state : State count) (command : Send count) (now : Int) :
    plan (send state command now) = plan state := by
  rw [send]
  split <;> rfl

theorem groupFinNotify_plan
    (state : State count) (g : Fin count) (bytes : Nat)
    (fct timeouts : Int) :
    plan (groupFinNotify state g bytes fct timeouts) = plan state := by
  rw [groupFinNotify]
  split <;> rfl

theorem finNotify_plan
    (state : State count) (g : Fin count) (id : Nat) (now nrexmit : Int) :
    plan (finNotify state g id now nrexmit) = plan state := by
  rw [finNotify]
  split
  · rfl
  · exact groupFinNotify_plan _ g _ _ _

/-- Generating a flow leaves the pending calls as they are. -/
theorem generate_plan
    (state : State count) (g : Fin count) (size : Nat) :
    (generate state g size).started = state.started ∧
      (generate state g size).scheduled = state.scheduled := by
  rw [generate]
  split
  · rw [startFlow]
    split <;> exact ⟨rfl, rfl⟩
  · split
    · rw [startFlowNowhere]
      split <;> exact ⟨rfl, rfl⟩
    · rw [startFlow]
      split <;> exact ⟨rfl, rfl⟩

/-- The call that ran is replaced by another one if flows are left. -/
theorem schedule_scheduled
    {state : State count} (counted : Counted state)
    (scheduled : Scheduled state) (quiet : state.atNow = [])
    {g : Fin count} (member : g ∈ state.scheduled) (size : Nat) :
    Scheduled
      (schedule { state with scheduled := state.scheduled.erase g }
        g size) := by
  rw [schedule]
  by_cases enough : state.flowGen ≥ state.flowTot
  · rw [if_pos enough]
    intro left
    exact absurd left (Nat.not_lt.mpr enough)
  · rw [if_neg enough]
    have left : state.flowGen < state.flowTot := Nat.lt_of_not_le enough
    have generated :=
      generate_counted
        (counted.plan state.started (state.scheduled.erase g)) quiet left
        g size
    have unchanged :=
      generate_plan { state with scheduled := state.scheduled.erase g }
        g size
    dsimp only
    rw [if_neg generated.noError, reschedule]
    split
    case isTrue more =>
      intro _ h
      show List.count h (g :: _) = if State.started _ h then 1 else 0
      rw [unchanged.1, unchanged.2, ← scheduled left h]
      exact (List.perm_cons_erase member).symm.count_eq h
    case isFalse last =>
      intro more
      exact absurd more last

theorem next_scheduled
    {state result : State count} {event : Event count}
    (counted : Counted state) (scheduled : Scheduled state)
    (stepped : next state event = some result) :
    Scheduled result := by
  cases step_of_next stepped with
  | send now command rest pending =>
      exact scheduled.of_plan (send_plan _ command now)
  | initSchedule g quiet fresh =>
      intro left h
      have before := scheduled left h
      show List.count h (g :: state.scheduled) =
        if Function.update state.started g true h then 1 else 0
      by_cases equal : h = g
      · subst equal
        rw [fresh] at before
        rw [List.count_cons_self, before, Function.update_self]
        rfl
      · rw [List.count_cons_of_ne (Ne.symm equal), before,
          Function.update_of_ne equal]
  | schedule g size quiet member =>
      exact schedule_scheduled counted scheduled quiet member size
  | doneData g id now nrexmit quiet sent =>
      exact scheduled.of_plan (finNotify_plan _ g id now nrexmit)

/-! ## The start -/

/-- Nothing has been generated, and no connection is busy. -/
structure Fresh (state : State count) : Prop where
  sized : ∀ g, (state.groups g).pairs.length = (state.groups g).nrPairs
  idle : ∀ g, ∀ pair ∈ (state.groups g).pairs, pair.isBusy = false
  zero : ∀ g, (state.groups g).nrBusyPairs = 0
  flowGen : state.flowGen = 0
  flowFin : state.flowFin = 0
  started : ∀ g, state.started g = false
  scheduled : state.scheduled = []
  atNow : state.atNow = []
  unfinished : state.unfinished = []
  status : state.status = .running

theorem setup_fresh
    {state : State count} (fresh : Fresh state) (nr : Fin count → Nat)
    (g : Fin count) :
    Fresh (setup nr state g) where
  sized := by
    apply setGroup_forall fun _ group => group.pairs.length = group.nrPairs
    · rw [List.length_map, List.length_range]
    · exact fresh.sized
  idle := by
    apply setGroup_forall fun _ group =>
      ∀ pair ∈ group.pairs, pair.isBusy = false
    · intro pair member
      rcases List.mem_map.mp member with ⟨i, -, rfl⟩
      rfl
    · exact fresh.idle
  zero := by
    apply setGroup_forall fun _ group => group.nrBusyPairs = 0
    · rfl
    · exact fresh.zero
  flowGen := fresh.flowGen
  flowFin := fresh.flowFin
  started := fresh.started
  scheduled := fresh.scheduled
  atNow := fresh.atNow
  unfinished := fresh.unfinished
  status := fresh.status

theorem Fresh.counted {state : State count} (fresh : Fresh state) :
    Counted state where
  sized := fresh.sized
  busy := by
    intro g
    have flags : busyPairs (state.groups g) = 0 := by
      rw [busyPairs, List.countP_eq_zero]
      intro pair member
      rw [fresh.idle g pair member]
      exact Bool.false_ne_true
    rw [fresh.zero, flags, pendingSends, fresh.atNow]
    rfl
  single := by
    rw [fresh.atNow]
    exact Nat.zero_le 1
  idle := by
    intro command member
    rw [fresh.atNow] at member
    cases member
  active := by
    intro send member
    rw [fresh.unfinished] at member
    cases member
  nodup := by
    rw [fresh.unfinished]
    exact List.nodup_nil
  total := by
    rw [fresh.flowGen, fresh.flowFin]
    exact Finset.sum_eq_zero fun g _ => fresh.zero g
  generated := by
    rw [fresh.flowGen]
    exact Nat.zero_le _
  noError := by
    rw [fresh.status]
    intro impossible
    cases impossible

theorem Fresh.plan {state : State count} (fresh : Fresh state) :
    Scheduled state := by
  intro _ g
  rw [fresh.scheduled, fresh.started g]
  rfl

/-- After `setup` of all groups. -/
theorem start_fresh (flowTot : Nat) (nr : Fin count → Nat) :
    Fresh (start flowTot nr) ∧ Identified (start flowTot nr) := by
  have setups (groups : List (Fin count)) (state : State count)
      (fresh : Fresh state) (identified : Identified state) :
      Fresh (groups.foldl (setup nr) state) ∧
        Identified (groups.foldl (setup nr) state) := by
    induction groups generalizing state with
    | nil => exact ⟨fresh, identified⟩
    | cons g rest ih =>
        exact
          ih (setup nr state g) (setup_fresh fresh nr g)
            (setup_identified identified nr g)
  apply setups
  · constructor
    case sized => exact fun _ => rfl
    case idle =>
      intro g pair member
      cases member
    case zero => exact fun _ => rfl
    case flowGen => rfl
    case flowFin => rfl
    case started => exact fun _ => rfl
    case scheduled => rfl
    case atNow => rfl
    case unfinished => rfl
    case status => rfl
  · constructor
    case below =>
      intro g fid member
      cases member
    case nodup => exact fun _ => List.nodup_nil
    case disjoint => exact fun _ _ _ => List.disjoint_nil_left _

/-! ## Every reachable state -/

/-- What holds in every state of a simulation. -/
structure Consistent (state : State count) : Prop where
  /-- The busy connections and the sends that have not run. -/
  busy :
    ∀ g, (state.groups g).nrBusyPairs =
      (busyPairs (state.groups g) + pendingSends state g : Nat)
  /-- A send that is about to run finds its connection idle. -/
  idle :
    ∀ command ∈ state.atNow, PairIs state command.group command.id false
  single :
    (state.atNow.map fun command => (command.group, command.id)).Nodup
  /-- `schedule` sends a flow on an idle connection without other sends. -/
  sent :
    ∀ g size result, next state (.schedule g size) = some result →
      state.flowGen < state.flowTot →
        state.atNow = [] ∧
          ∃ id, result.atNow = [⟨g, id, max size 2⟩] ∧
            PairIs result g id false
  /-- When `schedule` searches, it finds a connection. -/
  searched :
    ∀ g size result, next state (.schedule g size) = some result →
      (state.groups g).nrBusyPairs ≠ (state.groups g).nrPairs →
        ∃ id, findIdle (state.groups g) = some id
  noError : state.status ≠ .error
  total :
    ∑ g, (state.groups g).nrBusyPairs = state.flowGen - state.flowFin
  finished : state.flowFin ≤ state.flowGen
  generated : state.flowGen ≤ state.flowTot
  /-- Two connections with one flow identifier are the same connection. -/
  distinct :
    ∀ (g h : Fin count) (i j : Nat) (first second : Pair),
      (state.groups g).pairs[i]? = some first →
        (state.groups h).pairs[j]? = some second →
          first.flowId = second.flowId → g = h ∧ i = j
  scheduled :
    state.flowGen < state.flowTot →
      ∀ g, state.started g = true → state.scheduled.count g = 1

/-- A generated flow is the only send that is pending. -/
theorem startFlow_sent
    {state : State count} (quiet : state.atNow = [])
    (left : state.flowGen < state.flowTot) {g : Fin count} {id : Nat}
    (nbytes : Nat) :
    (startFlow state g id nbytes).atNow = [⟨g, id, nbytes⟩] := by
  rw [startFlow, if_pos left]
  show state.atNow ++ [_] = _
  rw [quiet]
  rfl

theorem generate_sent
    {state : State count} (counted : Counted state)
    (quiet : state.atNow = []) (left : state.flowGen < state.flowTot)
    (g : Fin count) (size : Nat) :
    ∃ id, (generate state g size).atNow = [⟨g, id, max size 2⟩] := by
  rw [generate]
  by_cases full :
      (state.groups g).nrBusyPairs = (state.groups g).nrPairs
  · rw [if_pos full]
    constructor
    apply startFlow_sent
    · exact quiet
    · exact left
  · rw [if_neg full]
    rcases exists_findIdle_of_ne counted quiet full with ⟨id, found⟩
    rw [found]
    exact ⟨id, startFlow_sent quiet left _⟩

/-- The rest of `schedule` sends nothing. -/
theorem schedule_atNow
    {state : State count} (left : state.flowGen < state.flowTot)
    (g : Fin count) (size : Nat) :
    (schedule state g size).atNow = (generate state g size).atNow := by
  rw [schedule, if_neg (Nat.not_le.mpr left)]
  dsimp only
  rw [reschedule]
  split
  · rfl
  · split <;> rfl

/-- The flow that `schedule` generates. -/
theorem next_schedule_sent
    {state result : State count} (counted : Counted state)
    {g : Fin count} {size : Nat}
    (stepped : next state (.schedule g size) = some result)
    (left : state.flowGen < state.flowTot) :
    state.atNow = [] ∧
      ∃ id, result.atNow = [⟨g, id, max size 2⟩] ∧
        PairIs result g id false := by
  have after := next_counted counted stepped
  cases step_of_next stepped with
  | schedule g size quiet member =>
      rcases
        generate_sent
          (counted.plan state.started (state.scheduled.erase g)) quiet left
          g size with ⟨id, generated⟩
      rw [← schedule_atNow] at generated
      · refine ⟨quiet, id, generated, after.idle ⟨g, id, max size 2⟩ ?_⟩
        rw [generated]
        exact List.mem_singleton_self _
      · exact left

/-- When `schedule` searches, it finds a connection. -/
theorem next_schedule_searched
    {state result : State count} (counted : Counted state)
    {g : Fin count} {size : Nat}
    (stepped : next state (.schedule g size) = some result)
    (notAll : (state.groups g).nrBusyPairs ≠ (state.groups g).nrPairs) :
    ∃ id, findIdle (state.groups g) = some id := by
  cases step_of_next stepped with
  | schedule g size quiet member =>
      exact exists_findIdle_of_ne counted quiet notAll

/-- The identifier of a connection determines group and index. -/
theorem Identified.distinct
    {state : State count} (identified : Identified state)
    {g h : Fin count} {i j : Nat} {first second : Pair}
    (one : (state.groups g).pairs[i]? = some first)
    (other : (state.groups h).pairs[j]? = some second)
    (same : first.flowId = second.flowId) : g = h ∧ i = j := by
  have ids {g : Fin count} {i : Nat} {pair : Pair}
      (found : (state.groups g).pairs[i]? = some pair) :
      (flowIds (state.groups g))[i]? = some pair.flowId := by
    rw [flowIds, List.getElem?_map, found]
    rfl
  have first := ids one
  have second := ids other
  rw [← same] at second
  have equal : g = h := by
    by_contra different
    exact
      identified.disjoint g h different (List.mem_of_getElem? first)
        (List.mem_of_getElem? second)
  subst equal
  have inside : i < (flowIds (state.groups g)).length :=
    (List.getElem?_eq_some_iff.mp first).1
  exact
    ⟨rfl,
      (List.getElem?_inj inside (identified.nodup g)).mp
        (first.trans second.symm)⟩

/-- All three invariants together. -/
structure Invariant (state : State count) : Prop where
  counted : Counted state
  identified : Identified state
  scheduled : Scheduled state

theorem Invariant.consistent
    {state : State count} (invariant : Invariant state) :
    Consistent state := by
  have counted := invariant.counted
  constructor
  case busy => exact counted.busy
  case idle => exact counted.idle
  case single =>
    have single := counted.single
    cases pending : state.atNow with
    | nil => exact List.nodup_nil
    | cons command rest =>
        rw [pending, List.length_cons] at single
        have alone : rest = [] :=
          List.eq_nil_of_length_eq_zero (by omega)
        rw [alone]
        exact List.nodup_singleton _
  case sent =>
    intro g size result
    exact next_schedule_sent counted
  case searched =>
    intro g size result
    exact next_schedule_searched counted
  case noError => exact counted.noError
  case total => exact counted.total
  case finished =>
    have sum : (0 : Int) ≤ ∑ g, (state.groups g).nrBusyPairs := by
      apply Finset.sum_nonneg
      intro g _
      rw [counted.busy g]
      exact Int.natCast_nonneg _
    rw [counted.total] at sum
    omega
  case generated => exact counted.generated
  case distinct =>
    intro g h i j first second
    exact invariant.identified.distinct
  case scheduled =>
    intro left g started
    have pending := invariant.scheduled left g
    rwa [if_pos started] at pending

theorem reachable_consistent
    (flowTot : Nat) (nr : Fin count → Nat) (state : State count)
    (reachable : Reachable next (start flowTot nr) state) :
    Consistent state := by
  have preserved :
      ∀ (state : State count) event result,
        Invariant state → next state event = some result →
          Invariant result := by
    intro state event result invariant stepped
    exact
      { counted := next_counted invariant.counted stepped
        identified := next_identified invariant.identified stepped
        scheduled :=
          next_scheduled invariant.counted invariant.scheduled stepped }
  have fresh := start_fresh flowTot nr
  have initial : Invariant (start flowTot nr) :=
    { counted := fresh.1.counted
      identified := fresh.2
      scheduled := fresh.1.plan }
  exact (reachable.invariant preserved initial).consistent

/-- Two groups of one connection; the first one creates another. -/
def twoGroups : List (Event 2) :=
  [.initSchedule 0, .initSchedule 1, .schedule 0 900, .send 10,
    .schedule 0 1, .send 20, .doneData 0 0 30 1]

theorem reachable_consistent_twoGroups :
    ∃ state,
      run next (start 3 fun _ => 1) twoGroups = some state ∧
        (state.groups 0).nrPairs = 2 ∧ (state.groups 0).nrBusyPairs = 1 ∧
        state.flowFin = 1 ∧ Consistent state :=
  ⟨_, rfl, rfl, rfl, rfl,
    reachable_consistent 3 (fun _ => 1) _ ⟨twoGroups, rfl⟩⟩

end CodingExamples.TrafficGenNs2.Runs
