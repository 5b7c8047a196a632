import CodingExamples.FlowTracker.TableMap
import CodingExamples.Library.Execution

/-!
# Concurrent calls of `insert_table` and `delete_table`

Each call is a sequence of atomic steps, delimited by the lock: the duplicate
scan, the allocation, the addition to the list and the increment for an
insert, the removal and the decrement for a delete.  Any number of calls
interleave their steps.  The log records, in order, which call scanned for,
linked or unlinked which entry.

The lock is released between the scan and the addition, so two inserts of one
flow may both add it.  The main theorem characterises the runs in which the
table stays consistent: those in which no insert adds its entry after another
insert of the flow has overtaken it.
-/

namespace CodingExamples.FlowTracker.Concurrent

open CodingExamples.Library.BucketTable
open CodingExamples.Library.Execution
open CodingExamples.FlowTracker.Table
open CodingExamples.FlowTracker.TableMap

/-- What a call was made for. -/
inductive Request where
  | insert (flow : FlowEntry)
  | delete (flow : FlowEntry)
deriving DecidableEq, Repr

/-- Which of its steps a call has taken. -/
inductive Phase where
  | entered
  | scanned
  | allocated
  | linked
  | unlinked
  | returned (result : Bool)
deriving DecidableEq, Repr

/-- A call in progress, or one that has returned. -/
structure Call where
  request : Request
  phase : Phase
deriving DecidableEq, Repr

/-- A scan found no duplicate; an entry was linked or unlinked. -/
inductive Event where
  | scanned (call : Nat) (flow : FlowEntry)
  | added (call : Nat) (flow : FlowEntry)
  | removed (call : Nat) (flow : FlowEntry)
deriving DecidableEq, Repr

/-- The table, all calls so far, and the log. -/
structure State where
  table : FlowTable
  calls : List Call
  log : List Event
deriving DecidableEq, Repr

/-- A new call, or the next step of one; `kmalloc` is used by allocations. -/
inductive Action where
  | call (request : Request)
  | step (id : Nat) (kmalloc : Bool)
deriving DecidableEq, Repr

/-- What one step of a call leaves behind. -/
structure StepResult where
  phase : Phase
  table : FlowTable
  events : List Event

/-- The next atomic step of a call; `none` once it has returned. -/
def stepCall (id : Nat) (kmalloc : Bool) (table : FlowTable)
    (call : Call) : Option StepResult :=
  match call.request, call.phase with
  | .insert flow, .entered =>
      if table.lists.isNone then
        some ⟨.returned false, table, []⟩
      else do
        let duplicate ← scanDuplicate table flow
        if duplicate then
          pure ⟨.returned false, table, []⟩
        else
          pure ⟨.scanned, table, [.scanned id flow]⟩
  | .insert _, .scanned =>
      if kmalloc then
        some ⟨.allocated, table, []⟩
      else
        some ⟨.returned false, table, []⟩
  | .insert flow, .allocated => do
      let added ← addHead table flow
      pure ⟨.linked, added, [.added id flow]⟩
  | .insert _, .linked => some ⟨.returned true, addNumFlows table 1, []⟩
  | .delete flow, .entered =>
      if table.lists.isNone then
        some ⟨.returned false, table, []⟩
      else do
        let (deleted, rest) ← findAndDelete table flow
        if deleted then
          pure ⟨.unlinked, rest, [.removed id flow]⟩
        else
          pure ⟨.returned false, rest, []⟩
  | .delete _, .unlinked =>
      some ⟨.returned true, addNumFlows table (-1), []⟩
  | _, _ => none

/-- The step function of the system. -/
def next (state : State) : Action → Option State
  | .call request =>
      some { state with calls := state.calls ++ [⟨request, .entered⟩] }
  | .step id kmalloc => do
      let call ← state.calls[id]?
      let result ← stepCall id kmalloc state.table call
      pure
        { table := result.table
          calls := state.calls.set id ⟨call.request, result.phase⟩
          log := state.log ++ result.events }

/-- The initialised table before any call. -/
def start (table : FlowTable) : State where
  table := table
  calls := []
  log := []

/-! ## The property and the condition -/

/-- The second event is after the first, and the flow was removed between. -/
def RemovedBetween (log : List Event) (first second : Event)
    (flowKey : FlowKey) : Prop :=
  ∃ before middle after id removed,
    log = before ++ first :: (middle ++ second :: after) ∧
      .removed id removed ∈ middle ∧ key removed = flowKey

/-- What the lock is meant to guarantee, in one state. -/
structure Consistent (state : State) : Prop where
  /-- No two linked entries have the same addresses and ports. -/
  unique : ((entries state.table).map key).Nodup
  /-- Of two inserts of one flow that returned true, one added it only after
  the entry of the other had been removed. -/
  separated :
    ∀ first second leftFlow rightFlow,
      first ≠ second →
      state.calls[first]? = some ⟨.insert leftFlow, .returned true⟩ →
      state.calls[second]? = some ⟨.insert rightFlow, .returned true⟩ →
      key leftFlow = key rightFlow →
        RemovedBetween state.log (.added first leftFlow)
            (.added second rightFlow) (key leftFlow) ∨
          RemovedBetween state.log (.added second rightFlow)
            (.added first leftFlow) (key leftFlow)
  /-- After a delete that returned true removed a flow, and as long as no
  insert adds it again, the flow is not found. -/
  notFound :
    ∀ id flow,
      state.calls[id]? = some ⟨.delete flow, .returned true⟩ →
        ∃ before after,
          state.log = before ++ .removed id flow :: after ∧
            ((∀ other added,
                .added other added ∈ after → key added ≠ key flow) →
              searchTable state.table flow = some none)

/-- Is the flow linked after an event, given whether it was before? -/
def linkedAfter (flowKey : FlowKey) (before : Bool) : Event → Bool
  | .scanned _ _ => before
  | .added _ flow => if key flow = flowKey then true else before
  | .removed _ flow => if key flow = flowKey then false else before

/-- Is the last addition or removal of the flow an addition? -/
def lastAdded (log : List Event) (flowKey : FlowKey) : Bool :=
  log.foldl (linkedAfter flowKey) false

/--
Since the scan of the call, another insert has linked an entry of the flow,
and no delete has removed it again.
-/
def Overtaken (log : List Event) (id : Nat) (flow : FlowEntry) : Prop :=
  ∃ before after,
    log = before ++ .scanned id flow :: after ∧
      lastAdded after (key flow) = true

/-- The action is not the addition of an insert that has been overtaken. -/
def NotOvertaken (state : State) : Action → Prop
  | .call _ => True
  | .step id _ =>
      ∀ flow,
        state.calls[id]? = some ⟨.insert flow, .allocated⟩ →
          ¬ Overtaken state.log id flow

/-! ## The log -/

theorem lastAdded_append
    (before after : List Event) (flowKey : FlowKey) :
    lastAdded (before ++ after) flowKey =
      after.foldl (linkedAfter flowKey) (lastAdded before flowKey) := by
  rw [lastAdded, List.foldl_append]
  rfl

/-- Events only ever raise or overwrite what was linked before them. -/
theorem foldl_linkedAfter_true
    (flowKey : FlowKey) {before : Bool} {events : List Event}
    (linked : lastAdded events flowKey = true) :
    events.foldl (linkedAfter flowKey) before = true := by
  cases before with
  | false => exact linked
  | true =>
      induction events using List.reverseRecOn with
      | nil => rfl
      | append_singleton events event ih =>
          rw [lastAdded_append] at linked
          rw [List.foldl_append]
          cases event with
          | scanned id flow => exact ih linked
          | added id flow =>
              simp only [List.foldl_cons, List.foldl_nil, linkedAfter] at *
              split_ifs at * with same
              · rfl
              · exact ih linked
          | removed id flow =>
              simp only [List.foldl_cons, List.foldl_nil, linkedAfter] at *
              split_ifs at * with same
              exact ih linked

/-- Only a removal of the flow unlinks it. -/
theorem exists_removed_of_foldl
    {flowKey : FlowKey} {events : List Event}
    (unlinked : events.foldl (linkedAfter flowKey) true = false) :
    ∃ id flow, .removed id flow ∈ events ∧ key flow = flowKey := by
  induction events with
  | nil => cases unlinked
  | cons event events ih =>
      have fromRest :
          events.foldl (linkedAfter flowKey) true = false →
            ∃ id flow,
              .removed id flow ∈ event :: events ∧ key flow = flowKey := by
        intro rest
        rcases ih rest with ⟨id, flow, member, same⟩
        exact ⟨id, flow, List.mem_cons_of_mem _ member, same⟩
      cases event with
      | scanned id flow => exact fromRest unlinked
      | added id flow =>
          apply fromRest
          simpa [linkedAfter] using unlinked
      | removed id flow =>
          by_cases same : key flow = flowKey
          · exact ⟨id, flow, List.mem_cons_self, same⟩
          · apply fromRest
            simpa [linkedAfter, same] using unlinked

/-- Without an addition of the flow it stays unlinked. -/
theorem lastAdded_eq_false
    {flowKey : FlowKey} {events : List Event}
    (noneAdded : ∀ id flow, .added id flow ∈ events → key flow ≠ flowKey) :
    lastAdded events flowKey = false := by
  induction events using List.reverseRecOn with
  | nil => rfl
  | append_singleton events event ih =>
      have rest : lastAdded events flowKey = false := by
        apply ih
        intro id flow member
        exact noneAdded id flow (List.mem_append_left _ member)
      rw [lastAdded_append, rest]
      cases event with
      | scanned id flow => rfl
      | added id flow =>
          have other : key flow ≠ flowKey :=
            noneAdded id flow (by simp)
          simp [linkedAfter, other]
      | removed id flow => simp [linkedAfter]

/-! ## One step of a call -/

/-- What the log says about a call in one of its phases. -/
def Recorded (log : List Event) (id : Nat) (call : Call) : Prop :=
  match call.request, call.phase with
  | .insert flow, .scanned | .insert flow, .allocated =>
      ∃ before after,
        log = before ++ .scanned id flow :: after ∧
          lastAdded before (key flow) = false
  | .insert flow, .linked | .insert flow, .returned true =>
      .added id flow ∈ log
  | .delete flow, .unlinked | .delete flow, .returned true =>
      .removed id flow ∈ log
  | _, _ => True

/-- What a step of a call can do to a table that holds a map. -/
inductive CallStep (bits : Nat) (table : FlowTable) (map : FlowMap)
    (id : Nat) (call : Call) : StepResult → Prop where
  | silent {phase : Phase} {result : FlowTable}
      (linked : Linked bits result map)
      (kept :
        ∀ log, Recorded log id call →
          Recorded log id ⟨call.request, phase⟩) :
      CallStep bits table map id call ⟨phase, result, []⟩
  | scan {flow : FlowEntry}
      (request : call.request = .insert flow)
      (absent : key flow ∉ map) :
      CallStep bits table map id call
        ⟨.scanned, table, [.scanned id flow]⟩
  | add {flow : FlowEntry} {result : FlowTable}
      (request : call.request = .insert flow)
      (phase : call.phase = .allocated)
      (added : addHead table flow = some result) :
      CallStep bits table map id call
        ⟨.linked, result, [.added id flow]⟩
  | remove {flow : FlowEntry} {result : FlowTable}
      (request : call.request = .delete flow)
      (linked : Linked bits result (map.erase (key flow))) :
      CallStep bits table map id call
        ⟨.unlinked, result, [.removed id flow]⟩

theorem CallStep.of_stepCall
    {bits : Nat} {table : FlowTable} {map : FlowMap}
    (linked : Linked bits table map)
    {id : Nat} {kmalloc : Bool} {call : Call} {result : StepResult}
    (step : stepCall id kmalloc table call = some result) :
    CallStep bits table map id call result := by
  rcases call with ⟨request, phase⟩
  cases request with
  | insert flow =>
      cases phase with
      | entered =>
          simp only [stepCall, linked.isNone_eq,
            linked.scanDuplicate_eq] at step
          by_cases present : key flow ∈ map
          · simp only [present, decide_true] at step
            cases step
            exact .silent linked fun log _ => trivial
          · simp only [present, decide_false] at step
            cases step
            exact .scan rfl present
      | scanned =>
          cases kmalloc with
          | false =>
              cases step
              exact .silent linked fun log _ => trivial
          | true =>
              cases step
              exact .silent linked fun log recorded => recorded
      | allocated =>
          simp only [stepCall, Option.bind_eq_bind,
            Option.bind_eq_some_iff] at step
          rcases step with ⟨added, stored, final⟩
          cases final
          exact .add rfl rfl stored
      | linked =>
          cases step
          exact
            .silent (linked.addNumFlows 1) fun log recorded => recorded
      | unlinked => cases step
      | returned result => cases step
  | delete flow =>
      cases phase with
      | entered =>
          simp only [stepCall, linked.isNone_eq] at step
          by_cases present : key flow ∈ map
          · rcases linked.findAndDelete_of_mem present with
              ⟨rest, removed, erased, _⟩
            rw [removed] at step
            cases step
            exact .remove rfl erased
          · rw [linked.findAndDelete_of_notMem present] at step
            cases step
            exact .silent linked fun log _ => trivial
      | unlinked =>
          cases step
          exact
            .silent (linked.addNumFlows (-1)) fun log recorded => recorded
      | scanned => cases step
      | allocated => cases step
      | linked => cases step
      | returned result => cases step

/-! ## The invariant -/

/-- Every addition of the log found its flow unlinked. -/
def Fresh (log : List Event) : Prop :=
  ∀ before id flow after,
    log = before ++ .added id flow :: after →
      lastAdded before (key flow) = false

/-- The state is consistent with a map and with its own log. -/
structure Tracked (bits : Nat) (state : State) (map : FlowMap) :
    Prop where
  linked : Linked bits state.table map
  lastAdded_eq :
    ∀ flowKey, lastAdded state.log flowKey = decide (flowKey ∈ map)
  fresh : Fresh state.log
  recorded :
    ∀ id call, state.calls[id]? = some call →
      Recorded state.log id call

/-- The invariant of the runs that keep the table consistent. -/
def Trackable (bits : Nat) (state : State) : Prop :=
  ∃ map, Tracked bits state map

theorem Fresh.append_singleton
    {log : List Event} (fresh : Fresh log) {event : Event}
    (own :
      ∀ id flow, event = .added id flow →
        lastAdded log (key flow) = false) :
    Fresh (log ++ [event]) := by
  intro before id flow after split
  rcases List.eq_nil_or_concat after with rfl | ⟨rest, last, rfl⟩
  · rcases List.append_inj' split rfl with ⟨rfl, last⟩
    exact own id flow (List.cons.inj last).1
  · rw [List.concat_eq_append, ← List.cons_append, ← List.append_assoc] at split
    exact fresh before id flow rest (List.append_inj' split rfl).1

theorem Recorded.append
    {log : List Event} {id : Nat} {call : Call}
    (recorded : Recorded log id call) (events : List Event) :
    Recorded (log ++ events) id call := by
  unfold Recorded at *
  split at recorded
  case h_7 => trivial
  case h_1 | h_2 =>
    rcases recorded with ⟨before, after, split, unlinked⟩
    exact ⟨before, after ++ events, by rw [split]; simp, unlinked⟩
  all_goals exact List.mem_append_left _ recorded

/-- The step of one call leaves what is recorded of the others. -/
theorem recorded_set
    {log : List Event} {calls : List Call}
    (recorded :
      ∀ id call, calls[id]? = some call → Recorded log id call)
    {id : Nat} {call : Call} {events : List Event}
    (own : Recorded (log ++ events) id call) :
    ∀ other found, (calls.set id call)[other]? = some found →
      Recorded (log ++ events) other found := by
  intro other found at_other
  rw [List.getElem?_set] at at_other
  split_ifs at at_other with same inside
  · cases at_other
    rw [← same]
    exact own
  · exact (recorded other found at_other).append events

/-- Nothing has happened in a call that has just been made. -/
theorem recorded_call
    {log : List Event} {calls : List Call}
    (recorded :
      ∀ id call, calls[id]? = some call → Recorded log id call)
    (request : Request) :
    ∀ id call,
      (calls ++ [⟨request, .entered⟩])[id]? = some call →
        Recorded log id call := by
  intro id call at_id
  rw [List.getElem?_append] at at_id
  split_ifs at at_id with old
  · exact recorded id call at_id
  · rw [List.getElem?_singleton] at at_id
    split_ifs at at_id
    cases at_id
    cases request <;> trivial

/-! ## Scanning and adding -/

section Tracked

variable {bits : Nat} {state : State} {map : FlowMap}

/-- An insert that was not overtaken adds an absent flow. -/
theorem Tracked.absent_of_notOvertaken
    (tracked : Tracked bits state map) {id : Nat} {flow : FlowEntry}
    (allocated :
      state.calls[id]? = some ⟨.insert flow, .allocated⟩)
    (notOvertaken : ¬ Overtaken state.log id flow) :
    key flow ∉ map := by
  intro present
  rcases tracked.recorded id _ allocated with
    ⟨before, after, split, unlinked⟩
  apply notOvertaken
  refine ⟨before, after, split, ?_⟩
  have linked := tracked.lastAdded_eq (key flow)
  rw [decide_eq_true present, split, lastAdded_append,
    List.foldl_cons, linkedAfter, unlinked] at linked
  exact linked

theorem Tracked.mem_of_overtaken
    (tracked : Tracked bits state map) {id : Nat} {flow : FlowEntry}
    (overtaken : Overtaken state.log id flow) :
    key flow ∈ map := by
  rcases overtaken with ⟨before, after, split, linked⟩
  have logged := tracked.lastAdded_eq (key flow)
  rw [split, lastAdded_append, List.foldl_cons, linkedAfter,
    foldl_linkedAfter_true _ linked] at logged
  exact of_decide_eq_true logged.symm

end Tracked

/-- Adding a flow that is linked already makes two entries of it. -/
theorem not_nodup_entries
    {bits : Nat} {table added : FlowTable} {map : FlowMap}
    (linked : Linked bits table map) {flow : FlowEntry}
    (present : key flow ∈ map)
    (stored : addHead table flow = some added) :
    ¬ ((entries added).map key).Nodup := by
  intro distinct
  have grown := (linked.entries_addHead stored).map key
  rw [grown.nodup_iff, List.map_cons, List.nodup_cons] at distinct
  exact distinct.1 ((linked.mem_entries_iff (key flow)).mpr present)

/-! ## Preservation -/

theorem Tracked.initial
    {bits : Nat} {table : FlowTable} (linked : Linked bits table ∅) :
    Tracked bits (start table) ∅ where
  linked := linked
  lastAdded_eq flowKey := (decide_eq_false Finmap.notMem_empty).symm
  fresh before id flow after split := by simp [start] at split
  recorded id call at_id := by simp [start] at at_id

theorem linkedAfter_added
    (map : FlowMap) (id : Nat) (flow : FlowEntry) (flowKey : FlowKey) :
    linkedAfter flowKey (decide (flowKey ∈ map)) (.added id flow) =
      decide (flowKey ∈ map.insert (key flow) flow) := by
  rw [linkedAfter]
  by_cases same : key flow = flowKey
  · simp [same]
  · simp [same, Ne.symm same]

theorem linkedAfter_removed
    (map : FlowMap) (id : Nat) (flow : FlowEntry) (flowKey : FlowKey) :
    linkedAfter flowKey (decide (flowKey ∈ map)) (.removed id flow) =
      decide (flowKey ∈ map.erase (key flow)) := by
  rw [linkedAfter]
  by_cases same : key flow = flowKey
  · simp [same]
  · simp [same, Ne.symm same]

/-- A step of a call that logs one event. -/
theorem Tracked.logged
    {bits : Nat} {state : State} {map changed : FlowMap}
    (tracked : Tracked bits state map)
    {table : FlowTable} (linked : Linked bits table changed)
    {id : Nat} {call : Call} {event : Event}
    (own : Recorded (state.log ++ [event]) id call)
    (follows :
      ∀ flowKey,
        linkedAfter flowKey (decide (flowKey ∈ map)) event =
          decide (flowKey ∈ changed))
    (absent :
      ∀ other flow, event = .added other flow → key flow ∉ map) :
    Tracked bits
      { table := table
        calls := state.calls.set id call
        log := state.log ++ [event] } changed where
  linked := linked
  lastAdded_eq flowKey := by
    rw [lastAdded_append, List.foldl_cons, List.foldl_nil,
      tracked.lastAdded_eq]
    exact follows flowKey
  fresh := by
    apply tracked.fresh.append_singleton
    intro other flow added
    rw [tracked.lastAdded_eq]
    exact decide_eq_false (absent other flow added)
  recorded := recorded_set tracked.recorded own

/-- A step that meets the condition keeps the invariant. -/
theorem Tracked.next
    {bits : Nat} {state result : State} {map : FlowMap}
    (tracked : Tracked bits state map) {action : Action}
    (notOvertaken : NotOvertaken state action)
    (step : next state action = some result) :
    Trackable bits result := by
  cases action with
  | call request =>
      cases step
      exact
        ⟨map, tracked.linked, tracked.lastAdded_eq, tracked.fresh,
          recorded_call tracked.recorded request⟩
  | step id kmalloc =>
      simp only [Concurrent.next, Option.bind_eq_bind,
        Option.bind_eq_some_iff] at step
      rcases step with ⟨call, at_id, outcome, stepped, final⟩
      cases final
      have own := tracked.recorded id call at_id
      cases CallStep.of_stepCall tracked.linked stepped with
      | silent linked kept =>
          refine ⟨map, linked, ?_, ?_, ?_⟩
          · rw [List.append_nil]
            exact tracked.lastAdded_eq
          · rw [List.append_nil]
            exact tracked.fresh
          · exact recorded_set tracked.recorded ((kept _ own).append [])
      | @scan flow request absent =>
          refine ⟨map, tracked.logged tracked.linked ?_ ?_ ?_⟩
          · rw [request]
            refine ⟨state.log, [], rfl, ?_⟩
            rw [tracked.lastAdded_eq]
            exact decide_eq_false absent
          · intro flowKey
            rfl
          · intro other added equal
            cases equal
      | @add flow added request phase stored =>
          have absent : key flow ∉ map := by
            have allocated :
                state.calls[id]? = some ⟨.insert flow, .allocated⟩ := by
              rw [at_id, ← request, ← phase]
            exact
              tracked.absent_of_notOvertaken allocated
                (notOvertaken flow allocated)
          rcases tracked.linked.addHead_eq absent with
            ⟨grown, storedAgain, linked, _⟩
          rw [stored] at storedAgain
          cases storedAgain
          refine
            ⟨map.insert (key flow) flow, tracked.logged linked ?_ ?_ ?_⟩
          · rw [request]
            exact List.mem_append_right _ List.mem_cons_self
          · exact linkedAfter_added map id flow
          · intro other again equal
            cases equal
            exact absent
      | @remove flow rest request linked =>
          refine
            ⟨map.erase (key flow), tracked.logged linked ?_ ?_ ?_⟩
          · rw [request]
            exact List.mem_append_right _ List.mem_cons_self
          · exact linkedAfter_removed map id flow
          · intro other again equal
            cases equal

/-! ## Consistency -/

/-- Of two additions of a flow, the later one comes after a removal. -/
theorem Fresh.removedBetween
    {log : List Event} (fresh : Fresh log)
    {before after : List Event} {first second : Nat}
    {left right : FlowEntry} (same : key left = key right)
    (split : log = before ++ .added first left :: after)
    (later : .added second right ∈ after) :
    RemovedBetween log (.added first left) (.added second right)
      (key left) := by
  rcases List.append_of_mem later with ⟨middle, rest, rfl⟩
  have unlinked : lastAdded (before ++ .added first left :: middle)
      (key right) = false := by
    apply fresh _ second right rest
    rw [split, List.append_assoc, List.cons_append]
  rw [lastAdded_append, List.foldl_cons, linkedAfter, if_pos same] at unlinked
  rcases exists_removed_of_foldl unlinked with
    ⟨id, removed, member, equal⟩
  exact
    ⟨before, middle, rest, id, removed, split, member,
      equal.trans same.symm⟩

/-- What is tracked is consistent. -/
theorem Tracked.consistent
    {bits : Nat} {state : State} {map : FlowMap}
    (tracked : Tracked bits state map) :
    Consistent state where
  unique := tracked.linked.nodup_entries
  separated := by
    intro first second left right different atFirst atSecond same
    have firstAdded : .added first left ∈ state.log :=
      tracked.recorded first _ atFirst
    have secondAdded : .added second right ∈ state.log :=
      tracked.recorded second _ atSecond
    rcases List.append_of_mem firstAdded with ⟨before, after, split⟩
    have placed : .added second right ∈ before ++ after := by
      have distinct :
          Event.added second right ≠ Event.added first left := by
        intro equal
        exact different (Event.added.inj equal).1.symm
      rw [split] at secondAdded
      simpa [distinct] using secondAdded
    rcases List.mem_append.mp placed with earlier | later
    · right
      rcases List.append_of_mem earlier with ⟨start, middle, rfl⟩
      have splitEarlier :
          state.log =
            start ++ .added second right ::
              (middle ++ .added first left :: after) := by
        rw [split, List.append_assoc, List.cons_append]
      rw [same]
      exact
        tracked.fresh.removedBetween same.symm splitEarlier
          (List.mem_append_right _ List.mem_cons_self)
    · left
      exact tracked.fresh.removedBetween same split later
  notFound := by
    intro id flow at_id
    have removed : .removed id flow ∈ state.log :=
      tracked.recorded id _ at_id
    rcases List.append_of_mem removed with ⟨before, after, split⟩
    refine ⟨before, after, split, ?_⟩
    intro noneAdded
    have unlinked : lastAdded state.log (key flow) = false := by
      rw [split, lastAdded_append, List.foldl_cons, linkedAfter,
        if_pos rfl]
      exact lastAdded_eq_false noneAdded
    rw [tracked.lastAdded_eq, decide_eq_false_iff_not,
      ← Finmap.lookup_eq_none] at unlinked
    rw [tracked.linked.searchTable_eq, unlinked]

/-- An overtaken insert makes the table inconsistent. -/
theorem Tracked.notOvertaken
    {bits : Nat} {state result : State} {map : FlowMap}
    (tracked : Tracked bits state map) {action : Action}
    (step : Concurrent.next state action = some result)
    (consistent : Consistent result) :
    NotOvertaken state action := by
  cases action with
  | call request => trivial
  | step id kmalloc =>
      intro flow allocated overtaken
      simp only [Concurrent.next, allocated, stepCall, Option.bind_eq_bind,
        Option.bind_some, Option.bind_eq_some_iff] at step
      rcases step with ⟨outcome, ⟨added, stored, grown⟩, final⟩
      cases grown
      cases final
      exact
        not_nodup_entries tracked.linked
          (tracked.mem_of_overtaken overtaken) stored consistent.unique

/--
In every run on an initialised table, all states are consistent exactly if no
insert adds its entry after it has been overtaken.
-/
theorem throughout_consistent_iff
    {vmalloc : Bool} {table initialised : FlowTable} {bits : Nat}
    (success : initTable vmalloc table bits = (true, initialised))
    {actions : List Action} {final : State}
    (ran : run next (start initialised) actions = some final) :
    Throughout next Consistent (start initialised) actions ↔
      Along next NotOvertaken (start initialised) actions := by
  have initial : Trackable bits (start initialised) :=
    ⟨∅, Tracked.initial (holds_initTable success).toLinked⟩
  constructor
  · intro throughout
    refine Throughout.along ?_ ?_ initial ran throughout
    · rintro state action result ⟨map, tracked⟩ step consistent
      exact tracked.notOvertaken step consistent
    · rintro state action result ⟨map, tracked⟩ satisfied step
      exact tracked.next satisfied step
  · intro along before after state split ranBefore
    have invariant :
        Throughout next (Trackable bits) (start initialised) actions := by
      refine Along.throughout ?_ initial along
      rintro state action result ⟨map, tracked⟩ satisfied step
      exact tracked.next satisfied step
    rcases invariant before after state split ranBefore with ⟨map, tracked⟩
    exact tracked.consistent

/-- Two inserts of one flow that take each of their steps in turn. -/
def overlapping : List Action :=
  [.call (.insert ⟨1, 2, 3, 4, 60⟩), .call (.insert ⟨1, 2, 3, 4, 60⟩),
    .step 0 true, .step 1 true, .step 0 true, .step 1 true,
    .step 0 true, .step 1 true]

/-- The state that they lead to on a table with one list. -/
def overlapped : State where
  table :=
    { lists := some [[⟨1, 2, 3, 4, 60⟩, ⟨1, 2, 3, 4, 60⟩]]
      bits := 0
      numFlows := 0 }
  calls :=
    [⟨.insert ⟨1, 2, 3, 4, 60⟩, .linked⟩,
      ⟨.insert ⟨1, 2, 3, 4, 60⟩, .linked⟩]
  log :=
    [.scanned 0 ⟨1, 2, 3, 4, 60⟩, .scanned 1 ⟨1, 2, 3, 4, 60⟩,
      .added 0 ⟨1, 2, 3, 4, 60⟩, .added 1 ⟨1, 2, 3, 4, 60⟩]

theorem run_overlapping :
    run next (start (initTable true ⟨none, 0, 0⟩ 0).2) overlapping =
      some overlapped := by
  decide +kernel

/-- The overlapping inserts on a table with one list. -/
theorem throughout_consistent_iff_overlapping :
    ∃ final,
      run next (start (initTable true ⟨none, 0, 0⟩ 0).2) overlapping =
          some final ∧
        (Throughout next Consistent
            (start (initTable true ⟨none, 0, 0⟩ 0).2) overlapping ↔
          Along next NotOvertaken
            (start (initTable true ⟨none, 0, 0⟩ 0).2) overlapping) := by
  have success :
      initTable true ⟨none, 0, 0⟩ 0 =
        (true, (initTable true ⟨none, 0, 0⟩ 0).2) :=
    rfl
  exact
    ⟨overlapped, run_overlapping,
      throughout_consistent_iff success run_overlapping⟩

/-- Overlapping inserts of one flow link it twice. -/
theorem exists_duplicate_entries :
    ¬ ∀ (vmalloc : Bool) (table initialised : FlowTable) (bits : Nat)
        (actions : List Action) (final : State),
        initTable vmalloc table bits = (true, initialised) →
          run next (start initialised) actions = some final →
            ((entries final.table).map key).Nodup := by
  intro unique
  have distinct :=
    unique true ⟨none, 0, 0⟩ _ 0 overlapping overlapped rfl run_overlapping
  revert distinct
  decide

end CodingExamples.FlowTracker.Concurrent
