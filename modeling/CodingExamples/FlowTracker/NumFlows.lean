import CodingExamples.FlowTracker.Concurrent
import Mathlib.Data.BitVec
import Mathlib.Tactic.LinearCombination
import Mathlib.Tactic.Ring

/-!
# The number of flows

`num_flows` is changed outside of the lock, some time after the list.  A call
between the two steps still owes its change to the counter; with what all
calls owe, the counter is the number of linked entries modulo `2 ^ 32` in
every state, whether or not some flow is linked more than once.
-/

namespace CodingExamples.FlowTracker.NumFlows

open CodingExamples.Library.BucketTable
open CodingExamples.Library.Execution
open CodingExamples.FlowTracker.Table
open CodingExamples.FlowTracker.TableMap
open CodingExamples.FlowTracker.Concurrent

/-- What a call has not added to `num_flows` yet. -/
def owed (call : Call) : BitVec 32 :=
  match call.request, call.phase with
  | .insert _, .linked => 1
  | .delete _, .unlinked => -1
  | _, _ => 0

/-- The number of linked entries, as far as the counter can hold it. -/
def linkedEntries (table : FlowTable) : BitVec 32 :=
  BitVec.ofNat 32 (entries table).length

/-- With what the calls owe, the counter is the number of linked entries. -/
def Accounted (state : State) : Prop :=
  state.table.numFlows + (state.calls.map owed).sum =
    linkedEntries state.table

theorem numFlows_addNumFlows (table : FlowTable) (change : BitVec 32) :
    (addNumFlows table change).numFlows = table.numFlows + change :=
  rfl

theorem linkedEntries_addNumFlows (table : FlowTable) (change : BitVec 32) :
    linkedEntries (addNumFlows table change) = linkedEntries table :=
  rfl

theorem linkedEntries_of_length
    {longer table : FlowTable}
    (length : (entries longer).length = (entries table).length + 1) :
    linkedEntries longer = linkedEntries table + 1 := by
  rw [linkedEntries, length, BitVec.ofNat_add]
  rfl

/-- No call is in progress. -/
def Idle (state : State) : Prop :=
  ∀ call ∈ state.calls, ∃ result, call.phase = .returned result

/-! ## The lists -/

section Lists

variable {table : FlowTable} {flow : FlowEntry}

/-- The lists with one of them replaced. -/
theorem length_entries_setBucket
    {list : List FlowEntry} (found : bucket table flow = some list)
    (changed : List FlowEntry) :
    (entries (setBucket table flow changed)).length + list.length =
      (entries table).length + changed.length := by
  rw [bucket, Option.bind_eq_bind, Option.bind_eq_some_iff] at found
  rcases found with ⟨lists, stored, at_index⟩
  rw [entries, entries, setBucket, stored]
  exact length_flatten_set at_index changed

theorem addHead_length
    {added : FlowTable} (grown : addHead table flow = some added) :
    added.numFlows = table.numFlows ∧
      (entries added).length = (entries table).length + 1 := by
  rw [addHead, Option.bind_eq_bind, Option.bind_eq_some_iff] at grown
  rcases grown with ⟨list, found, stored⟩
  cases stored
  have lengths := length_entries_setBucket found (flow :: list)
  rw [List.length_cons] at lengths
  exact ⟨rfl, by omega⟩

/-- A delete unlinks one entry, if it finds one. -/
theorem findAndDelete_length
    {deleted : Bool} {rest : FlowTable}
    (found : findAndDelete table flow = some (deleted, rest)) :
    rest.numFlows = table.numFlows ∧
      (entries rest).length + (if deleted then 1 else 0) =
        (entries table).length := by
  rw [findAndDelete, Option.bind_eq_bind, Option.bind_eq_some_iff] at found
  rcases found with ⟨list, inside, stored⟩
  split at stored
  · case isTrue present =>
      cases stored
      rw [List.any_eq_true] at present
      rcases present with ⟨obj, member, same⟩
      have shorter :
          (list.eraseP fun obj => sameFlow obj flow).length =
            list.length - 1 :=
        List.length_eraseP_of_mem member same
      have positive := List.length_pos_of_mem member
      have lengths :=
        length_entries_setBucket inside
          (list.eraseP fun obj => sameFlow obj flow)
      rw [shorter] at lengths
      refine ⟨rfl, ?_⟩
      rw [if_pos rfl]
      omega
  · cases stored
    exact ⟨rfl, rfl⟩

end Lists

/-! ## Steps -/

/-- A step of a call pays what it owes, or owes what it has changed. -/
theorem stepCall_accounted
    {id : Nat} {kmalloc : Bool} {table : FlowTable} {call : Call}
    {result : StepResult}
    (step : stepCall id kmalloc table call = some result) :
    result.table.numFlows + owed ⟨call.request, result.phase⟩ +
        linkedEntries table =
      table.numFlows + owed call + linkedEntries result.table := by
  rcases call with ⟨request, phase⟩
  cases request with
  | insert flow =>
      cases phase with
      | entered =>
          simp only [stepCall] at step
          split at step
          · cases step
            rfl
          · rw [Option.bind_eq_bind, Option.bind_eq_some_iff] at step
            rcases step with ⟨duplicate, _, stepped⟩
            cases duplicate with
            | true => cases stepped; rfl
            | false => cases stepped; rfl
      | scanned =>
          cases kmalloc with
          | true => cases step; rfl
          | false => cases step; rfl
      | allocated =>
          simp only [stepCall, Option.bind_eq_bind,
            Option.bind_eq_some_iff] at step
          rcases step with ⟨added, grown, stepped⟩
          cases stepped
          rcases addHead_length grown with ⟨counter, longer⟩
          simp only [owed]
          rw [counter, linkedEntries_of_length longer]
          ring
      | linked =>
          cases step
          simp only [owed]
          rw [linkedEntries_addNumFlows, numFlows_addNumFlows]
          ring
      | unlinked => cases step
      | returned result => cases step
  | delete flow =>
      cases phase with
      | entered =>
          simp only [stepCall] at step
          split at step
          · cases step
            rfl
          · rw [Option.bind_eq_bind, Option.bind_eq_some_iff] at step
            rcases step with ⟨⟨deleted, rest⟩, found, stepped⟩
            rcases findAndDelete_length found with ⟨counter, shorter⟩
            cases deleted with
            | true =>
                cases stepped
                rw [if_pos rfl] at shorter
                simp only [owed]
                rw [counter, linkedEntries_of_length shorter.symm]
                ring
            | false =>
                cases stepped
                rw [if_neg Bool.false_ne_true, Nat.add_zero] at shorter
                simp only [owed, linkedEntries]
                rw [counter, shorter]
      | unlinked =>
          cases step
          simp only [owed]
          rw [linkedEntries_addNumFlows, numFlows_addNumFlows]
          ring
      | scanned => cases step
      | allocated => cases step
      | linked => cases step
      | returned result => cases step

/-- What all calls owe changes as what the call owes. -/
theorem sum_owed_set
    {calls : List Call} {id : Nat} {old : Call}
    (found : calls[id]? = some old) (new : Call) :
    ((calls.set id new).map owed).sum + owed old =
      (calls.map owed).sum + owed new := by
  rcases List.getElem?_eq_some_iff.mp found with ⟨inside, rfl⟩
  have mapped : id < (calls.map owed).length := by
    rw [List.length_map]
    exact inside
  rw [List.map_set, List.sum_set', dif_pos mapped, List.getElem_map]
  ring

theorem next_accounted
    {state result : State} {action : Action}
    (accounted : Accounted state)
    (step : Concurrent.next state action = some result) :
    Accounted result := by
  rw [Accounted] at accounted
  cases action with
  | call request =>
      cases step
      have fresh : owed ⟨request, .entered⟩ = 0 := by
        cases request <;> rfl
      show state.table.numFlows +
          ((state.calls ++ [(⟨request, .entered⟩ : Call)]).map owed).sum =
        linkedEntries state.table
      rw [List.map_append, List.sum_append, List.map_singleton,
        List.sum_singleton, fresh, add_zero]
      exact accounted
  | step id kmalloc =>
      simp only [Concurrent.next, Option.bind_eq_bind,
        Option.bind_eq_some_iff] at step
      rcases step with ⟨call, found, outcome, stepped, final⟩
      cases final
      have paid := stepCall_accounted stepped
      have sum := sum_owed_set found ⟨call.request, outcome.phase⟩
      show outcome.table.numFlows +
          ((state.calls.set id ⟨call.request, outcome.phase⟩).map owed).sum =
        linkedEntries outcome.table
      linear_combination accounted + paid + sum

/-! ## Runs -/

/-- An initialised table is empty, and no call has been made. -/
theorem start_accounted
    {vmalloc : Bool} {table initialised : FlowTable} {bits : Nat}
    (success : initTable vmalloc table bits = (true, initialised)) :
    Accounted (start initialised) := by
  rw [initTable] at success
  split at success
  · cases success
  · split at success
    · cases success
      simp [Accounted, start, linkedEntries, entries]
    · cases success

theorem Idle.owed_eq
    {state : State} (idle : Idle state) :
    (state.calls.map owed).sum = 0 := by
  apply List.sum_eq_zero
  intro change member
  rcases List.mem_map.mp member with ⟨⟨request, phase⟩, inside, rfl⟩
  rcases idle _ inside with ⟨result, returned⟩
  subst returned
  cases request <;> rfl

/-- When no call is in progress, nothing is owed. -/
theorem idle_numFlows
    {vmalloc : Bool} {table initialised : FlowTable} {bits : Nat}
    (success : initTable vmalloc table bits = (true, initialised))
    {state : State}
    (reachable : Reachable Concurrent.next (start initialised) state)
    (idle : Idle state) :
    state.table.numFlows = linkedEntries state.table := by
  have preserved :
      ∀ state action result,
        Accounted state → Concurrent.next state action = some result →
          Accounted result :=
    fun _ _ _ => next_accounted
  have accounted := reachable.invariant preserved (start_accounted success)
  rwa [Accounted, idle.owed_eq, add_zero] at accounted

/--
From an initialised table, in every state that any interleaving of calls can
reach and in which no call is in progress, the counter is the number of linked
entries modulo `2 ^ 32`.  As an `int` it is their number exactly while there
are fewer than `2 ^ 31`.
-/
theorem numFlows_eq
    {vmalloc : Bool} {table initialised : FlowTable} {bits : Nat}
    (success : initTable vmalloc table bits = (true, initialised))
    (state : State)
    (reachable : Reachable Concurrent.next (start initialised) state)
    (idle : Idle state) :
    state.table.numFlows =
        BitVec.ofNat 32 (entries state.table).length ∧
      (state.table.numFlows.toInt = (entries state.table).length ↔
        (entries state.table).length < 2 ^ 31) := by
  have counted := idle_numFlows success reachable idle
  refine ⟨counted, ?_⟩
  rw [counted]
  exact toInt_ofNat_eq_iff _

/-- Two inserts of one flow link it twice, and a delete unlinks one entry. -/
def interleaved : List Action :=
  overlapping ++
    [.call (.delete ⟨1, 2, 3, 4, 0⟩), .step 2 true, .step 0 true,
      .step 2 true, .step 1 true]

theorem numFlows_eq_interleaved :
    ∃ state,
      run Concurrent.next (start (initTable true ⟨none, 0, 0⟩ 0).2)
          interleaved =
        some state ∧
      Idle state ∧
      state.table.numFlows =
          BitVec.ofNat 32 (entries state.table).length ∧
        (state.table.numFlows.toInt = (entries state.table).length ↔
          (entries state.table).length < 2 ^ 31) := by
  have success :
      initTable true ⟨none, 0, 0⟩ 0 =
        (true, (initTable true ⟨none, 0, 0⟩ 0).2) :=
    rfl
  have phases :
      (run Concurrent.next (start (initTable true ⟨none, 0, 0⟩ 0).2)
          interleaved).map
          (fun state => state.calls.map Call.phase) =
        some [.returned true, .returned true, .returned true] := by
    decide +kernel
  rcases Option.map_eq_some_iff.mp phases with ⟨state, ran, returned⟩
  have idle : Idle state := by
    intro call member
    have phase := List.mem_map_of_mem (f := Call.phase) member
    rw [returned] at phase
    simp only [List.mem_cons, List.not_mem_nil, or_false, or_self] at phase
    exact ⟨true, phase⟩
  exact
    ⟨state, ran, idle, numFlows_eq success state ⟨interleaved, ran⟩ idle⟩

/-! ## More entries than the counter can count -/

/-- An insert that no other call interrupts. -/
def insertAlone (id : Nat) (flow : FlowEntry) : List Action :=
  [.call (.insert flow), .step id true, .step id true, .step id true,
    .step id true]

/-- One insert after the other. -/
def insertEach (id : Nat) : List FlowEntry → List Action
  | [] => []
  | flow :: rest => insertAlone id flow ++ insertEach (id + 1) rest

section InsertEach

variable {bits : Nat} {state : State} {map : FlowMap}

/-- An insert of an absent flow that no other call interrupts links it. -/
theorem run_insertAlone
    (linked : Linked bits state.table map) (idle : Idle state)
    {flow : FlowEntry} (absent : key flow ∉ map) :
    ∃ result,
      run Concurrent.next state (insertAlone state.calls.length flow) =
        some result ∧
      Linked bits result.table (map.insert (key flow) flow) ∧
      Idle result ∧
      result.calls.length = state.calls.length + 1 ∧
      (entries result.table).length = (entries state.table).length + 1 := by
  rcases linked.addHead_eq absent with ⟨added, grown, linkedAdded, _⟩
  have duplicate : scanDuplicate state.table flow = some false := by
    rw [linked.scanDuplicate_eq, decide_eq_false absent]
  have initialised : state.table.lists ≠ none := by
    rw [Ne, ← Option.isNone_iff_eq_none, linked.isNone_eq]
    exact Bool.false_ne_true
  refine
    ⟨{ table := addNumFlows added 1
       calls := state.calls ++ [⟨.insert flow, .returned true⟩]
       log :=
        state.log ++ [.scanned state.calls.length flow,
          .added state.calls.length flow] },
      ?_, linkedAdded.addNumFlows 1, ?_, List.length_append,
      (addHead_length grown).2⟩
  · simp [insertAlone, run, Concurrent.next, stepCall, initialised,
      duplicate, grown]
  · intro call member
    rcases List.mem_append.mp member with old | new
    · exact idle call old
    · rw [List.mem_singleton.mp new]
      exact ⟨true, rfl⟩

/-- Inserts of different flows, one after the other, link all of them. -/
theorem run_insertEach
    (linked : Linked bits state.table map) (idle : Idle state)
    {flows : List FlowEntry} (distinct : (flows.map key).Nodup)
    (absent : ∀ flow ∈ flows, key flow ∉ map) :
    ∃ result,
      run Concurrent.next state (insertEach state.calls.length flows) =
        some result ∧
      Idle result ∧
      (entries result.table).length =
        (entries state.table).length + flows.length := by
  induction flows generalizing state map with
  | nil => exact ⟨state, rfl, idle, rfl⟩
  | cons flow rest ih =>
      rw [List.map_cons, List.nodup_cons] at distinct
      have fresh := absent flow List.mem_cons_self
      rcases run_insertAlone linked idle fresh with
        ⟨middle, ranFlow, linkedMiddle, idleMiddle, calls, longer⟩
      have absentRest :=
        absent_of_nodup distinct.1 fun other member =>
          absent other (List.mem_cons_of_mem _ member)
      rcases ih linkedMiddle idleMiddle distinct.2 absentRest with
        ⟨result, ranRest, idleResult, length⟩
      refine ⟨result, ?_, idleResult, ?_⟩
      · rw [insertEach, run_append_eq_some_iff, ← calls]
        exact ⟨middle, ranFlow, ranRest⟩
      · rw [length, longer, List.length_cons]
        omega

end InsertEach

/-- `2 ^ 31` inserts, none of which is interrupted, link as many entries. -/
theorem exists_idle_numFlows_negative :
    ∃ state,
      run Concurrent.next (start (initTable true ⟨none, 0, 0⟩ 8).2)
          (insertEach 0 (manyFlows (2 ^ 31))) =
        some state ∧
      Idle state ∧
      (entries state.table).length = 2 ^ 31 ∧
      state.table.numFlows.toInt = -2 ^ 31 := by
  have success :
      initTable true ⟨none, 0, 0⟩ 8 =
        (true, (initTable true ⟨none, 0, 0⟩ 8).2) :=
    rfl
  have linked :
      Linked 8 (start (initTable true ⟨none, 0, 0⟩ 8).2).table ∅ :=
    (holds_initTable success).toLinked
  have idle : Idle (start (initTable true ⟨none, 0, 0⟩ 8).2) := by
    intro call member
    cases member
  have absent :
      ∀ flow ∈ manyFlows (2 ^ 31), key flow ∉ (∅ : FlowMap) := by
    intro flow _
    exact Finmap.notMem_empty
  rcases
      run_insertEach linked idle (manyFlows_nodup (by decide)) absent with
    ⟨state, ran, idleResult, length⟩
  rw [manyFlows_length] at length
  have empty :
      (entries (start (initTable true ⟨none, 0, 0⟩ 8).2).table).length =
        0 := by
    have lists :
        (start (initTable true ⟨none, 0, 0⟩ 8).2).table.lists =
          some (List.replicate (2 ^ 8) []) :=
      rfl
    rw [entries, lists, Option.getD_some, List.flatten_replicate_nil]
    rfl
  have entries_eq : (entries state.table).length = 2 ^ 31 := by
    rw [length, empty, Nat.zero_add]
  refine ⟨state, ran, idleResult, entries_eq, ?_⟩
  rw [idle_numFlows success ⟨_, ran⟩ idleResult, linkedEntries, entries_eq]
  rfl

end CodingExamples.FlowTracker.NumFlows
