import CodingExamples.FlowTracker.Concurrent
import CodingExamples.Library.History

/-!
# The order in which concurrent calls take effect

A call of `insert_table` or `delete_table` takes effect in one of its steps:
an insert when its scan finds the flow, when its allocation fails, or when it
adds the entry; a delete in its locked section.  As long as no insert is
overtaken between its scan and its addition, the calls return what a finite
map answers if it is asked in the order of these steps.
-/

namespace CodingExamples.FlowTracker.Linearization

open CodingExamples.Library.Execution
open CodingExamples.Library.History
open CodingExamples.FlowTracker.Table
open CodingExamples.FlowTracker.TableMap (FlowMap Linked Reply answer answerAll
  entries key holds_initTable)
open CodingExamples.FlowTracker.Concurrent

/-- A call that takes effect, as a request to the map, and its answer. -/
structure Effect where
  id : Nat
  request : TableMap.Request
  reply : Reply
deriving DecidableEq, Repr

/-- What a call asks of the map if it takes effect in its next step. -/
def asked (call : Call) (kmalloc : Bool) : TableMap.Request :=
  match call.request, call.phase with
  -- The step after the scan is the allocation; no other step uses `kmalloc`.
  | .insert flow, .scanned => .insert kmalloc flow
  | .insert flow, _ => .insert true flow
  | .delete flow, _ => .delete flow

/-- A step in which a call takes effect; an allocation may have failed. -/
def effectOf (id : Nat) (kmalloc : Bool) (request : Concurrent.Request)
    (before after : Phase) : List Effect :=
  match request, before, after with
  | .insert _, .entered, .returned false =>
      [⟨id, asked ⟨request, before⟩ kmalloc, .inserted false⟩]
  | .insert _, .scanned, .returned false =>
      [⟨id, asked ⟨request, before⟩ kmalloc, .inserted false⟩]
  | .insert _, .allocated, .linked =>
      [⟨id, asked ⟨request, before⟩ kmalloc, .inserted true⟩]
  | .delete _, .entered, .returned false =>
      [⟨id, asked ⟨request, before⟩ kmalloc, .deleted false⟩]
  | .delete _, .entered, .unlinked =>
      [⟨id, asked ⟨request, before⟩ kmalloc, .deleted true⟩]
  | _, _, _ => []

/-- What takes effect in a step of the system. -/
def effects (state : State) : Action → List Effect
  | .call _ => []
  | .step id kmalloc =>
      match state.calls[id]? with
      | none => []
      | some call =>
          match stepCall id kmalloc state.table call with
          | none => []
          | some result =>
              effectOf id kmalloc call.request call.phase result.phase

/-- The effect is one of the call, with that result. -/
def Effect.Answers (effect : Effect) (request : Concurrent.Request)
    (result : Bool) : Prop :=
  match request with
  | .insert flow =>
      effect.reply = .inserted result ∧
        ∃ kmalloc, effect.request = .insert kmalloc flow
  | .delete flow =>
      effect.reply = .deleted result ∧ effect.request = .delete flow

/--
The effect is that of a step of the run: it belongs to the call that takes
the step, asks what that call was made for, and depends on the allocation in
that step.
-/
def Effect.StepOf (effect : Effect) (table : FlowTable)
    (actions : List Action) : Prop :=
  ∃ before kmalloc after middle call,
    actions = before ++ .step effect.id kmalloc :: after ∧
      run Concurrent.next (start table) before = some middle ∧
      middle.calls[effect.id]? = some call ∧
      effect.request = asked call kmalloc

/-! ## Sequences of requests -/

theorem answerAll_append
    (map : FlowMap) (before after : List TableMap.Request) :
    answerAll map (before ++ after) =
      ((answerAll map before).1 ++
          (answerAll (answerAll map before).2 after).1,
        (answerAll (answerAll map before).2 after).2) := by
  induction before generalizing map with
  | nil => rfl
  | cons request rest ih =>
      rw [List.cons_append, answerAll, answerAll]
      dsimp only
      rw [ih]
      rfl

/-- A table holds the entries of one map only. -/
theorem eq_of_linked
    {bits : Nat} {table : FlowTable} {map other : FlowMap}
    (linked : Linked bits table map) (same : Linked bits table other) :
    map = other := by
  apply Finmap.ext_lookup
  intro flowKey
  have found := linked.searchTable_eq (flowKey.entry 0)
  rw [same.searchTable_eq] at found
  exact (Option.some.inj found).symm

/-! ## One step -/

/-- The requests that take effect are answered as by the map. -/
structure Served (bits : Nat) (map : FlowMap) (history : List Effect)
    (table : FlowTable) : Prop where
  replies :
    (answerAll map (history.map Effect.request)).1 =
      history.map Effect.reply
  linked :
    Linked bits table (answerAll map (history.map Effect.request)).2

theorem served_nothing
    {bits : Nat} {map : FlowMap} {table : FlowTable}
    (linked : Linked bits table map) : Served bits map [] table :=
  ⟨rfl, linked⟩

theorem served_single
    {bits : Nat} {map : FlowMap} {table : FlowTable}
    {id : Nat} {request : TableMap.Request} {reply : Reply}
    (replied : (answer map request).1 = reply)
    (linked : Linked bits table (answer map request).2) :
    Served bits map [⟨id, request, reply⟩] table :=
  ⟨by rw [← replied]; rfl, linked⟩

/-- One step of a call, on a table that holds a map. -/
theorem served_stepCall
    {bits : Nat} {table : FlowTable} {map : FlowMap}
    (linked : Linked bits table map) {id : Nat} {kmalloc : Bool}
    {call : Call} {result : StepResult}
    (absent :
      ∀ flow, call = ⟨.insert flow, .allocated⟩ → key flow ∉ map)
    (step : stepCall id kmalloc table call = some result) :
    Served bits map
      (effectOf id kmalloc call.request call.phase result.phase)
      result.table := by
  rcases call with ⟨request, phase⟩
  cases request with
  | insert flow =>
      cases phase with
      | entered =>
          simp only [stepCall, linked.isNone_eq,
            linked.scanDuplicate_eq] at step
          by_cases present : key flow ∈ map
          · simp only [present, decide_true] at step
            cases step
            have failed : ¬ (key flow ∉ map ∧ (true : Bool)) :=
              fun fresh => fresh.1 present
            apply served_single
            · dsimp only [asked]
              rw [answer, if_neg failed]
            · dsimp only [asked]
              rw [answer, if_neg failed]
              exact linked
          · simp only [present, decide_false] at step
            cases step
            exact served_nothing linked
      | scanned =>
          cases kmalloc with
          | false =>
              cases step
              have failed : ¬ (key flow ∉ map ∧ (false : Bool)) :=
                fun fresh => Bool.false_ne_true fresh.2
              apply served_single
              · dsimp only [asked]
                rw [answer, if_neg failed]
              · dsimp only [asked]
                rw [answer, if_neg failed]
                exact linked
          | true =>
              cases step
              exact served_nothing linked
      | allocated =>
          have fresh := absent flow rfl
          rcases linked.addHead_eq fresh with ⟨added, stored, grown, _⟩
          simp only [stepCall, stored, Option.bind_eq_bind,
            Option.bind_some] at step
          cases step
          have succeeds : key flow ∉ map ∧ (true : Bool) :=
            ⟨fresh, rfl⟩
          apply served_single
          · dsimp only [asked]
            rw [answer, if_pos succeeds]
          · dsimp only [asked]
            rw [answer, if_pos succeeds]
            exact grown
      | linked =>
          cases step
          exact served_nothing (linked.addNumFlows 1)
      | unlinked => cases step
      | returned result => cases step
  | delete flow =>
      cases phase with
      | entered =>
          simp only [stepCall, linked.isNone_eq] at step
          by_cases present : key flow ∈ map
          · rcases linked.findAndDelete_of_mem present with
              ⟨rest, removed, erased, _⟩
            rw [removed] at step
            cases step
            apply served_single
            · dsimp only [asked]
              rw [answer, if_pos present]
            · dsimp only [asked]
              rw [answer, if_pos present]
              exact erased
          · rw [linked.findAndDelete_of_notMem present] at step
            cases step
            apply served_single
            · dsimp only [asked]
              rw [answer, if_neg present]
            · dsimp only [asked]
              rw [answer, if_neg present]
              exact linked
      | unlinked =>
          cases step
          exact served_nothing (linked.addNumFlows (-1))
      | scanned => cases step
      | allocated => cases step
      | linked => cases step
      | returned result => cases step

/-! ## What has taken effect -/

/-- The phases that a step of a call leads through. -/
inductive Moves : Concurrent.Request → Phase → Phase → Prop where
  | duplicate (flow : FlowEntry) :
      Moves (.insert flow) .entered (.returned false)
  | scan (flow : FlowEntry) : Moves (.insert flow) .entered .scanned
  | exhausted (flow : FlowEntry) :
      Moves (.insert flow) .scanned (.returned false)
  | allocate (flow : FlowEntry) : Moves (.insert flow) .scanned .allocated
  | add (flow : FlowEntry) : Moves (.insert flow) .allocated .linked
  | increment (flow : FlowEntry) :
      Moves (.insert flow) .linked (.returned true)
  | missing (flow : FlowEntry) :
      Moves (.delete flow) .entered (.returned false)
  | remove (flow : FlowEntry) : Moves (.delete flow) .entered .unlinked
  | decrement (flow : FlowEntry) :
      Moves (.delete flow) .unlinked (.returned true)

theorem moves_of_stepCall
    {table : FlowTable} {id : Nat} {kmalloc : Bool} {call : Call}
    {result : StepResult}
    (step : stepCall id kmalloc table call = some result) :
    Moves call.request call.phase result.phase := by
  rcases call with ⟨request, phase⟩
  cases request with
  | insert flow =>
      cases phase with
      | entered =>
          unfold stepCall at step
          dsimp only at step
          split at step
          · cases step
            exact .duplicate flow
          · rw [Option.bind_eq_bind, Option.bind_eq_some_iff] at step
            rcases step with ⟨duplicate, _, step⟩
            split at step
            · cases step
              exact .duplicate flow
            · cases step
              exact .scan flow
      | scanned =>
          cases kmalloc with
          | false =>
              cases step
              exact .exhausted flow
          | true =>
              cases step
              exact .allocate flow
      | allocated =>
          simp only [stepCall, Option.bind_eq_bind,
            Option.bind_eq_some_iff] at step
          rcases step with ⟨added, _, step⟩
          cases step
          exact .add flow
      | linked =>
          cases step
          exact .increment flow
      | unlinked => cases step
      | returned result => cases step
  | delete flow =>
      cases phase with
      | entered =>
          unfold stepCall at step
          dsimp only at step
          split at step
          · cases step
            exact .missing flow
          · rw [Option.bind_eq_bind, Option.bind_eq_some_iff] at step
            rcases step with ⟨⟨deleted, rest⟩, _, step⟩
            dsimp only at step
            split at step
            · cases step
              exact .remove flow
            · cases step
              exact .missing flow
      | unlinked =>
          cases step
          exact .decrement flow
      | scanned => cases step
      | allocated => cases step
      | linked => cases step
      | returned result => cases step

/-- What the history says about a call in one of its phases. -/
def Placed (history : List Effect) (id : Nat) (call : Call) : Prop :=
  match call.phase with
  | .entered | .scanned | .allocated => id ∉ history.map Effect.id
  | .linked | .unlinked =>
      ∃ effect ∈ history, effect.id = id ∧ effect.Answers call.request true
  | .returned result =>
      ∃ effect ∈ history, effect.id = id ∧ effect.Answers call.request result

/-- What takes effect in other calls does not matter. -/
theorem Placed.append
    {history new : List Effect} {id : Nat} {call : Call}
    (placed : Placed history id call) (others : ∀ effect ∈ new, effect.id ≠ id) :
    Placed (history ++ new) id call := by
  have absent (before : id ∉ history.map Effect.id) :
      id ∉ (history ++ new).map Effect.id := by
    rw [List.map_append, List.mem_append]
    rintro (member | member)
    · exact before member
    · rcases List.mem_map.mp member with ⟨effect, inside, same⟩
      exact others effect inside same
  have present {result : Bool}
      (before :
        ∃ effect ∈ history,
          effect.id = id ∧ effect.Answers call.request result) :
      ∃ effect ∈ history ++ new,
        effect.id = id ∧ effect.Answers call.request result := by
    rcases before with ⟨effect, member, answers⟩
    exact ⟨effect, List.mem_append_left _ member, answers⟩
  unfold Placed at *
  cases phase : call.phase with
  | entered => rw [phase] at placed; exact absent placed
  | scanned => rw [phase] at placed; exact absent placed
  | allocated => rw [phase] at placed; exact absent placed
  | linked => rw [phase] at placed; exact present placed
  | unlinked => rw [phase] at placed; exact present placed
  | returned result => rw [phase] at placed; exact present placed

/-- An effect is one of the call that takes the step. -/
theorem eq_of_mem_effectOf
    {id : Nat} {kmalloc : Bool} {request : Concurrent.Request}
    {before after : Phase} {effect : Effect}
    (member : effect ∈ effectOf id kmalloc request before after) :
    effect.id = id ∧ effect.request = asked ⟨request, before⟩ kmalloc := by
  unfold effectOf at member
  split at member
  case h_6 => cases member
  all_goals
    rw [List.mem_singleton] at member
    rw [member]
    exact ⟨rfl, rfl⟩

/-- Every effect of a run is that of one of its steps. -/
theorem stepOf_of_mem_emitted
    {table : FlowTable} {actions : List Action} {final : State}
    (ran : run Concurrent.next (start table) actions = some final)
    {effect : Effect}
    (member :
      effect ∈ emitted Concurrent.next effects (start table) actions) :
    effect.StepOf table actions := by
  rcases exists_step_of_mem_emitted ran member with
    ⟨before, action, after, middle, split, ranBefore, given⟩
  cases action with
  | call request => cases given
  | step id kmalloc =>
      rw [effects] at given
      split at given
      case h_1 => cases given
      case h_2 call found =>
        split at given
        case h_1 => cases given
        case h_2 =>
          rcases eq_of_mem_effectOf given with ⟨rfl, request⟩
          exact
            ⟨before, kmalloc, after, middle, call, split, ranBefore, found,
              request⟩

/-- A step either has no effect, or it is the one in which the call has it. -/
inductive Takes (history : List Effect) (id : Nat) (kmalloc : Bool)
    (request : Concurrent.Request) (before after : Phase) : Prop where
  | nothing (silent : effectOf id kmalloc request before after = [])
      (kept : Placed history id ⟨request, after⟩)
  | effect {effect : Effect} (own : effect.id = id)
      (takes : effectOf id kmalloc request before after = [effect])
      (fresh : id ∉ history.map Effect.id)
      (now : Placed (history ++ [effect]) id ⟨request, after⟩)

theorem Moves.takes
    {request : Concurrent.Request} {before after : Phase}
    (moves : Moves request before after) {history : List Effect} {id : Nat}
    (kmalloc : Bool) (placed : Placed history id ⟨request, before⟩) :
    Takes history id kmalloc request before after := by
  have last (effect : Effect) : effect ∈ history ++ [effect] :=
    List.mem_append_right _ List.mem_cons_self
  cases moves with
  | duplicate flow =>
      exact .effect rfl rfl placed ⟨_, last _, rfl, rfl, _, rfl⟩
  | scan flow => exact .nothing rfl placed
  | exhausted flow =>
      exact .effect rfl rfl placed ⟨_, last _, rfl, rfl, _, rfl⟩
  | allocate flow => exact .nothing rfl placed
  | add flow => exact .effect rfl rfl placed ⟨_, last _, rfl, rfl, _, rfl⟩
  | increment flow => exact .nothing rfl placed
  | missing flow => exact .effect rfl rfl placed ⟨_, last _, rfl, rfl, rfl⟩
  | remove flow => exact .effect rfl rfl placed ⟨_, last _, rfl, rfl, rfl⟩
  | decrement flow => exact .nothing rfl placed

section Takes

variable {history : List Effect} {id : Nat} {kmalloc : Bool}
  {request : Concurrent.Request} {before after : Phase}

theorem Takes.placed
    (takes : Takes history id kmalloc request before after) :
    Placed (history ++ effectOf id kmalloc request before after) id
      ⟨request, after⟩ := by
  cases takes with
  | nothing silent kept =>
      rw [silent, List.append_nil]
      exact kept
  | effect own takes fresh now =>
      rw [takes]
      exact now

/-- No call takes effect twice. -/
theorem Takes.nodup
    (takes : Takes history id kmalloc request before after)
    (nodup : (history.map Effect.id).Nodup) :
    ((history ++
      effectOf id kmalloc request before after).map Effect.id).Nodup := by
  cases takes with
  | nothing silent kept =>
      rw [silent, List.append_nil]
      exact nodup
  | effect own takes fresh now =>
      rw [takes, List.map_append, List.map_singleton, own]
      apply nodup.append (List.nodup_singleton id)
      rw [List.disjoint_singleton]
      exact fresh

end Takes

/-- The step of one call, with what takes effect in it. -/
theorem placed_set
    {history new : List Effect} {calls : List Call}
    (placed :
      ∀ id call, calls[id]? = some call → Placed history id call)
    {id : Nat} {call : Call} (own : Placed (history ++ new) id call)
    (newOwn : ∀ effect ∈ new, effect.id = id) :
    ∀ other found, (calls.set id call)[other]? = some found →
      Placed (history ++ new) other found := by
  intro other found atOther
  rw [List.getElem?_set] at atOther
  split at atOther
  case isTrue same =>
    split at atOther
    · cases atOther
      rw [← same]
      exact own
    · cases atOther
  case isFalse different =>
    apply (placed other found atOther).append
    intro effect member same
    exact different ((newOwn effect member).symm.trans same)

/-! ## All steps -/

/-- The history is a sequential run of the map that the table holds. -/
structure Linearized (bits : Nat) (history : List Effect) (state : State) :
    Prop where
  tracked :
    Tracked bits state (answerAll ∅ (history.map Effect.request)).2
  replies :
    (answerAll ∅ (history.map Effect.request)).1 = history.map Effect.reply
  nodup : (history.map Effect.id).Nodup
  inside : ∀ effect ∈ history, effect.id < state.calls.length
  placed :
    ∀ id call, state.calls[id]? = some call → Placed history id call

theorem Linearized.start
    {bits : Nat} {table : FlowTable} (linked : Linked bits table ∅) :
    Linearized bits [] (start table) where
  tracked := Tracked.initial linked
  replies := rfl
  nodup := List.nodup_nil
  inside := by
    intro effect member
    cases member
  placed := by
    intro id call found
    cases found

/-- The requests that take effect follow those that already have. -/
theorem Served.append
    {bits : Nat} {history new : List Effect} {table : FlowTable}
    (replies :
      (answerAll ∅ (history.map Effect.request)).1 =
        history.map Effect.reply)
    (served :
      Served bits (answerAll ∅ (history.map Effect.request)).2 new table) :
    Served bits ∅ (history ++ new) table := by
  constructor
  · rw [List.map_append, List.map_append, answerAll_append]
    dsimp only
    rw [replies, served.replies]
  · rw [List.map_append, answerAll_append]
    exact served.linked

theorem Linearized.call
    {bits : Nat} {history : List Effect} {state : State}
    (linearized : Linearized bits history state)
    (request : Concurrent.Request) :
    Linearized bits history
      { state with calls := state.calls ++ [⟨request, .entered⟩] } where
  tracked := by
    have tracked := linearized.tracked
    exact
      ⟨tracked.linked, tracked.lastAdded_eq, tracked.fresh,
        recorded_call tracked.recorded request⟩
  replies := linearized.replies
  nodup := linearized.nodup
  inside := by
    intro effect member
    have before := linearized.inside effect member
    rw [List.length_append]
    exact Nat.lt_add_right _ before
  placed := by
    intro id call found
    rw [List.getElem?_append] at found
    split at found
    case isTrue => exact linearized.placed id call found
    case isFalse new =>
      rw [List.getElem?_singleton] at found
      split at found
      · cases found
        -- A call that has just been made has a number of its own.
        intro member
        rcases List.mem_map.mp member with ⟨effect, inside, rfl⟩
        exact new (linearized.inside effect inside)
      · cases found

/-- A step of the system, with what takes effect in it. -/
theorem Linearized.next
    {bits : Nat} {history : List Effect} {state result : State}
    {action : Action} (linearized : Linearized bits history state)
    (notOvertaken : NotOvertaken state action)
    (step : Concurrent.next state action = some result) :
    Linearized bits (history ++ effects state action) result := by
  cases action with
  | call request =>
      cases step
      rw [effects, List.append_nil]
      exact linearized.call request
  | step id kmalloc =>
      rcases linearized.tracked.next notOvertaken step with
        ⟨changed, tracked⟩
      simp only [Concurrent.next, Option.bind_eq_bind,
        Option.bind_eq_some_iff] at step
      rcases step with ⟨call, found, outcome, stepped, final⟩
      cases final
      have effective :
          effects state (.step id kmalloc) =
            effectOf id kmalloc call.request call.phase outcome.phase := by
        rw [effects, found]
        dsimp only
        rw [stepped]
      have takes :=
        (moves_of_stepCall stepped).takes kmalloc
          (linearized.placed id call found)
      have own :
          ∀ effect ∈
              effectOf id kmalloc call.request call.phase outcome.phase,
            effect.id = id :=
        fun effect member => (eq_of_mem_effectOf member).1
      have served :
          Served bits ∅
            (history ++
              effectOf id kmalloc call.request call.phase outcome.phase)
            outcome.table := by
        apply Served.append linearized.replies
        apply served_stepCall linearized.tracked.linked _ stepped
        rintro flow rfl
        exact
          linearized.tracked.absent_of_notOvertaken found
            (notOvertaken flow found)
      have bound : id < state.calls.length :=
        (List.getElem?_eq_some_iff.mp found).1
      rw [effective]
      constructor
      case tracked =>
        rw [eq_of_linked served.linked tracked.linked]
        exact tracked
      case replies => exact served.replies
      case nodup => exact takes.nodup linearized.nodup
      case inside =>
        intro effect member
        show effect.id < (state.calls.set id _).length
        rw [List.length_set]
        rcases List.mem_append.mp member with old | new
        · exact linearized.inside effect old
        · rw [own effect new]
          exact bound
      case placed => exact placed_set linearized.placed takes.placed own

theorem linearized_run
    {bits : Nat} {table : FlowTable} (linked : Linked bits table ∅)
    {actions : List Action} {final : State}
    (along : Along Concurrent.next NotOvertaken (start table) actions)
    (ran : run Concurrent.next (start table) actions = some final) :
    Linearized bits (emitted Concurrent.next effects (start table) actions)
      final := by
  apply emitted_invariant _ (Linearized.start linked) along ran
  intro history state action result linearized notOvertaken step
  exact linearized.next notOvertaken step

/--
In every run in which no insert is overtaken, the calls that have taken
effect return what a finite map answers to them in the order of their
effects, and the table holds that map.  Every effect is that of a step of its
call, and an insert that fails without finding its flow is one whose
allocation failed in that step.  Every call that has returned took effect
once, with the result that it returned; and at every moment, the calls that
have returned by then take effect before those that are made later.
-/
theorem run_linearizable
    (vmalloc : Bool) (table initialised : FlowTable) (bits : Nat)
    (success : initTable vmalloc table bits = (true, initialised))
    (actions : List Action) (final : State)
    (ran : run Concurrent.next (start initialised) actions = some final)
    (along :
      Along Concurrent.next NotOvertaken (start initialised) actions) :
    ∃ history : List Effect,
      (answerAll ∅ (history.map Effect.request)).1 =
          history.map Effect.reply ∧
        (∀ flow,
          searchTable final.table flow =
            some
              ((answerAll ∅ (history.map Effect.request)).2.lookup
                (key flow))) ∧
        (∀ effect ∈ history, effect.StepOf initialised actions) ∧
        (history.map Effect.id).Nodup ∧
        (∀ id request result,
          final.calls[id]? = some ⟨request, .returned result⟩ →
            ∃ effect ∈ history,
              effect.id = id ∧ effect.Answers request result) ∧
        ∀ before after middle,
          actions = before ++ after →
            run Concurrent.next (start initialised) before = some middle →
              ∃ first second,
                history = first ++ second ∧
                  (∀ id request result,
                    middle.calls[id]? = some ⟨request, .returned result⟩ →
                      id ∈ first.map Effect.id) ∧
                  ∀ effect ∈ first, effect.id < middle.calls.length := by
  have linked := (holds_initTable success).toLinked
  have whole := linearized_run linked along ran
  refine
    ⟨emitted Concurrent.next effects (start initialised) actions,
      whole.replies, whole.tracked.linked.searchTable_eq, ?_, whole.nodup,
      ?_, ?_⟩
  · intro effect member
    exact stepOf_of_mem_emitted ran member
  · intro id request result returned
    exact whole.placed id _ returned
  · rintro before after middle rfl ranBefore
    have part := linearized_run linked along.take ranBefore
    refine
      ⟨_, _, emitted_append ranBefore after, ?_, part.inside⟩
    intro id request result returned
    rcases part.placed id _ returned with ⟨effect, member, same, _⟩
    exact List.mem_map.mpr ⟨effect, member, same⟩

/-! ## An insert and a delete of one flow -/

def isAdded : Event → Bool
  | .added _ _ => true
  | .scanned _ _ | .removed _ _ => false

/-- Nothing has been added yet, or no insert is about to add anything. -/
def Unhurried (state : State) : Prop :=
  state.log.any isAdded = true →
    ∀ call ∈ state.calls, call.phase ≠ .allocated

instance (state : State) : Decidable (Unhurried state) :=
  inferInstanceAs (Decidable (_ → _))

theorem Unhurried.notOvertaken
    {state : State} (unhurried : Unhurried state) (action : Action) :
    NotOvertaken state action := by
  cases action with
  | call request => trivial
  | step id kmalloc =>
      rintro flow allocated ⟨before, after, split, linked⟩
      have nothing : lastAdded after (key flow) = false := by
        apply lastAdded_eq_false
        intro other added member
        have anyAdded : state.log.any isAdded = true := by
          rw [List.any_eq_true]
          refine ⟨.added other added, ?_, rfl⟩
          rw [split]
          exact List.mem_append_right _ (List.mem_cons_of_mem _ member)
        exact
          absurd rfl
            (unhurried anyAdded _ (List.mem_of_getElem? allocated))
      rw [nothing] at linked
      cases linked

/-- The delete comes between the scan and the addition of the insert. -/
def crossing : List Action :=
  [.call (.insert ⟨1, 2, 3, 4, 60⟩), .step 0 true,
    .call (.delete ⟨1, 2, 3, 4, 0⟩), .step 1 true, .step 0 true,
    .step 0 true, .step 0 true]

theorem run_linearizable_crossing :
    ∃ (final : State) (history : List Effect),
      run Concurrent.next (start (initTable true ⟨none, 0, 0⟩ 0).2)
          crossing = some final ∧
        final.calls[1]? =
          some ⟨.delete ⟨1, 2, 3, 4, 0⟩, .returned false⟩ ∧
        (answerAll ∅ (history.map Effect.request)).1 =
          history.map Effect.reply ∧
        (∀ effect ∈ history,
          effect.StepOf (initTable true ⟨none, 0, 0⟩ 0).2 crossing) ∧
        ∃ effect ∈ history,
          effect.id = 1 ∧
            effect.Answers (.delete ⟨1, 2, 3, 4, 0⟩) false := by
  have success :
      initTable true ⟨none, 0, 0⟩ 0 =
        (true, (initTable true ⟨none, 0, 0⟩ 0).2) :=
    rfl
  have unhurried :
      Along Concurrent.next (fun state _ => Unhurried state)
        (start (initTable true ⟨none, 0, 0⟩ 0).2) crossing := by
    decide +kernel
  have along :
      Along Concurrent.next NotOvertaken
        (start (initTable true ⟨none, 0, 0⟩ 0).2) crossing := by
    intro before action after state split ran
    exact (unhurried before action after state split ran).notOvertaken action
  have ran :
      ∃ final,
        run Concurrent.next (start (initTable true ⟨none, 0, 0⟩ 0).2)
            crossing = some final ∧
          final.calls[1]? =
            some ⟨.delete ⟨1, 2, 3, 4, 0⟩, .returned false⟩ :=
    ⟨_, rfl, rfl⟩
  rcases ran with ⟨final, ran, returned⟩
  rcases run_linearizable true ⟨none, 0, 0⟩ _ 0 success crossing final ran
      along with
    ⟨history, replies, -, steps, -, placed, -⟩
  exact
    ⟨final, history, ran, returned, replies, steps,
      placed 1 _ _ returned⟩

end CodingExamples.FlowTracker.Linearization
