import CodingExamples.IncastNs2.Group
import Mathlib.Tactic.Ring

/-!
# The rounds of an incast group

After `schedule` the trace of a group consists of whole rounds, each closed by
the line that is printed for it, and of the round that is under way.  The
counter of `fin_notify` is the number of connections that are neither waiting
nor running, so that a round is closed by the last `done_data` and by no
earlier one; the next round starts with nothing pending.
-/

namespace CodingExamples.IncastNs2.Rounds

open CodingExamples.Library
open CodingExamples.Library.Barrier (Complete Step Underway)
open CodingExamples.Library.Execution
open CodingExamples.IncastNs2.Group

/-- The start of a round, followed by some of its steps. -/
def opened (commands : List Send) (steps : List (Step Send)) : List Entry :=
  commands.map Entry.issued ++ steps.map Entry.transfer

/-- Whole rounds, reported with descending numbers. -/
def rounds (commands : List Send) : Int → List (List (Step Send)) → List Entry
  | _, [] => []
  | numIter, steps :: rest =>
      opened commands steps ++ .report numIter ::
        rounds commands (numIter - 1) rest

theorem rounds_concat
    (commands : List Send) (numIter : Int)
    (completed : List (List (Step Send))) (steps : List (Step Send)) :
    rounds commands numIter (completed ++ [steps]) =
      rounds commands numIter completed ++ opened commands steps ++
        [.report (numIter - completed.length)] := by
  induction completed generalizing numIter with
  | nil => simp [rounds]
  | cons first rest ih =>
      have number :
          numIter - 1 - (rest.length : Int) =
            numIter - (first :: rest).length := by
        rw [List.length_cons]
        omega
      rw [List.cons_append, rounds, ih, number, rounds]
      simp only [List.append_assoc, List.cons_append]

theorem opened_concat
    (commands : List Send) (steps : List (Step Send)) (step : Step Send) :
    opened commands (steps ++ [step]) =
      opened commands steps ++ [.transfer step] := by
  simp [opened]

/-! ## The invariant -/

section Invariant

variable (past : List Entry) (numPairs numBytes iter : Nat)

/-- A round is under way after the completed ones. -/
structure InRound (completed : List (List (Step Send)))
    (steps : List (Step Send)) (state : State) : Prop where
  numPairs_eq : state.numPairs = numPairs
  totNumBytes_eq : state.totNumBytes = numPairs * numBytes
  warmupMode_eq : state.warmupMode = false
  numIter_eq : state.numIter = iter - completed.length
  running : state.exited = false
  complete : ∀ steps ∈ completed, Complete (sends numPairs numBytes) steps
  left : completed.length < iter
  underway :
    Underway (sends numPairs numBytes) steps state.pending state.unfinished
  /-- The counter and what is not finished. -/
  counted :
    state.finPairs + (state.pending.length + state.unfinished.length) =
      numPairs
  work : 0 < state.pending.length + state.unfinished.length
  trace_eq :
    state.trace =
      past ++ rounds (sends numPairs numBytes) iter completed ++
        opened (sends numPairs numBytes) steps

/-- All rounds have been reported. -/
structure Finished (completed : List (List (Step Send))) (state : State) :
    Prop where
  exited : state.exited = true
  complete : ∀ steps ∈ completed, Complete (sends numPairs numBytes) steps
  all : completed.length = iter
  trace_eq :
    state.trace =
      past ++ rounds (sends numPairs numBytes) iter completed

/-- The states of a group that runs its rounds. -/
inductive Scheduled (state : State) : Prop where
  | inRound (completed : List (List (Step Send))) (steps : List (Step Send))
      (inside : InRound past numPairs numBytes iter completed steps state)
  | finished (completed : List (List (Step Send)))
      (finished : Finished past numPairs numBytes iter completed state)

end Invariant

variable {past : List Entry} {numPairs numBytes iter : Nat}

@[simp]
theorem length_sends (numPairs numBytes : Nat) :
    (sends numPairs numBytes).length = numPairs := by
  simp [sends]

/-- `send_per_pair` opens a round when nothing is pending. -/
theorem inRound_sendPerPair
    {completed : List (List (Step Send))} {state : State}
    (positive : 1 ≤ numPairs)
    (numPairs_eq : state.numPairs = numPairs)
    (totNumBytes_eq : state.totNumBytes = numPairs * numBytes)
    (warmupMode_eq : state.warmupMode = false)
    (numIter_eq : state.numIter = iter - completed.length)
    (running : state.exited = false)
    (complete :
      ∀ steps ∈ completed, Complete (sends numPairs numBytes) steps)
    (left : completed.length < iter)
    (pending : state.pending = []) (unfinished : state.unfinished = [])
    (trace_eq :
      state.trace =
        past ++ rounds (sends numPairs numBytes) iter completed) :
    InRound past numPairs numBytes iter completed []
      (sendPerPair state numBytes) where
  numPairs_eq := numPairs_eq
  totNumBytes_eq := totNumBytes_eq
  warmupMode_eq := warmupMode_eq
  numIter_eq := numIter_eq
  running := running
  complete := complete
  left := left
  underway := by
    have opening := Underway.start (sends numPairs numBytes)
    simpa [sendPerPair, pending, unfinished, numPairs_eq] using opening
  counted := by
    simp [sendPerPair, pending, unfinished, numPairs_eq]
  work := by
    have nonempty : 0 < numPairs := positive
    simpa [sendPerPair, pending, unfinished, numPairs_eq] using nonempty
  trace_eq := by
    simp [sendPerPair, trace_eq, numPairs_eq, opened]

/-! ## One event -/

/-- A command runs. -/
theorem InRound.send
    {completed : List (List (Step Send))} {steps : List (Step Send)}
    {state : State}
    (inside : InRound past numPairs numBytes iter completed steps state)
    {command : Send} (waits : command ∈ state.pending) :
    InRound past numPairs numBytes iter completed
      (steps ++ [.start command]) (Group.send state command) where
  numPairs_eq := inside.numPairs_eq
  totNumBytes_eq := inside.totNumBytes_eq
  warmupMode_eq := inside.warmupMode_eq
  numIter_eq := inside.numIter_eq
  running := inside.running
  complete := inside.complete
  left := inside.left
  underway := inside.underway.startTask waits
  counted := by
    have shorter := List.length_erase_add_one waits
    have counted := inside.counted
    change
      state.finPairs + ((state.pending.erase command).length +
        (state.unfinished.length + 1)) = numPairs
    omega
  work := by
    change
      0 < (state.pending.erase command).length + (state.unfinished.length + 1)
    omega
  trace_eq := by
    change state.trace ++ [.transfer (.start command)] = _
    rw [inside.trace_eq, opened_concat]
    simp only [List.append_assoc]

section DoneData

variable {completed : List (List (Step Send))} {steps : List (Step Send)}
  {state : State} {command : Send}

theorem InRound.trace_finish
    (inside : InRound past numPairs numBytes iter completed steps state)
    (command : Send) :
    state.trace ++ [.transfer (.finish command)] =
      past ++ rounds (sends numPairs numBytes) iter completed ++
        opened (sends numPairs numBytes) (steps ++ [.finish command]) := by
  rw [inside.trace_eq, opened_concat]
  simp only [List.append_assoc]

/-- The last transfer finishes when nothing else is left. -/
theorem InRound.nothing_left
    (inside : InRound past numPairs numBytes iter completed steps state)
    (runs : command ∈ state.unfinished)
    (last : state.finPairs + 1 = numPairs) :
    state.pending = [] ∧ state.unfinished.erase command = [] := by
  have shorter := List.length_erase_add_one runs
  have counted := inside.counted
  constructor
  · apply List.eq_nil_of_length_eq_zero
    omega
  · apply List.eq_nil_of_length_eq_zero
    omega

/-- A transfer finishes before the last one. -/
theorem InRound.doneData_early
    (inside : InRound past numPairs numBytes iter completed steps state)
    (runs : command ∈ state.unfinished)
    (early : state.finPairs + 1 ≠ numPairs) :
    InRound past numPairs numBytes iter completed
      (steps ++ [.finish command]) (Group.doneData state command) := by
  have shorter := List.length_erase_add_one runs
  have counted := inside.counted
  have counts :
      state.finPairs + 1 + (state.pending.length +
        (state.unfinished.erase command).length) = numPairs := by
    omega
  have work :
      0 < state.pending.length + (state.unfinished.erase command).length := by
    omega
  rw [doneData_of_ne command (inside.numPairs_eq ▸ early)]
  exact
    { inside with
      underway := inside.underway.finishTask runs
      counted := counts
      work := work
      trace_eq := inside.trace_finish command }

/-- The last transfer closes the round, and starts the next one or exits. -/
theorem InRound.doneData_last
    (positive : 1 ≤ numPairs)
    (inside : InRound past numPairs numBytes iter completed steps state)
    (runs : command ∈ state.unfinished)
    (last : state.finPairs + 1 = numPairs) :
    Scheduled past numPairs numBytes iter (Group.doneData state command) := by
  rcases inside.nothing_left runs last with ⟨pending, unfinished⟩
  have underway := inside.underway.finishTask runs
  rw [pending, unfinished] at underway
  have complete :
      ∀ round ∈ completed ++ [steps ++ [.finish command]],
        Complete (sends numPairs numBytes) round := by
    intro round member
    rcases List.mem_append.mp member with member | member
    · exact inside.complete round member
    · rw [List.mem_singleton.mp member]
      exact underway.complete
  have reported :
      state.trace ++ [.transfer (.finish command)] ++
          [.report state.numIter] =
        past ++
          rounds (sends numPairs numBytes) iter
            (completed ++ [steps ++ [.finish command]]) := by
    rw [inside.trace_finish, inside.numIter_eq, rounds_concat]
    simp only [List.append_assoc]
  have number := inside.numIter_eq
  have left := inside.left
  rw [doneData_of_eq command (inside.numPairs_eq ▸ last)
    inside.warmupMode_eq]
  by_cases more : state.numIter - 1 > 0
  · have share : state.totNumBytes / state.numPairs = numBytes := by
      rw [inside.totNumBytes_eq, inside.numPairs_eq]
      exact Nat.mul_div_cancel_left numBytes positive
    simp only [if_pos more, share]
    refine
      .inRound _ []
        (inRound_sendPerPair positive inside.numPairs_eq
          inside.totNumBytes_eq inside.warmupMode_eq ?_ inside.running
          complete ?_ pending unfinished reported)
    · change state.numIter - 1 = _
      rw [List.length_append, List.length_singleton]
      omega
    · rw [List.length_append, List.length_singleton]
      omega
  · simp only [if_neg more]
    refine .finished _ ⟨rfl, complete, ?_, reported⟩
    rw [List.length_append, List.length_singleton]
    omega

theorem InRound.doneData
    (positive : 1 ≤ numPairs)
    (inside : InRound past numPairs numBytes iter completed steps state)
    (runs : command ∈ state.unfinished) :
    Scheduled past numPairs numBytes iter (Group.doneData state command) := by
  by_cases last : state.finPairs + 1 = numPairs
  · exact inside.doneData_last positive runs last
  · exact .inRound _ _ (inside.doneData_early runs last)

end DoneData

/-! ## Runs -/

/-- The number of events until the group exits. -/
def remaining (state : State) : Nat :=
  if state.exited then
    0
  else
    2 * state.pending.length + state.unfinished.length +
      2 * state.numPairs * (state.numIter - 1).toNat

theorem remaining_of_running {state : State} (running : state.exited = false) :
    remaining state =
      2 * state.pending.length + state.unfinished.length +
        2 * state.numPairs * (state.numIter - 1).toNat := by
  rw [remaining, running]
  rfl

theorem remaining_send
    {state : State} {command : Send} (running : state.exited = false)
    (waits : command ∈ state.pending) :
    remaining (Group.send state command) + 1 = remaining state := by
  have shorter := List.length_erase_add_one waits
  have after : (Group.send state command).exited = false := running
  rw [remaining_of_running running, remaining_of_running after]
  change
    2 * (state.pending.erase command).length +
      (state.unfinished.length + 1) +
        2 * state.numPairs * (state.numIter - 1).toNat + 1 = _
  omega

theorem remaining_doneData
    {completed : List (List (Step Send))} {steps : List (Step Send)}
    {state : State}
    (inside : InRound past numPairs numBytes iter completed steps state)
    {command : Send} (runs : command ∈ state.unfinished) :
    remaining (Group.doneData state command) + 1 = remaining state := by
  have shorter := List.length_erase_add_one runs
  have counted := inside.counted
  rw [remaining_of_running inside.running]
  by_cases last : state.finPairs + 1 = numPairs
  · rcases inside.nothing_left runs last with ⟨pending, unfinished⟩
    have single : state.unfinished.length = 1 := by
      rw [← shorter, unfinished]
      rfl
    rw [doneData_of_eq command (inside.numPairs_eq ▸ last)
      inside.warmupMode_eq, pending, single]
    by_cases more : state.numIter - 1 > 0
    · have fewer :
          (state.numIter - 1).toNat = (state.numIter - 1 - 1).toNat + 1 := by
        omega
      simp only [remaining, sendPerPair, if_pos more, inside.running,
        Bool.false_eq_true, if_false, unfinished, List.nil_append,
        List.length_nil, length_sends, fewer]
      ring
    · have noRounds : (state.numIter - 1).toNat = 0 := by
        omega
      simp only [if_neg more]
      rw [noRounds]
      rfl
  · rw [doneData_of_ne command (inside.numPairs_eq ▸ last)]
    simp only [remaining, inside.running, Bool.false_eq_true, if_false]
    omega

/-- Every event is a step towards the exit. -/
theorem Scheduled.step
    (positive : 1 ≤ numPairs) {state result : State} {event : Event}
    (scheduled : Scheduled past numPairs numBytes iter state)
    (step : next state event = some result) :
    Scheduled past numPairs numBytes iter result ∧
      remaining result < remaining state := by
  rcases next_eq_some_iff.mp step with
    ⟨running, ⟨command, waits, _, rfl⟩ | ⟨command, runs, _, rfl⟩⟩
  · cases scheduled with
    | finished completed finished =>
        rw [finished.exited] at running
        cases running
    | inRound completed steps inside =>
        exact
          ⟨.inRound _ _ (inside.send waits),
            Nat.lt_of_succ_le (remaining_send running waits).le⟩
  · cases scheduled with
    | finished completed finished =>
        rw [finished.exited] at running
        cases running
    | inRound completed steps inside =>
        exact
          ⟨inside.doneData positive runs,
            Nat.lt_of_succ_le (remaining_doneData inside runs).le⟩

/-- A group with connections and without pending events. -/
structure Idle (state : State) : Prop where
  positive : 1 ≤ state.numPairs
  running : state.exited = false
  pending : state.pending = []
  unfinished : state.unfinished = []

theorem scheduled_schedule
    {before : State} (idle : Idle before) (numBytes : Nat) {iter : Nat}
    (positive : 1 ≤ iter) :
    Scheduled before.trace before.numPairs numBytes iter
        (schedule before numBytes iter) ∧
      remaining (schedule before numBytes iter) =
        2 * before.numPairs * iter := by
  constructor
  · refine
      .inRound [] []
        (inRound_sendPerPair idle.positive rfl rfl rfl ?_ idle.running ?_
          positive idle.pending idle.unfinished ?_)
    · exact (sub_zero _).symm
    · intro round member
      cases member
    · exact (List.append_nil _).symm
  · have rest : ((iter : Int) - 1).toNat + 1 = iter := by
      omega
    have whole :
        2 * before.numPairs + 2 * before.numPairs * ((iter : Int) - 1).toNat =
          2 * before.numPairs * iter := by
      rw [Nat.add_comm, ← Nat.mul_succ, Nat.succ_eq_add_one, rest]
    simp only [remaining, schedule, sendPerPair, idle.running,
      idle.pending, idle.unfinished, Bool.false_eq_true, if_false,
      List.nil_append, length_sends, List.length_nil, add_zero, whole]

/--
In every order of events the trace of a scheduled group consists of complete
rounds, each issued as a whole, carried out once for every connection and then
reported, and of the round under way.  The group exits after the last of its
rounds has been reported, and it does not stop before.
-/
theorem schedule_rounds
    (before : State) (idle : Idle before) (numBytes iter : Nat)
    (positive : 1 ≤ iter) (events : List Event) (final : State)
    (ran :
      Execution.run next (schedule before numBytes iter) events =
        some final) :
    (∃ completed : List (List (Step Send)),
      (∀ round ∈ completed,
        Complete (sends before.numPairs numBytes) round) ∧
      (final.exited = true ∧ completed.length = iter ∧
          final.trace =
            before.trace ++
              rounds (sends before.numPairs numBytes) iter completed ∨
        final.exited = false ∧ completed.length < iter ∧
          ∃ steps,
            Underway (sends before.numPairs numBytes) steps final.pending
              final.unfinished ∧
            final.trace =
              before.trace ++
                rounds (sends before.numPairs numBytes) iter completed ++
                  opened (sends before.numPairs numBytes) steps)) ∧
      (Stuck next final ↔ final.exited = true) ∧
      events.length ≤ 2 * before.numPairs * iter := by
  rcases scheduled_schedule idle numBytes positive with
    ⟨scheduled, total⟩
  have finalScheduled :=
    Reachable.invariant
      (fun _ _ _ scheduled step => (scheduled.step idle.positive step).1)
      scheduled ⟨events, ran⟩
  have count :=
    length_add_measure_le
      (fun _ _ _ scheduled step => scheduled.step idle.positive step)
      scheduled ran
  refine ⟨?_, ?_, by omega⟩
  · cases finalScheduled with
    | finished completed finished =>
        exact
          ⟨completed, finished.complete,
            Or.inl ⟨finished.exited, finished.all, finished.trace_eq⟩⟩
    | inRound completed steps inside =>
        exact
          ⟨completed, inside.complete,
            Or.inr
              ⟨inside.running, inside.left, steps, inside.underway,
                inside.trace_eq⟩⟩
  · cases finalScheduled with
    | finished completed finished =>
        refine iff_of_true ?_ finished.exited
        intro event
        simp [next, finished.exited]
    | inRound completed steps inside =>
        refine iff_of_false (not_stuck inside.running inside.work) ?_
        rw [inside.running]
        exact Bool.false_ne_true

/-- Two connections after their warm-up. -/
def warmedUp : State :=
  (Execution.run next (warmup (addPair (addPair init)) 100)
    [.send ⟨1, 100⟩, .doneData ⟨1, 100⟩, .send ⟨0, 100⟩,
      .doneData ⟨0, 100⟩]).getD init

/-- In the second round one connection overtakes the other. -/
def overtaking : List Event :=
  [.send ⟨0, 5⟩, .doneData ⟨0, 5⟩, .send ⟨1, 5⟩, .doneData ⟨1, 5⟩,
    .send ⟨1, 5⟩, .send ⟨0, 5⟩, .doneData ⟨0, 5⟩, .doneData ⟨1, 5⟩]

/-- Two rounds after the warm-up. -/
theorem schedule_rounds_overtaking :
    ∃ final,
      Execution.run next (schedule warmedUp 5 2) overtaking = some final ∧
        final.exited = true ∧ Stuck next final := by
  have idle : Idle warmedUp := by
    constructor <;> decide
  have stops (final : State)
      (ran :
        Execution.run next (schedule warmedUp 5 2) overtaking =
          some final) :
      Stuck next final ↔ final.exited = true :=
    (schedule_rounds warmedUp idle 5 2 (by decide) overtaking final ran).2.1
  exact ⟨_, rfl, rfl, (stops _ rfl).mpr rfl⟩

end CodingExamples.IncastNs2.Rounds
