import CodingExamples.Library.Progress
import CodingExamples.PollEchoServer.Server
import CodingExamples.SelectEchoServer.Server

/-!
# Every round ends

In both servers one client is served after the other, by blocking calls.  A
round is short whatever the clients send: the loop over the clients looks at
each slot once, at most a buffer is read from a client, and every `write` that
is not interrupted either sends something or ends `writen`.  It gets to its
end if the calls return: a `write` to a client that reads nothing may block,
which is no step of the model, and then the server waits for that client.
-/

namespace CodingExamples.EchoServer.RoundEnds

open CodingExamples.EchoServer.Multiplexing
open CodingExamples.EchoServer.Unp
open CodingExamples.Library.Execution
open CodingExamples.Library.Progress
open CodingExamples.Library.SlotTable
open CodingExamples.Library.SocketTable

variable {State Report : Type}

/-- What happens in a round in which no `write` is interrupted. -/
def Continues : Event Report → Bool
  | .ready _ _ => false
  | .write (.failed interrupted) => !interrupted
  | _ => true

/-- What happens in a round whose calls return; a `write` sends something. -/
def Returns : Event Report → Bool
  | .ready _ _ => false
  | .write (.returned count) => decide (0 < count)
  | .write (.failed _) => false
  | _ => true

/-- Some outcomes of the calls, of each call at least one. -/
structure Permits (allowed : Event Report → Bool) : Prop where
  returns : ∀ event, allowed event = true → Returns event = true
  accept : allowed (.accept none) = true
  scan : allowed .scan = true
  read : allowed (.read (.returned [])) = true
  write : ∀ count, 0 < count → allowed (.write (.returned count)) = true

/-- The round is over. -/
def Ended : Phase → Prop
  | .top | .exited | .undefined => True
  | _ => False

/-- No more steps are taken for one slot. -/
def slotSteps : Nat := bufSize + 3

/-- How many steps are left in a round over a number of slots. -/
def stepsLeft (slots : Nat) : Phase → Nat
  | .accepting => slots * slotSteps + 2
  | .scanning i => (slots - i) * slotSteps + 1
  | .reading i _ => (slots - (i + 1)) * slotSteps + bufSize + 3
  | .writing i _ left => (slots - (i + 1)) * slotSteps + left.length + 2
  | .top | .exited | .undefined => 0

/-- The number of slots is constant, and the loop stays within them. -/
structure Handlers.Bounded
    (handlers : Handlers State Report) (slots : State → Nat) : Prop where
  withLoop :
    ∀ state loop,
      handlers.loop (handlers.withLoop state loop) = loop ∧
        slots (handlers.withLoop state loop) = slots state
  afterReady :
    ∀ state nready report, (handlers.loop state).phase = .top →
      slots (handlers.afterReady state nready report) = slots state ∧
        let phase :=
          (handlers.loop (handlers.afterReady state nready report)).phase
        Ended phase ∨ phase = .accepting ∨ ∃ i, phase = .scanning i
  afterAccept :
    ∀ state connfd,
      slots (handlers.afterAccept state connfd) = slots state ∧
        let phase := (handlers.loop (handlers.afterAccept state connfd)).phase
        Ended phase ∨ ∃ i, phase = .scanning i
  scan :
    ∀ state i,
      slots (handlers.scan state i) = slots state ∧
        let phase := (handlers.loop (handlers.scan state i)).phase
        Ended phase ∨
          i < slots state ∧
            (phase = .scanning (i + 1) ∨ ∃ fd, phase = .reading i fd)
  closeClient :
    ∀ state i sockfd,
      slots (handlers.closeClient state i sockfd) = slots state ∧
        let phase :=
          (handlers.loop (handlers.closeClient state i sockfd)).phase
        Ended phase ∨ phase = .scanning (i + 1)

/-- A round is short, and it comes to its end if its calls return. -/
structure Ends (handlers : Handlers State Report) (slots : Nat)
    (state : State) : Prop where
  short :
    ∀ events final,
      run (restrict (next handlers) Continues) state events = some final →
        events.length ≤ slots * slotSteps + 2
  settles :
    Settles (restrict (next handlers) Returns)
      (fun final => Ended (handlers.loop final).phase) state

/-! ## A `write` that can go on -/

/-- `write` is called with some bytes, on a connection that is open. -/
def Serving (loop : Loop) : Prop :=
  ∀ i sockfd left, loop.phase = .writing i sockfd left →
    left ≠ [] ∧ ∃ number, loop.sockets.connection sockfd = some number

theorem serving_of_outside
    {loop : Loop}
    (outside : ∀ i sockfd left, loop.phase ≠ .writing i sockfd left) :
    Serving loop := by
  intro i sockfd left writing
  exact absurd writing (outside i sockfd left)

theorem serving_advance (loop : Loop) (i : Nat) : Serving (loop.advance i) := by
  apply serving_of_outside
  intro j sockfd left
  rw [Loop.advance]
  dsimp only
  split <;> exact Phase.noConfusion

/-- `writen` has something to write if it does not return. -/
theorem serving_inWriten
    {loop : Loop} {sockfd number : Nat}
    (connected : loop.sockets.connection sockfd = some number) (i : Nat)
    (left : List (BitVec 8)) :
    Serving (loop.inWriten i sockfd (writenLoop left)) := by
  rw [writenLoop]
  split
  case isTrue more =>
    intro j fd rest writing
    cases writing
    exact ⟨List.ne_nil_of_length_pos more, number, connected⟩
  case isFalse => exact serving_advance loop (i + 1)

/-- Only the descriptors decide what is connected. -/
theorem connection_eq_of_descriptors
    {sockets other : Sockets (BitVec 8)}
    (same : other.descriptors = sockets.descriptors) (fd : Nat) :
    other.connection fd = sockets.connection fd := by
  rw [Sockets.connection, Sockets.connection, same]

theorem serving_echo
    {loop result : Loop} {i sockfd : Nat} {bytes : List (BitVec 8)}
    (echo : loop.echo i sockfd bytes = some result) : Serving result := by
  rcases Option.map_eq_some_iff.mp echo with ⟨sockets, received, rfl⟩
  have same := Sockets.receive_descriptors received
  rcases Option.map_eq_some_iff.mp received with ⟨number, connected, _⟩
  rw [← connection_eq_of_descriptors same] at connected
  exact serving_inWriten connected i _

theorem serving_write
    {loop result : Loop} {i sockfd : Nat} {left : List (BitVec 8)}
    (serving : Serving loop) (writing : loop.phase = .writing i sockfd left)
    {outcome : WriteResult}
    (write : loop.write i sockfd left outcome = some result) :
    Serving result := by
  rcases serving i sockfd left writing with ⟨_, number, connected⟩
  cases outcome with
  | returned count =>
      rw [Loop.write, Option.ite_none_right_eq_some] at write
      rcases Option.map_eq_some_iff.mp write.2 with ⟨sockets, sent, rfl⟩
      have same := Sockets.send_descriptors sent
      rw [← connection_eq_of_descriptors same] at connected
      rw [writenAfter]
      split
      · exact serving_advance _ (i + 1)
      · exact serving_inWriten connected i _
  | failed interrupted =>
      cases write
      rw [writenAfter]
      split
      · exact serving_inWriten connected i left
      · exact serving_advance _ (i + 1)

/-- Some bytes can be written. -/
theorem exists_write
    {loop : Loop} (serving : Serving loop) {i sockfd : Nat}
    {left : List (BitVec 8)} (writing : loop.phase = .writing i sockfd left) :
    ∃ count result, 0 < count ∧
      loop.write i sockfd left (.returned count) = some result := by
  rcases serving i sockfd left writing with ⟨more, number, connected⟩
  have written :
      (loop.write i sockfd left (.returned left.length)).isSome := by
    rw [Loop.write, if_pos (Nat.le_refl _), Sockets.send, connected]
    rfl
  rcases Option.isSome_iff_exists.mp written with ⟨result, written⟩
  exact ⟨left.length, result, List.length_pos_of_ne_nil more, written⟩

/-! ## The steps of a round -/

theorem stepsLeft_of_ended {phase : Phase} (ended : Ended phase) (slots : Nat) :
    stepsLeft slots phase = 0 := by
  unfold Ended at ended
  split at ended
  · rfl
  · rfl
  · rfl
  · exact ended.elim

/-- There is more to do before a slot than behind it. -/
theorem slotSteps_le {slots i : Nat} (inside : i < slots) :
    (slots - (i + 1)) * slotSteps + slotSteps = (slots - i) * slotSteps := by
  rw [← Nat.succ_mul]
  congr 1
  omega

/-- On to the next slot, or to the end of the round. -/
theorem stepsLeft_advance_lt
    (slots : Nat) (loop : Loop) (i : Nat) {steps : Nat}
    (less : (slots - i) * slotSteps + 1 < steps) :
    stepsLeft slots (loop.advance i).phase < steps := by
  rw [Loop.advance]
  dsimp only
  split
  · exact Nat.lt_of_le_of_lt (Nat.zero_le _) less
  · exact less

/-- A round in `writen`, with some of the bytes or with none. -/
theorem stepsLeft_inWriten_lt
    (slots : Nat) (loop : Loop) (i sockfd : Nat) {left : List (BitVec 8)}
    {steps : Nat}
    (less :
      (slots - (i + 1)) * slotSteps + left.length + 2 < steps) :
    stepsLeft slots (loop.inWriten i sockfd (writenLoop left)).phase <
      steps := by
  rw [writenLoop]
  split
  · exact less
  · apply stepsLeft_advance_lt
    omega

/-- A buffer at most is read. -/
theorem length_le_of_read
    {handlers : Handlers State Report} {state result : State}
    {bytes : List (BitVec 8)}
    (stepped : next handlers state (.read (.returned bytes)) = some result) :
    bytes.length ≤ bufSize := by
  unfold next at stepped
  dsimp only at stepped
  split at stepped <;> try cases ‹Event.read _ = _›
  case h_6 =>
    by_cases small : bytes.length ≤ bufSize
    · exact small
    · rw [if_neg (by omega), if_neg small] at stepped
      cases stepped
  case h_8 => cases stepped

section Round

variable {handlers : Handlers State Report} {slots : State → Nat}

theorem stepsLeft_next_lt
    (server : Handlers.Bounded handlers slots) {state result : State}
    {event : Event Report} (continues : Continues event = true)
    (stepped : next handlers state event = some result) :
    slots result = slots state ∧
      stepsLeft (slots state) (handlers.loop result).phase <
        stepsLeft (slots state) (handlers.loop state).phase := by
  cases step_of_next stepped with
  | ready nready report top reported => cases continues
  | failed accepting =>
      rw [accepting, (server.withLoop _ _).1]
      exact ⟨(server.withLoop _ _).2, Nat.succ_pos _⟩
  | accepted connfd accepting new =>
      rcases server.afterAccept state connfd with ⟨same, phase⟩
      refine ⟨same, ?_⟩
      rw [accepting]
      rcases phase with ended | ⟨i, scanning⟩
      · rw [stepsLeft_of_ended ended]
        exact Nat.succ_pos _
      · rw [scanning]
        have fewer : (slots state - i) * slotSteps ≤ slots state * slotSteps :=
          Nat.mul_le_mul_right _ (Nat.sub_le _ _)
        exact Nat.lt_succ_of_le (Nat.succ_le_succ fewer)
  | scanned i scanning =>
      rcases server.scan state i with ⟨same, phase⟩
      refine ⟨same, ?_⟩
      rw [scanning]
      rcases phase with ended | ⟨inside, later | ⟨fd, reading⟩⟩
      · rw [stepsLeft_of_ended ended]
        exact Nat.succ_pos _
      · have more := slotSteps_le inside
        rw [later, stepsLeft, stepsLeft, ← more, slotSteps]
        omega
      · have more := slotSteps_le inside
        rw [reading, stepsLeft, stepsLeft, ← more, slotSteps]
        omega
  | closed outcome i sockfd reading =>
      rcases server.closeClient state i sockfd with ⟨same, phase⟩
      refine ⟨same, ?_⟩
      rw [reading]
      rcases phase with ended | later
      · rw [stepsLeft_of_ended ended]
        exact Nat.succ_pos _
      · rw [later, stepsLeft, stepsLeft]
        omega
  | echoed bytes i sockfd loop reading echo =>
      rw [(server.withLoop _ _).1]
      refine ⟨(server.withLoop _ _).2, ?_⟩
      have small := length_le_of_read stepped
      rw [reading]
      rcases Option.map_eq_some_iff.mp echo with ⟨sockets, _, rfl⟩
      apply stepsLeft_inWriten_lt
      rw [stepsLeft, List.length_take]
      omega
  | written outcome i sockfd left loop writing write =>
      rw [(server.withLoop _ _).1]
      refine ⟨(server.withLoop _ _).2, ?_⟩
      have advanced (before : Loop) :
          stepsLeft (slots state) (before.advance (i + 1)).phase <
            stepsLeft (slots state) (.writing i sockfd left) := by
        apply stepsLeft_advance_lt
        rw [stepsLeft]
        omega
      rw [writing]
      cases outcome with
      | returned count =>
          rw [Loop.write, Option.ite_none_right_eq_some] at write
          rcases Option.map_eq_some_iff.mp write.2 with ⟨sockets, _, rfl⟩
          rw [writenAfter]
          split
          case isTrue => exact advanced _
          case isFalse =>
            by_cases empty : left = []
            · have finished : writenLoop [] = .returned true := rfl
              rw [empty, List.drop_nil, finished]
              rw [empty] at advanced
              exact advanced _
            · have nonempty := List.length_pos_of_ne_nil empty
              apply stepsLeft_inWriten_lt
              rw [stepsLeft, List.length_drop]
              omega
      | failed interrupted =>
          cases write
          cases interrupted with
          | true => cases continues
          | false => exact advanced _

theorem not_writing_of_ended
    {phase : Phase} (ended : Ended phase) (i sockfd : Nat)
    (left : List (BitVec 8)) : phase ≠ .writing i sockfd left := by
  rintro rfl
  exact ended

/-- `writen` is only entered after a `read` of some bytes. -/
theorem serving_next
    (server : Handlers.Bounded handlers slots) {state result : State}
    {event : Event Report} (serving : Serving (handlers.loop state))
    (stepped : next handlers state event = some result) :
    Serving (handlers.loop result) := by
  cases step_of_next stepped with
  | ready nready report top reported =>
      apply serving_of_outside
      rcases (server.afterReady state nready report top).2 with
        ended | accepting | ⟨i, scanning⟩
      · exact not_writing_of_ended ended
      · simp [accepting]
      · simp [scanning]
  | failed accepting =>
      rw [(server.withLoop _ _).1]
      apply serving_of_outside
      simp
  | accepted connfd accepting new =>
      apply serving_of_outside
      rcases (server.afterAccept state connfd).2 with ended | ⟨i, scanning⟩
      · exact not_writing_of_ended ended
      · simp [scanning]
  | scanned i scanning =>
      apply serving_of_outside
      rcases (server.scan state i).2 with ended | ⟨_, later | ⟨fd, reading⟩⟩
      · exact not_writing_of_ended ended
      · simp [later]
      · simp [reading]
  | closed outcome i sockfd reading =>
      apply serving_of_outside
      rcases (server.closeClient state i sockfd).2 with ended | later
      · exact not_writing_of_ended ended
      · simp [later]
  | echoed bytes i sockfd loop reading echo =>
      rw [(server.withLoop _ _).1]
      exact serving_echo echo
  | written outcome i sockfd left loop writing write =>
      rw [(server.withLoop _ _).1]
      exact serving_write serving writing write

/-- A round whose calls return cannot stop before its end. -/
theorem ended_of_stuck
    {allowed : Event Report → Bool} (permits : Permits allowed)
    {state : State} (serving : Serving (handlers.loop state))
    (stuck : Stuck (restrict (next handlers) allowed) state) :
    Ended (handlers.loop state).phase := by
  cases phase : (handlers.loop state).phase with
  | top => exact trivial
  | exited => exact trivial
  | undefined => exact trivial
  | accepting =>
      have blocked := eq_none_of_stuck stuck (.accept none) permits.accept
      simp only [next, phase] at blocked
      cases blocked
  | scanning i =>
      have blocked := eq_none_of_stuck stuck .scan permits.scan
      simp only [next, phase] at blocked
      cases blocked
  | reading i sockfd =>
      have blocked :=
        eq_none_of_stuck stuck (.read (.returned [])) permits.read
      simp only [next, phase] at blocked
      cases blocked
  | writing i sockfd left =>
      rcases exists_write serving phase with ⟨count, loop, positive, write⟩
      have blocked :=
        eq_none_of_stuck stuck (.write (.returned count))
          (permits.write count positive)
      simp only [next, phase, write] at blocked
      cases blocked

theorem continues_of_returns
    {event : Event Report} (returns : Returns event = true) :
    Continues event = true := by
  cases event with
  | ready nready report => cases returns
  | accept connfd => rfl
  | scan => rfl
  | read outcome => rfl
  | write outcome =>
      cases outcome with
      | returned count => rfl
      | failed interrupted => cases returns

/--
From any point of a round, the steps in which the calls return lead to its
end; what they preserve holds there.
-/
theorem settles_of_serving
    (server : Handlers.Bounded handlers slots)
    {allowed : Event Report → Bool} (permits : Permits allowed)
    {Invariant : State → Prop}
    (preserved :
      ∀ before event after,
        Invariant before → allowed event = true →
          next handlers before event = some after → Invariant after)
    {state : State} (serving : Serving (handlers.loop state))
    (initial : Invariant state) :
    Settles (restrict (next handlers) allowed)
      (fun final => Ended (handlers.loop final).phase ∧ Invariant final)
      state := by
  have decreases :
      ∀ before event after,
        (slots before = slots state ∧ Serving (handlers.loop before) ∧
            Invariant before) →
          restrict (next handlers) allowed before event = some after →
            (slots after = slots state ∧ Serving (handlers.loop after) ∧
                Invariant after) ∧
              stepsLeft (slots state) (handlers.loop after).phase <
                stepsLeft (slots state) (handlers.loop before).phase := by
    rintro before event after ⟨same, servingBefore, kept⟩ step
    rw [restrict_eq_some_iff] at step
    have continues := continues_of_returns (permits.returns event step.1)
    have less := stepsLeft_next_lt server continues step.2
    rw [same] at less
    exact
      ⟨⟨less.1, serving_next server servingBefore step.2,
        preserved before event after kept step.1 step.2⟩, less.2⟩
  apply settles_of_measure decreases _ ⟨rfl, serving, initial⟩
  rintro final ⟨_, servingFinal, kept⟩ stuck
  exact ⟨ended_of_stuck permits servingFinal stuck, kept⟩

theorem returns_permits : Permits (@Returns Report) where
  returns := fun _ returns => returns
  accept := rfl
  scan := rfl
  read := rfl
  write := fun _ positive => decide_eq_true positive

/-- Not more steps than the measure of its first phase are taken in a round. -/
theorem length_le_of_ready
    (server : Handlers.Bounded handlers slots) {state opened final : State}
    {nready : Int} {report : Report} {events : List (Event Report)}
    (stepped : next handlers state (.ready nready report) = some opened)
    (ran :
      run (restrict (next handlers) Continues) opened events = some final) :
    events.length ≤ slots state * slotSteps + 2 := by
  have decreases :
      ∀ before event after,
        slots before = slots state →
          restrict (next handlers) Continues before event = some after →
            slots after = slots state ∧
              stepsLeft (slots state) (handlers.loop after).phase <
                stepsLeft (slots state) (handlers.loop before).phase := by
    intro before event after same step
    rw [restrict_eq_some_iff] at step
    have less := stepsLeft_next_lt server step.1 step.2
    rw [same] at less
    exact less
  have initial :
      slots opened = slots state ∧
        stepsLeft (slots state) (handlers.loop opened).phase ≤
          slots state * slotSteps + 2 := by
    cases step_of_next stepped with
    | ready nready report top reported =>
        rcases server.afterReady state nready report top with ⟨same, phase⟩
        refine ⟨same, ?_⟩
        rcases phase with ended | accepting | ⟨i, scanning⟩
        · rw [stepsLeft_of_ended ended]
          exact Nat.zero_le _
        · rw [accepting, stepsLeft]
        · rw [scanning, stepsLeft]
          have fewer :
              (slots state - i) * slotSteps ≤ slots state * slotSteps :=
            Nat.mul_le_mul_right _ (Nat.sub_le _ _)
          omega
  have bound := length_add_measure_le decreases initial.1 ran
  omega

/-- The round that begins when `select` or `poll` returns. -/
theorem ends_of_ready
    (server : Handlers.Bounded handlers slots) {state opened : State}
    (serving : Serving (handlers.loop state))
    {nready : Int} {report : Report}
    (stepped : next handlers state (.ready nready report) = some opened) :
    Ends handlers (slots state) opened := by
  constructor
  case short =>
    intro events final ran
    exact length_le_of_ready server stepped ran
  case settles =>
    have preserved :
        ∀ before event after,
          (fun _ : State => True) before → Returns event = true →
            next handlers before event = some after →
              (fun _ : State => True) after :=
      fun _ _ _ _ _ _ => trivial
    have settles :=
      settles_of_serving server returns_permits preserved
        (serving_next server serving stepped) trivial
    simpa only [and_true] using settles

theorem serving_of_reachable
    (server : Handlers.Bounded handlers slots) {start state : State}
    (initial : Serving (handlers.loop start))
    (reachable : Reachable (next handlers) start state) :
    Serving (handlers.loop state) :=
  reachable.invariant
    (fun _ _ _ serving step => serving_next server serving step) initial

/-- No step changes the number of slots. -/
theorem slots_of_reachable
    (server : Handlers.Bounded handlers slots) {start state : State}
    (reachable : Reachable (next handlers) start state) :
    slots state = slots start := by
  have constant :
      ∀ before event after, slots before = slots start →
        next handlers before event = some after →
          slots after = slots start := by
    intro before event after same step
    rw [← same]
    cases step_of_next step with
    | ready nready report top _ =>
        exact (server.afterReady before nready report top).1
    | failed _ => exact (server.withLoop _ _).2
    | accepted connfd _ _ => exact (server.afterAccept before connfd).1
    | scanned i _ => exact (server.scan before i).1
    | closed _ i sockfd _ => exact (server.closeClient before i sockfd).1
    | echoed _ _ _ _ _ _ => exact (server.withLoop _ _).2
    | written _ _ _ _ _ _ _ => exact (server.withLoop _ _).2
  exact reachable.invariant constant rfl

end Round

/-! ## The two servers -/

theorem ended_or_scanning_advance (loop : Loop) (i : Nat) :
    Ended (loop.advance i).phase ∨ (loop.advance i).phase = .scanning i := by
  rw [Loop.advance]
  dsimp only
  split
  · exact .inl trivial
  · exact .inr rfl

namespace Select

open CodingExamples.SelectEchoServer.Server

theorem handlers_bounded :
    Handlers.Bounded handlers fun state => state.clients.length := by
  constructor
  case withLoop =>
    intro state loop
    exact ⟨rfl, rfl⟩
  case afterReady =>
    intro state nready rset top
    show (afterSelect state nready rset).clients.length = _ ∧ _
    have phase : state.loop.phase = .top := top
    dsimp only [handlers]
    rw [afterSelect]
    dsimp only
    split
    · exact ⟨rfl, .inl (by rw [phase]; exact trivial)⟩
    · split
      · exact ⟨rfl, .inl trivial⟩
      · exact ⟨rfl, .inr (.inl rfl)⟩
      · exact ⟨rfl, .inr (.inr ⟨0, rfl⟩)⟩
  case afterAccept =>
    intro state connfd
    show (afterAccept state connfd).clients.length = _ ∧ _
    dsimp only [handlers]
    rw [afterAccept]
    dsimp only
    split
    · exact ⟨List.length_set, .inl trivial⟩
    · refine ⟨List.length_set, ?_⟩
      rcases ended_or_scanning_advance _ 0 with ended | scanning
      · exact .inl ended
      · exact .inr ⟨0, scanning⟩
  case scan =>
    intro state i
    show (scan state i).clients.length = _ ∧ _
    dsimp only [handlers]
    rw [scan]
    split
    · split
      · exact ⟨rfl, .inl trivial⟩
      case h_2 found =>
        have inside := (List.getElem?_eq_some_iff.mp found).1
        exact ⟨rfl, .inr ⟨inside, .inl rfl⟩⟩
      case h_3 sockfd found =>
        have inside := (List.getElem?_eq_some_iff.mp found).1
        split
        · exact ⟨rfl, .inl trivial⟩
        · exact ⟨rfl, .inr ⟨inside, .inr ⟨sockfd, rfl⟩⟩⟩
        · exact ⟨rfl, .inr ⟨inside, .inl rfl⟩⟩
    · exact ⟨rfl, .inl trivial⟩
  case closeClient =>
    intro state i sockfd
    show (closeClient state i sockfd).clients.length = _ ∧ _
    dsimp only [handlers]
    rw [closeClient]
    split
    · exact ⟨rfl, .inl trivial⟩
    · exact ⟨List.length_set, ended_or_scanning_advance _ _⟩

theorem serving_start
    (listenfd : Nat) (inherited : Nat → Bool) (buf : List (BitVec 8)) :
    Serving (start listenfd inherited buf).loop := by
  apply serving_of_outside
  intro i sockfd left
  rw [start]
  dsimp only
  split <;> exact Phase.noConfusion

end Select

namespace Poll

open CodingExamples.PollEchoServer.Server

theorem length_setFd (clients : List PollFd) (i : Nat) (fd : Option Nat) :
    (setFd clients i fd).length = clients.length := by
  rw [setFd, List.length_modify]

theorem length_setEvents
    {clients result : List PollFd} {i : Nat}
    (stored : setEvents clients i = some result) :
    result.length = clients.length := by
  rw [setEvents, Option.ite_none_right_eq_some] at stored
  rw [← Option.some.inj stored.2, List.length_modify]

theorem length_storeRevents
    (clients : List PollFd) (revents : List (BitVec 16)) :
    (storeRevents clients revents).length = clients.length := by
  induction clients, revents using storeRevents.induct with
  | case1 client clients first rest ih =>
      rw [storeRevents, List.length_cons, List.length_cons, ih]
  | case2 clients revents finished =>
      unfold storeRevents
      split
      · exact (finished _ _ _ _ rfl rfl).elim
      · rfl

theorem handlers_bounded :
    Handlers.Bounded handlers fun state => state.clients.length := by
  constructor
  case withLoop =>
    intro state loop
    exact ⟨rfl, rfl⟩
  case afterReady =>
    intro state nready revents top
    show (afterPoll state nready revents).clients.length = _ ∧ _
    have phase : state.loop.phase = .top := top
    have same := length_storeRevents state.clients revents
    dsimp only [handlers]
    rw [afterPoll]
    dsimp only
    split
    · split
      · exact ⟨same, .inl (by rw [phase]; exact trivial)⟩
      · split
        · exact ⟨same, .inl trivial⟩
        · split
          · exact ⟨same, .inr (.inl rfl)⟩
          · exact ⟨same, .inr (.inr ⟨1, rfl⟩)⟩
    · exact ⟨rfl, .inl trivial⟩
  case afterAccept =>
    intro state connfd
    show (afterAccept state connfd).clients.length = _ ∧ _
    dsimp only [handlers]
    rw [afterAccept]
    dsimp only
    split
    · exact ⟨length_setFd _ _ _, .inl trivial⟩
    case h_2 clients stored =>
      refine ⟨(length_setEvents stored).trans (length_setFd _ _ _), ?_⟩
      rcases ended_or_scanning_advance _ 1 with ended | scanning
      · exact .inl ended
      · exact .inr ⟨1, scanning⟩
  case scan =>
    intro state i
    show (scan state i).clients.length = _ ∧ _
    dsimp only [handlers]
    rw [scan]
    split
    · split
      · exact ⟨rfl, .inl trivial⟩
      case h_2 client found =>
        have inside := (List.getElem?_eq_some_iff.mp found).1
        split
        · exact ⟨rfl, .inr ⟨inside, .inl rfl⟩⟩
        · split
          · exact ⟨rfl, .inr ⟨inside, .inr ⟨_, rfl⟩⟩⟩
          · exact ⟨rfl, .inr ⟨inside, .inl rfl⟩⟩
    · exact ⟨rfl, .inl trivial⟩
  case closeClient =>
    intro state i sockfd
    exact ⟨length_setFd _ _ _, ended_or_scanning_advance _ _⟩

theorem serving_start
    (listenfd : Nat) (inherited : Nat → Bool) (buf : List (BitVec 8))
    (clients : List PollFd) :
    Serving (start listenfd inherited buf clients).loop := by
  apply serving_of_outside
  intro i sockfd left
  cases clients <;> exact Phase.noConfusion

theorem length_start
    (listenfd : Nat) (inherited : Nat → Bool) (buf : List (BitVec 8))
    (clients : List PollFd) :
    (start listenfd inherited buf clients).clients.length =
      clients.length := by
  cases clients with
  | nil => rfl
  | cons first rest => exact congrArg Nat.succ (List.length_map _)

end Poll

/--
In both servers, in every state in which `select` or `poll` returns and
whatever it reports: the round takes a number of steps that is bounded by the
number of slots and the size of the buffer, unless writes are interrupted.  If
every call in it returns, a `write` with some of its bytes, the round can only
stop at the next `select` or `poll` or where `main` is left.
-/
theorem rounds_end :
    (∀ (listenfd : Nat) (inherited : Nat → Bool) (buf : List (BitVec 8))
        (state opened : SelectEchoServer.Server.State)
        (nready : Int) (rset : Finset Nat),
        Reachable SelectEchoServer.Server.next
            (SelectEchoServer.Server.start listenfd inherited buf) state →
          SelectEchoServer.Server.next state (.ready nready rset) =
              some opened →
            Ends SelectEchoServer.Server.handlers
              SelectEchoServer.Server.fdSetsize opened) ∧
      ∀ (listenfd : Nat) (inherited : Nat → Bool) (buf : List (BitVec 8))
        (clients : List PollEchoServer.Server.PollFd)
        (state opened : PollEchoServer.Server.State)
        (nready : Int) (revents : List (BitVec 16)),
        Reachable PollEchoServer.Server.next
            (PollEchoServer.Server.start listenfd inherited buf clients)
            state →
          PollEchoServer.Server.next state (.ready nready revents) =
              some opened →
            Ends PollEchoServer.Server.handlers clients.length opened := by
  constructor
  · intro listenfd inherited buf state opened nready rset reachable stepped
    have slots := slots_of_reachable Select.handlers_bounded reachable
    have initial :
        (SelectEchoServer.Server.start listenfd inherited buf).clients.length =
          SelectEchoServer.Server.fdSetsize := by
      rw [SelectEchoServer.Server.start]
      dsimp only
      split <;> exact List.length_replicate
    have serving :=
      serving_of_reachable Select.handlers_bounded
        (Select.serving_start listenfd inherited buf) reachable
    rw [← initial, ← slots]
    exact ends_of_ready Select.handlers_bounded serving stepped
  · intro listenfd inherited buf clients state opened nready revents reachable
      stepped
    have slots := slots_of_reachable Poll.handlers_bounded reachable
    have initial := Poll.length_start listenfd inherited buf clients
    have serving :=
      serving_of_reachable Poll.handlers_bounded
        (Poll.serving_start listenfd inherited buf clients) reachable
    rw [← initial, ← slots]
    exact ends_of_ready Poll.handlers_bounded serving stepped

/-- Both servers are told that a client connects. -/
theorem rounds_end_firstClient :
    (∃ opened,
        SelectEchoServer.Server.next
            (SelectEchoServer.Server.start 3 (fun fd => decide (fd < 3)) [])
            (.ready 1 {3}) = some opened ∧
          Ends SelectEchoServer.Server.handlers
            SelectEchoServer.Server.fdSetsize opened) ∧
      ∃ opened,
        PollEchoServer.Server.next
            (PollEchoServer.Server.start 3 (fun fd => decide (fd < 3)) []
              (List.replicate 5 ⟨some 7, 0, 255⟩))
            (.ready 1 [64]) = some opened ∧
          Ends PollEchoServer.Server.handlers 5 opened := by
  constructor
  · have stepped :
        (SelectEchoServer.Server.next
            (SelectEchoServer.Server.start 3 (fun fd => decide (fd < 3)) [])
            (.ready 1 {3})).isSome := by
      decide +kernel
    rcases Option.isSome_iff_exists.mp stepped with ⟨opened, stepped⟩
    exact
      ⟨opened, stepped,
        rounds_end.1 3 _ [] _ opened 1 {3} (Reachable.refl _) stepped⟩
  · have stepped :
        (PollEchoServer.Server.next
            (PollEchoServer.Server.start 3 (fun fd => decide (fd < 3)) []
              (List.replicate 5 ⟨some 7, 0, 255⟩))
            (.ready 1 [64])).isSome := by
      decide +kernel
    rcases Option.isSome_iff_exists.mp stepped with ⟨opened, stepped⟩
    exact
      ⟨opened, stepped,
        rounds_end.2 3 _ [] _ _ opened 1 [64] (Reachable.refl _) stepped⟩

end CodingExamples.EchoServer.RoundEnds
