import CodingExamples.EchoServer.Tcpserv

/-!
# Descriptors and zombies of the server that forks

Whenever the parent is about to call `accept`, it holds exactly the
descriptors with which it began.  A child therefore inherits one connection
only, so that no two processes serve one client, and a client sees the end of
its connection as soon as its own child has closed it.

A child stays a zombie only while a `SIGCHLD` is pending or its handler runs,
although signals are lost: a handler that waited once would not be enough.
-/

namespace CodingExamples.EchoServer.Processes

open CodingExamples.EchoServer.Tcpserv
open CodingExamples.EchoServer.Unp
open CodingExamples.Library.Execution

/-! ## Tables of descriptors -/

theorem set_set_of_ne
    (descriptors : Descriptors) {left right : Nat} (different : left ≠ right)
    (first second : Option Socket) :
    (descriptors.set left first).set right second =
      (descriptors.set right second).set left first := by
  funext fd
  simp only [Descriptors.set]
  by_cases isLeft : fd = left
  · have notRight : fd ≠ right := by
      rw [isLeft]
      exact different
    rw [if_neg notRight, if_pos isLeft, if_pos isLeft]
  · rw [if_neg isLeft, if_neg isLeft]

/-- Opening and closing an unused descriptor. -/
theorem set_set_none
    {descriptors : Descriptors} {fd : Nat} (unused : descriptors fd = none)
    (socket : Option Socket) :
    (descriptors.set fd socket).set fd none = descriptors := by
  funext other
  simp only [Descriptors.set]
  by_cases same : other = fd
  · rw [if_pos same, same, unused]
  · rw [if_neg same, if_neg same]

/-- The parent holds what it began with, and the connection it works on. -/
def MainFits (base : Descriptors) (state : State) : Prop :=
  match state.main with
  | .accepting => state.descriptors = base
  | .forking connfd | .printing connfd _ | .closing connfd =>
      base connfd = none ∧
        ∃ number, state.accepted = number + 1 ∧
          state.descriptors = base.set connfd (some (.connection number))
  | .returned => state.descriptors = .none

/-- A child holds one connection, and no listening socket once it serves it. -/
def ProcessFits
    (listenfd : Nat) (base : Descriptors) (number : Nat)
    (process : Process) : Prop :=
  match process.phase with
  | .started connfd =>
      base connfd = none ∧
        process.descriptors = base.set connfd (some (.connection number))
  | .reading connfd | .writing connfd _ | .closing connfd =>
      base connfd = none ∧
        process.descriptors =
          (base.set listenfd none).set connfd (some (.connection number))
  | .exiting => process.descriptors = base.set listenfd none
  | .zombie | .reaped => process.descriptors = .none

/-- The child serves its client under a descriptor, or is about to close it. -/
def Serves (connfd : Nat) (phase : Child) : Prop :=
  phase = .reading connfd ∨ (∃ left, phase = .writing connfd left) ∨
    phase = .closing connfd

theorem Serves.fits_iff
    {connfd : Nat} {process : Process} (serves : Serves connfd process.phase)
    {listenfd : Nat} {base : Descriptors} {number : Nat} :
    ProcessFits listenfd base number process ↔
      base connfd = none ∧
        process.descriptors =
          (base.set listenfd none).set connfd (some (.connection number)) := by
  rcases serves with phase | ⟨left, phase⟩ | phase
  · rw [ProcessFits, phase]
  · rw [ProcessFits, phase]
  · rw [ProcessFits, phase]

theorem serves_inWriten (connfd : Nat) (writen : Writen) :
    Serves connfd (inWriten connfd writen) := by
  cases writen with
  | writing left => exact .inr (.inl ⟨left, rfl⟩)
  | returned success => exact .inl rfl

/-- In `writen` something is left to write. -/
def Unfinished (phase : Child) : Prop :=
  ∀ connfd, phase ≠ .writing connfd []

theorem unfinished_writenLoop (connfd : Nat) (left : List (BitVec 8)) :
    Unfinished (inWriten connfd (writenLoop left)) := by
  intro other
  rw [writenLoop]
  split
  case isTrue more =>
    intro same
    cases same
    exact absurd more (by decide)
  case isFalse => exact nofun

theorem unfinished_writenAfter
    (connfd : Nat) (left : List (BitVec 8)) (result : WriteResult) :
    Unfinished (inWriten connfd (writenAfter left result)) := by
  unfold writenAfter
  split
  case h_1 count =>
    split
    · exact nofun
    · exact unfinished_writenLoop connfd _
  case h_2 interrupted =>
    split
    · exact unfinished_writenLoop connfd left
    · exact nofun

theorem Serves.running
    {connfd : Nat} {phase : Child} (serves : Serves connfd phase) :
    phase ≠ .zombie ∧ phase ≠ .reaped := by
  rcases serves with rfl | ⟨left, rfl⟩ | rfl <;> exact ⟨nofun, nofun⟩

/-! ## What a call of a child changes -/

/-- Apart from its own entry, a call of a child leaves the server as it is. -/
structure ChildFrame
    (state result : State) (index : Nat) (process : Process) : Prop where
  children : result.children = state.children.set index process
  main : result.main = state.main
  descriptors : result.descriptors = state.descriptors
  handler : result.handler = state.handler
  accepted : result.accepted = state.accepted
  output : result.output = state.output
  length_connections :
    result.connections.length = state.connections.length
  pending : state.pending = true → result.pending = true
  zombie : process.phase = .zombie → result.pending = true

theorem frame_setChild
    (state : State) (index : Nat) {process : Process}
    (running : process.phase ≠ .zombie) :
    ChildFrame state (state.setChild index process) index process :=
  ⟨rfl, rfl, rfl, rfl, rfl, rfl, rfl, id, fun zombie => absurd zombie running⟩

theorem frame_setConnection
    (state : State) (number : Nat) (connection : Connection) (index : Nat)
    {process : Process} (running : process.phase ≠ .zombie) :
    ChildFrame state
      ((state.setConnection number connection).setChild index process) index
      process :=
  ⟨rfl, rfl, rfl, rfl, rfl, rfl, List.length_set, id,
    fun zombie => absurd zombie running⟩

/-- A child keeps its identifier, and its descriptors stay those of its phase. -/
structure Continues (listenfd : Nat) (before after : Process) : Prop where
  pid : after.pid = before.pid
  running : before.phase ≠ .zombie ∧ before.phase ≠ .reaped
  existing : after.phase ≠ .reaped
  unfinished : Unfinished after.phase
  fits :
    ∀ {base : Descriptors} {number : Nat},
      base listenfd ≠ none → ProcessFits listenfd base number before →
        ProcessFits listenfd base number after

/-- While it serves its client, a child changes no descriptor. -/
theorem Serves.continues
    {listenfd connfd : Nat} {process : Process} {phase : Child}
    (before : Serves connfd process.phase) (after : Serves connfd phase)
    (unfinished : Unfinished phase) :
    Continues listenfd process { process with phase := phase } := by
  refine ⟨rfl, before.running, after.running.2, unfinished, ?_⟩
  intro base number _ fits
  have afterwards :
      Serves connfd ({ process with phase := phase } : Process).phase :=
    after
  exact afterwards.fits_iff.mpr (before.fits_iff.mp fits)

theorem exists_of_childStep
    {listenfd : Nat} {state result : State} {index : Nat} {process : Process}
    {call : Call}
    (step : ChildStep listenfd state index process call result) :
    ∃ after, ChildFrame state result index after ∧
      Continues listenfd process after := by
  cases step with
  | started connfd phase =>
      refine ⟨_, frame_setChild state index nofun, rfl, ?_, nofun, nofun, ?_⟩
      · rw [phase]
        exact ⟨nofun, nofun⟩
      · intro base number listening fits
        rw [ProcessFits, phase] at fits
        rcases fits with ⟨unused, held⟩
        have different : connfd ≠ listenfd := by
          rintro rfl
          exact listening unused
        refine ⟨unused, ?_⟩
        show process.descriptors.set listenfd none = _
        rw [held, set_set_of_ne base different]
  | readFailed connfd interrupted phase =>
      have after :
          Serves connfd
            (if interrupted then .reading connfd else .closing connfd) := by
        cases interrupted with
        | false => exact .inr (.inr rfl)
        | true => exact .inl rfl
      have unfinished :
          Unfinished
            (if interrupted then .reading connfd else .closing connfd) := by
        cases interrupted <;> exact nofun
      have before : Serves connfd process.phase :=
        .inl phase
      exact
        ⟨_, frame_setChild state index after.running.1,
          before.continues after unfinished⟩
  | readEnd connfd number connection phase named found empty closed =>
      have before : Serves connfd process.phase :=
        .inl phase
      have after : Serves connfd (.closing connfd) :=
        .inr (.inr rfl)
      exact
        ⟨_, frame_setChild state index after.running.1,
          before.continues after nofun⟩
  | read connfd number connection bytes phase named found nonempty available =>
      have before : Serves connfd process.phase :=
        .inl phase
      have after := serves_inWriten connfd (writenLoop bytes)
      exact
        ⟨_, frame_setConnection state number _ index after.running.1,
          before.continues after (unfinished_writenLoop connfd bytes)⟩
  | writeFailed connfd left interrupted phase =>
      have before : Serves connfd process.phase :=
        .inr (.inl ⟨left, phase⟩)
      have after :=
        serves_inWriten connfd (writenAfter left (.failed interrupted))
      exact
        ⟨_, frame_setChild state index after.running.1,
          before.continues after (unfinished_writenAfter connfd left _)⟩
  | write connfd number connection left count phase named found possible =>
      have before : Serves connfd process.phase :=
        .inr (.inl ⟨left, phase⟩)
      have after :=
        serves_inWriten connfd (writenAfter left (.returned count))
      exact
        ⟨_, frame_setConnection state number _ index after.running.1,
          before.continues after (unfinished_writenAfter connfd left _)⟩
  | closed connfd phase =>
      have before : Serves connfd process.phase :=
        .inr (.inr phase)
      refine
        ⟨_, frame_setChild state index nofun, rfl, before.running, nofun,
          nofun, ?_⟩
      intro base number listening fits
      rw [before.fits_iff] at fits
      rcases fits with ⟨unused, held⟩
      have different : connfd ≠ listenfd := by
        rintro rfl
        exact listening unused
      have stillUnused : base.set listenfd none connfd = none := by
        rw [Descriptors.set, if_neg different, unused]
      show process.descriptors.set connfd none = base.set listenfd none
      rw [held, set_set_none stillUnused]
  | exited phase =>
      refine
        ⟨_, ⟨rfl, rfl, rfl, rfl, rfl, rfl, rfl, fun _ => rfl, fun _ => rfl⟩,
          rfl, ?_, nofun, nofun, ?_⟩
      · rw [phase]
        exact ⟨nofun, nofun⟩
      · intro base number _ _
        rfl

/-! ## Isolation -/

/--
Every process holds the descriptors of its phase.  The child with an index
works on the connection that is assigned to the index; later children have
later connections.
-/
structure Sound
    (listenfd : Nat) (base : Descriptors) (assigned : Nat → Nat)
    (state : State) : Prop where
  main : MainFits base state
  children :
    ∀ index process, state.children[index]? = some process →
      ProcessFits listenfd base (assigned index) process
  increasing :
    ∀ earlier later, earlier < later → later < state.children.length →
      assigned earlier < assigned later
  below : ∀ index < state.children.length, assigned index < state.accepted
  unforked :
    ∀ connfd, state.main = .forking connfd →
      ∀ index < state.children.length, assigned index + 1 < state.accepted
  inside : state.accepted ≤ state.connections.length

section Sound

variable {listenfd : Nat} {base : Descriptors} {assigned : Nat → Nat}
  {state result : State}

/-- The entry of one child changes, and nothing that the others depend on. -/
theorem Sound.setChild
    (sound : Sound listenfd base assigned state)
    {index : Nat} {process : Process}
    (fits : ProcessFits listenfd base (assigned index) process)
    (children : result.children = state.children.set index process)
    (main : result.main = state.main)
    (descriptors : result.descriptors = state.descriptors)
    (accepted : result.accepted = state.accepted)
    (connections : result.connections.length = state.connections.length) :
    Sound listenfd base assigned result where
  main := by
    have fits := sound.main
    rw [MainFits] at fits ⊢
    rw [main, descriptors, accepted]
    exact fits
  children := by
    intro other found inList
    rw [children, List.getElem?_set] at inList
    split at inList
    case isTrue same =>
      split at inList
      · cases inList
        rw [← same]
        exact fits
      · cases inList
    case isFalse => exact sound.children other found inList
  increasing := by
    rw [children, List.length_set]
    exact sound.increasing
  below := by
    rw [children, List.length_set, accepted]
    exact sound.below
  unforked := by
    rw [main, children, List.length_set, accepted]
    exact sound.unforked
  inside := by
    rw [accepted, connections]
    exact sound.inside

/-- A new child has the connection that the parent has just accepted. -/
theorem Sound.fork
    (sound : Sound listenfd base assigned state)
    {connfd pid : Nat} (forking : state.main = .forking connfd) :
    Sound listenfd base
      (Function.update assigned state.children.length (state.accepted - 1))
      { state with
        main := .printing connfd pid
        children :=
          state.children ++
            [{ pid := pid
               descriptors := state.descriptors
               phase := .started connfd }] } where
  main := by
    have fits := sound.main
    rw [MainFits, forking] at fits
    exact fits
  children := by
    intro index process inList
    rcases Nat.lt_trichotomy index state.children.length with
      old | rfl | beyond
    · rw [List.getElem?_append_left old] at inList
      rw [Function.update_of_ne old.ne]
      exact sound.children index process inList
    · rw [List.getElem?_concat_length] at inList
      cases inList
      have fits := sound.main
      rw [MainFits, forking] at fits
      rcases fits with ⟨unused, number, accepted, held⟩
      rw [Function.update_self, accepted, Nat.add_sub_cancel]
      exact ⟨unused, held⟩
    · rw [List.getElem?_eq_none (by rw [List.length_append]; exact beyond)]
        at inList
      cases inList
  increasing := by
    intro earlier later order within
    rw [List.length_append, List.length_singleton] at within
    have old : earlier < state.children.length := by
      omega
    rw [Function.update_of_ne old.ne]
    rcases Nat.lt_succ_iff_lt_or_eq.mp within with inside | rfl
    · rw [Function.update_of_ne inside.ne]
      exact sound.increasing earlier later order inside
    · rw [Function.update_self]
      have before := sound.unforked connfd forking earlier old
      omega
  below := by
    intro index within
    rw [List.length_append, List.length_singleton] at within
    rcases Nat.lt_succ_iff_lt_or_eq.mp within with inside | rfl
    · rw [Function.update_of_ne inside.ne]
      exact sound.below index inside
    · have fits := sound.main
      rw [MainFits, forking] at fits
      rcases fits with ⟨_, number, accepted, _⟩
      rw [Function.update_self]
      show state.accepted - 1 < state.accepted
      omega
  unforked := nofun
  inside := sound.inside

/-- A new child is assigned the connection that was accepted last. -/
def assignedAfter
    (state : State) (action : Action) (assigned : Nat → Nat) : Nat → Nat :=
  match action with
  | .fork (some _) =>
      Function.update assigned state.children.length (state.accepted - 1)
  | _ => assigned

theorem Sound.next
    (listening : base listenfd ≠ none)
    (sound : Sound listenfd base assigned state) {action : Action}
    (step : Tcpserv.next listenfd state action = some result) :
    Sound listenfd base (assignedAfter state action assigned) result := by
  cases step_of_next step with
  | connect =>
      refine ⟨sound.main, sound.children, sound.increasing,
        sound.below, sound.unforked, ?_⟩
      have inside := sound.inside
      show state.accepted ≤ (state.connections ++ _).length
      rw [List.length_append]
      omega
  | clientSend number bytes connection found isOpen =>
      refine ⟨sound.main, sound.children, sound.increasing,
        sound.below, sound.unforked, ?_⟩
      exact sound.inside.trans (Nat.le_of_eq List.length_set.symm)
  | clientClose number connection found =>
      refine ⟨sound.main, sound.children, sound.increasing,
        sound.below, sound.unforked, ?_⟩
      exact sound.inside.trans (Nat.le_of_eq List.length_set.symm)
  | accepted connfd accepting idle queued unused =>
      have held := sound.main
      rw [MainFits, accepting] at held
      refine ⟨?_, sound.children, sound.increasing, ?_, ?_, queued⟩
      · refine ⟨?_, state.accepted, rfl, ?_⟩
        · rw [← held, unused]
        · rw [← held]
      · intro index within
        exact Nat.lt_succ_of_lt (sound.below index within)
      · intro _ _ index within
        exact Nat.succ_lt_succ (sound.below index within)
  | acceptInterrupted accepting idle interrupted =>
      exact
        ⟨sound.main, sound.children, sound.increasing, sound.below,
          sound.unforked, sound.inside⟩
  | acceptFailed accepting idle =>
      exact
        ⟨rfl, sound.children, sound.increasing, sound.below, nofun,
          sound.inside⟩
  | forkFailed connfd forking idle =>
      have held := sound.main
      rw [MainFits, forking] at held
      exact
        ⟨held, sound.children, sound.increasing, sound.below, nofun,
          sound.inside⟩
  | forked connfd pid forking idle positive fresh =>
      exact sound.fork forking
  | printStart connfd childpid printing idle =>
      have held := sound.main
      rw [MainFits, printing] at held
      exact
        ⟨held, sound.children, sound.increasing, sound.below, nofun,
          sound.inside⟩
  | close connfd closing idle =>
      have held := sound.main
      rw [MainFits, closing] at held
      rcases held with ⟨unused, number, accepted, held⟩
      refine
        ⟨?_, sound.children, sound.increasing, sound.below, nofun,
          sound.inside⟩
      show state.descriptors.set connfd none = base
      rw [held, set_set_none unused]
  | deliver pending idle running =>
      exact
        ⟨sound.main, sound.children, sound.increasing, sound.below,
          sound.unforked, sound.inside⟩
  | waited index process waiting found zombie =>
      have fits := sound.children index process found
      rw [ProcessFits, zombie] at fits
      have reaped :
          ProcessFits listenfd base (assigned index)
            { process with phase := .reaped } :=
        fits
      exact sound.setChild reaped rfl rfl rfl rfl rfl
  | waitedAll waiting noZombie =>
      exact
        ⟨sound.main, sound.children, sound.increasing, sound.below,
          sound.unforked, sound.inside⟩
  | printTerminated pid printing =>
      exact
        ⟨sound.main, sound.children, sound.increasing, sound.below,
          sound.unforked, sound.inside⟩
  | child index process call _ found step =>
      rcases exists_of_childStep step with ⟨after, frame, continues⟩
      have fits := continues.fits listening (sound.children index process found)
      exact
        sound.setChild fits frame.children frame.main frame.descriptors
          frame.accepted frame.length_connections

end Sound

theorem sound_start
    (listenfd : Nat) (inherited : Finset Nat) (assigned : Nat → Nat) :
    Sound listenfd (openDescriptors listenfd inherited) assigned
      (start listenfd inherited) where
  main := rfl
  children := nofun
  increasing := nofun
  below := nofun
  unforked := nofun
  inside := Nat.le_refl 0

theorem listening_ne_none (listenfd : Nat) (inherited : Finset Nat) :
    openDescriptors listenfd inherited listenfd ≠ none := by
  rw [openDescriptors, if_pos rfl]
  exact Option.some_ne_none _

theorem exists_sound_of_reachable
    {listenfd : Nat} {inherited : Finset Nat} {state : State}
    (reachable :
      Reachable (next listenfd) (start listenfd inherited) state) :
    ∃ assigned,
      Sound listenfd (openDescriptors listenfd inherited) assigned state := by
  have listening := listening_ne_none listenfd inherited
  apply reachable.invariant _ ⟨id, sound_start listenfd inherited id⟩
  rintro before action after ⟨assigned, sound⟩ step
  exact ⟨_, sound.next listening step⟩

/-- No descriptor of a new process names a connection. -/
theorem openDescriptors_ne_connection
    (listenfd : Nat) (inherited : Finset Nat) (fd number : Nat) :
    openDescriptors listenfd inherited fd ≠ some (.connection number) := by
  rw [openDescriptors]
  split
  · exact nofun
  · split
    · exact nofun
    · exact nofun

theorem eq_of_set_connection
    {descriptors : Descriptors} {connfd number fd other : Nat}
    (unnamed : descriptors fd ≠ some (.connection other))
    (named :
      descriptors.set connfd (some (.connection number)) fd =
        some (.connection other)) :
    fd = connfd ∧ other = number := by
  rw [Descriptors.set] at named
  split at named
  case isTrue same =>
    cases named
    exact ⟨same, rfl⟩
  case isFalse => exact absurd named unnamed

/-- A child holds no connection but its own, under one descriptor. -/
theorem ProcessFits.eq_of_connection
    {listenfd : Nat} {inherited : Finset Nat} {number : Nat}
    {process : Process}
    (fits :
      ProcessFits listenfd (openDescriptors listenfd inherited) number process)
    {fd other : Nat}
    (named : process.descriptors fd = some (.connection other)) :
    other = number ∧
      (process.phase = .started fd ∨ Serves fd process.phase) := by
  have base := openDescriptors_ne_connection listenfd inherited fd other
  have rest :
      (openDescriptors listenfd inherited).set listenfd none fd ≠
        some (.connection other) := by
    rw [Descriptors.set]
    split
    · exact nofun
    · exact base
  rw [ProcessFits] at fits
  split at fits
  case h_1 connfd phase =>
    rw [fits.2] at named
    rcases eq_of_set_connection base named with ⟨rfl, same⟩
    exact ⟨same, .inl phase⟩
  case h_2 connfd phase =>
    rw [fits.2] at named
    rcases eq_of_set_connection rest named with ⟨rfl, same⟩
    exact ⟨same, .inr (.inl phase)⟩
  case h_3 connfd left phase =>
    rw [fits.2] at named
    rcases eq_of_set_connection rest named with ⟨rfl, same⟩
    exact ⟨same, .inr (.inr (.inl ⟨left, phase⟩))⟩
  case h_4 connfd phase =>
    rw [fits.2] at named
    rcases eq_of_set_connection rest named with ⟨rfl, same⟩
    exact ⟨same, .inr (.inr (.inr phase))⟩
  case h_5 =>
    rw [fits] at named
    exact absurd named rest
  case h_6 =>
    rw [fits] at named
    cases named
  case h_7 =>
    rw [fits] at named
    cases named

theorem Sound.injective
    {listenfd : Nat} {base : Descriptors} {assigned : Nat → Nat}
    {state : State} (sound : Sound listenfd base assigned state)
    {left right : Nat} (leftInside : left < state.children.length)
    (rightInside : right < state.children.length)
    (same : assigned left = assigned right) :
    left = right := by
  rcases Nat.lt_trichotomy left right with before | equal | after
  · exact absurd same (sound.increasing left right before rightInside).ne
  · exact equal
  · exact absurd same.symm (sound.increasing right left after leftInside).ne

/-- The child has a descriptor for the connection. -/
def Holds (state : State) (number index : Nat) : Prop :=
  ∃ process fd, state.children[index]? = some process ∧
    process.descriptors fd = some (.connection number)

/--
In every state that the server can reach: before `accept` the parent holds the
descriptors with which it began, and otherwise at most one connection more,
the last one that it has accepted.  No two children hold one connection, and
no child holds two.  A child that serves its client does not hold the
listening socket.
-/
theorem reachable_isolated
    (listenfd : Nat) (inherited : Finset Nat) (state : State)
    (reachable :
      Reachable (next listenfd) (start listenfd inherited) state) :
    (state.main = .accepting →
        state.descriptors = openDescriptors listenfd inherited) ∧
      (∀ fd number, state.descriptors fd = some (.connection number) →
        state.main ≠ .accepting ∧ state.accepted = number + 1) ∧
      (∀ number left right,
        Holds state number left → Holds state number right → left = right) ∧
      (∀ index left right,
        Holds state left index → Holds state right index → left = right) ∧
      ∀ (index : Nat) (process : Process) (connfd : Nat),
        state.children[index]? = some process →
          Serves connfd process.phase →
            ∀ fd, process.descriptors fd ≠ some .listening := by
  rcases exists_sound_of_reachable reachable with ⟨assigned, sound⟩
  have main := sound.main
  have owned (number index : Nat) (holds : Holds state number index) :
      index < state.children.length ∧ number = assigned index := by
    rcases holds with ⟨process, fd, found, named⟩
    have fits := sound.children index process found
    exact
      ⟨(List.getElem?_eq_some_iff.mp found).1,
        (fits.eq_of_connection named).1⟩
  refine ⟨?_, ?_, ?_, ?_, ?_⟩
  · intro accepting
    rw [MainFits, accepting] at main
    exact main
  · intro fd number named
    have base := openDescriptors_ne_connection listenfd inherited fd number
    rw [MainFits] at main
    split at main
    case h_1 =>
      rw [main] at named
      exact absurd named base
    case h_5 =>
      rw [main] at named
      cases named
    all_goals
      rename_i inMain
      rcases main with ⟨_, last, accepted, held⟩
      rw [held] at named
      rw [inMain, accepted, (eq_of_set_connection base named).2]
      exact ⟨nofun, rfl⟩
  · intro number left right leftHolds rightHolds
    have leftOwned := owned number left leftHolds
    have rightOwned := owned number right rightHolds
    exact
      sound.injective leftOwned.1 rightOwned.1
        (leftOwned.2.symm.trans rightOwned.2)
  · intro index left right leftHolds rightHolds
    rw [(owned left index leftHolds).2, (owned right index rightHolds).2]
  · intro index process connfd found serves fd named
    have fits := serves.fits_iff.mp (sound.children index process found)
    rw [fits.2, Descriptors.set] at named
    split at named
    · cases named
    · rw [Descriptors.set] at named
      split at named
      · cases named
      · rename_i other
        rw [openDescriptors, if_neg other] at named
        split at named <;> cases named

/-- Two clients in a row; both children know their client under descriptor 4. -/
def twoClients : List Action :=
  [.connect, .connect, .accept (.connected 4), .fork (some 100), .printStart,
    .close, .accept (.connected 4), .child 0 .close, .fork (some 101),
    .child 1 .close]

theorem reachable_isolated_twoClients :
    ∃ state,
      run (next 3) (start 3 {0, 1, 2}) twoClients = some state ∧
        state.children.map (fun process => process.descriptors 4) =
          [some (.connection 0), some (.connection 1)] ∧
        (∀ number left right,
          Holds state number left → Holds state number right → left = right) ∧
        ∀ fd number, state.descriptors fd = some (.connection number) →
          state.accepted = number + 1 := by
  have ran :
      (run (next 3) (start 3 {0, 1, 2}) twoClients).map
          (fun state =>
            state.children.map (fun process => process.descriptors 4)) =
        some [some (.connection 0), some (.connection 1)] := by
    decide
  rcases Option.map_eq_some_iff.mp ran with ⟨state, ran, held⟩
  have isolated := reachable_isolated 3 {0, 1, 2} state ⟨twoClients, ran⟩
  exact
    ⟨state, ran, held, isolated.2.2.1,
      fun fd number named => (isolated.2.1 fd number named).2⟩

end CodingExamples.EchoServer.Processes
