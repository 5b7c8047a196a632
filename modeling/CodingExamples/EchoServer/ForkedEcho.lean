import CodingExamples.EchoServer.Reaping

/-!
# Every client of the server that forks gets its own bytes back

Between two of its writes a child owes its client what it has read and not yet
written.  A child leaves `str_echo` when its client has closed and nothing is
left to read, so that a server at rest has sent to each client exactly what
this client has sent.
-/

namespace CodingExamples.EchoServer.ForkedEcho

open CodingExamples.EchoServer.Processes
open CodingExamples.EchoServer.Reaping
open CodingExamples.EchoServer.Tcpserv
open CodingExamples.EchoServer.Unp
open CodingExamples.Library.Execution
open CodingExamples.Library.ListTable

/-- No `fork`, `read` or `write` fails, except that signals interrupt them. -/
def Faultless : Action → Bool
  | .fork none => false
  | .child _ (.read (.failed interrupted)) => interrupted
  | .child _ (.write (.failed interrupted)) => interrupted
  | .child _ (.write (.returned count)) => decide (0 < count)
  | _ => true

/-- What a child has read and not yet written. -/
def owed : Child → List (BitVec 8)
  | .writing _ left => left
  | _ => []

/-- The child has left `str_echo`. -/
def Finished : Child → Prop
  | .closing _ | .exiting | .zombie | .reaped => True
  | _ => False

/-- The client has closed and all its bytes have been read. -/
def Connection.Exhausted (connection : Tcpserv.Connection) : Prop :=
  connection.unread = [] ∧ connection.clientClosed = true

/-- A connection was accepted and no child has been forked for it. -/
def unforked : Main → Nat
  | .forking _ => 1
  | _ => 0

/-- Every connection has got back what was read from it, but for what is owed. -/
structure Echoing (assigned : Nat → Nat) (state : State) : Prop where
  served :
    ∀ (index : Nat) (process : Process) (connection : Tcpserv.Connection),
      state.children[index]? = some process →
        state.connections[assigned index]? = some connection →
          connection.received = connection.sent ++ owed process.phase
  unserved :
    ∀ (number : Nat) (connection : Tcpserv.Connection),
      state.connections[number]? = some connection →
        (∀ index < state.children.length, assigned index ≠ number) →
          connection.received = [] ∧ connection.sent = []
  finished :
    ∀ (index : Nat) (process : Process) (connection : Tcpserv.Connection),
      state.children[index]? = some process → Finished process.phase →
        state.connections[assigned index]? = some connection →
          Connection.Exhausted connection
  forked : state.children.length + unforked state.main = state.accepted

theorem echoing_start (listenfd : Nat) (inherited : Finset Nat) :
    Echoing id (start listenfd inherited) where
  served := nofun
  unserved := nofun
  finished := nofun
  forked := rfl

/-- `writen` owes the bytes that it was given. -/
theorem owed_writenLoop (connfd : Nat) (left : List (BitVec 8)) :
    owed (inWriten connfd (writenLoop left)) = left := by
  rw [writenLoop]
  split
  case isTrue => rfl
  case isFalse nothing =>
    exact
      (List.eq_nil_of_length_eq_zero (Nat.eq_zero_of_not_pos nothing)).symm

theorem not_finished_inWriten (connfd : Nat) (writen : Writen) :
    ¬ Finished (inWriten connfd writen) := by
  cases writen <;> exact id

section Echoing

variable {listenfd : Nat} {inherited : Finset Nat} {assigned : Nat → Nat}
  {state result : State}

/-- The parent goes on. -/
theorem Echoing.of_same
    (echoing : Echoing assigned state)
    (children : result.children = state.children)
    (connections : result.connections = state.connections)
    (forked :
      state.children.length + unforked result.main = result.accepted) :
    Echoing assigned result where
  served := by
    rw [children, connections]
    exact echoing.served
  unserved := by
    rw [children, connections]
    exact echoing.unserved
  finished := by
    rw [children, connections]
    exact echoing.finished
  forked := by
    rw [children]
    exact forked

/-- A client changes what is to be read from its connection. -/
theorem Echoing.setConnection
    (echoing : Echoing assigned state) {number : Nat}
    {connection changed : Tcpserv.Connection}
    (found : state.connections[number]? = some connection)
    (received : changed.received = connection.received)
    (sent : changed.sent = connection.sent)
    (exhausted :
      Connection.Exhausted connection → Connection.Exhausted changed) :
    Echoing assigned (state.setConnection number changed) where
  served := by
    intro index process other inList inTable
    rcases getElem?_set_cases inTable with ⟨same, rfl⟩ | ⟨_, old⟩
    · rw [received, sent]
      rw [← same] at found
      exact echoing.served index process connection inList found
    · exact echoing.served index process other inList old
  unserved := by
    intro other found' inTable free
    rcases getElem?_set_cases inTable with ⟨rfl, rfl⟩ | ⟨_, old⟩
    · rw [received, sent]
      exact echoing.unserved other connection found free
    · exact echoing.unserved other found' old free
  finished := by
    intro index process other inList finished inTable
    rcases getElem?_set_cases inTable with ⟨same, rfl⟩ | ⟨_, old⟩
    · rw [← same] at found
      exact
        exhausted (echoing.finished index process connection inList finished found)
    · exact echoing.finished index process other inList finished old
  forked := echoing.forked

theorem Echoing.connect
    (echoing : Echoing assigned state)
    {base : Descriptors} (sound : Sound listenfd base assigned state) :
    Echoing assigned
      { state with
        connections := state.connections ++ [⟨[], false, [], []⟩] } := by
  have old {index : Nat} {process : Process} {connection : Tcpserv.Connection}
      (inList : state.children[index]? = some process)
      (inTable :
        (state.connections ++ [⟨[], false, [], []⟩])[assigned index]? =
          some connection) :
      state.connections[assigned index]? = some connection := by
    have below :=
      sound.below index (List.getElem?_eq_some_iff.mp inList).1
    rwa [List.getElem?_append_left (Nat.lt_of_lt_of_le below sound.inside)]
      at inTable
  refine ⟨?_, ?_, ?_, echoing.forked⟩
  · intro index process connection inList inTable
    exact echoing.served index process connection inList (old inList inTable)
  · intro number connection inTable free
    rw [List.getElem?_append] at inTable
    split at inTable
    case isTrue => exact echoing.unserved number connection inTable free
    case isFalse =>
      have new := List.mem_singleton.mp (List.mem_of_getElem? inTable)
      rw [new]
      exact ⟨rfl, rfl⟩
  · intro index process connection inList finished inTable
    exact
      echoing.finished index process connection inList finished
        (old inList inTable)

theorem Echoing.fork
    (echoing : Echoing assigned state)
    {base : Descriptors} (sound : Sound listenfd base assigned state)
    {connfd pid : Nat} (forking : state.main = .forking connfd) :
    Echoing
      (Function.update assigned state.children.length (state.accepted - 1))
      { state with
        main := .printing connfd pid
        children :=
          state.children ++
            [{ pid := pid
               descriptors := state.descriptors
               phase := .started connfd }] } := by
  have cases_of_getElem? {index : Nat} {process : Process}
      (inList :
        (state.children ++
            [{ pid := pid
               descriptors := state.descriptors
               phase := .started connfd }])[index]? = some process) :
      (index < state.children.length ∧
          state.children[index]? = some process) ∨
        (index = state.children.length ∧ process.phase = .started connfd) := by
    rw [List.getElem?_append] at inList
    split at inList
    case isTrue old => exact .inl ⟨old, inList⟩
    case isFalse beyond =>
      right
      have last := (List.getElem?_eq_some_iff.mp inList).1
      rw [List.length_singleton] at last
      have new := List.mem_singleton.mp (List.mem_of_getElem? inList)
      exact ⟨by omega, by rw [new]⟩
  refine ⟨?_, ?_, ?_, ?_⟩
  · intro index process connection inList inTable
    rcases cases_of_getElem? inList with ⟨old, inOld⟩ | ⟨rfl, phase⟩
    · rw [Function.update_of_ne old.ne] at inTable
      exact echoing.served index process connection inOld inTable
    · rw [Function.update_self] at inTable
      have free :
          ∀ index < state.children.length,
            assigned index ≠ state.accepted - 1 := by
        intro other inside same
        have before := sound.unforked connfd forking other inside
        omega
      have nothing :=
        echoing.unserved (state.accepted - 1) connection inTable free
      rw [nothing.1, nothing.2, phase]
      rfl
  · intro number connection inTable free
    apply echoing.unserved number connection inTable
    intro index inside
    have other :=
      free index
        (Nat.lt_of_lt_of_le inside (by simp))
    rwa [Function.update_of_ne inside.ne] at other
  · intro index process connection inList finished inTable
    rcases cases_of_getElem? inList with ⟨old, inOld⟩ | ⟨rfl, phase⟩
    · rw [Function.update_of_ne old.ne] at inTable
      exact echoing.finished index process connection inOld finished inTable
    · rw [phase] at finished
      exact finished.elim
  · have before := echoing.forked
    rw [forking] at before
    show (state.children ++ _).length + 0 = state.accepted
    rw [List.length_append]
    exact before

/-- A child goes on without a byte more or less. -/
theorem Echoing.setChild
    (echoing : Echoing assigned state) {index : Nat} {process after : Process}
    (found : state.children[index]? = some process)
    (same : owed after.phase = owed process.phase)
    (exhausted :
      Finished after.phase → ∀ connection,
        state.connections[assigned index]? = some connection →
          Connection.Exhausted connection)
    (children : result.children = state.children.set index after)
    (connections : result.connections = state.connections)
    (main : result.main = state.main)
    (accepted : result.accepted = state.accepted) :
    Echoing assigned result := by
  refine ⟨?_, ?_, ?_, ?_⟩
  · rw [children, connections]
    intro other entry connection inList inTable
    rcases getElem?_set_cases inList with ⟨rfl, rfl⟩ | ⟨_, old⟩
    · rw [same]
      exact echoing.served other process connection found inTable
    · exact echoing.served other entry connection old inTable
  · rw [children, connections, List.length_set]
    exact echoing.unserved
  · rw [children, connections]
    intro other entry connection inList finished inTable
    rcases getElem?_set_cases inList with ⟨rfl, rfl⟩ | ⟨_, old⟩
    · exact exhausted finished connection inTable
    · exact echoing.finished other entry connection old finished inTable
  · rw [children, main, accepted, List.length_set]
    exact echoing.forked

/-- A child reads from its connection or writes to it. -/
theorem Echoing.transfer
    (echoing : Echoing assigned state)
    {base : Descriptors} (sound : Sound listenfd base assigned state)
    {index : Nat} {process after : Process}
    (found : state.children[index]? = some process)
    {changed : Tcpserv.Connection}
    (balance : changed.received = changed.sent ++ owed after.phase)
    (unfinished : ¬ Finished after.phase) :
    Echoing assigned
      ((state.setConnection (assigned index) changed).setChild index after) := by
  have inside := (List.getElem?_eq_some_iff.mp found).1
  have own {other : Nat} (otherInside : other < state.children.length)
      (same : assigned other = assigned index) : other = index :=
    sound.injective otherInside inside same
  refine ⟨?_, ?_, ?_, ?_⟩
  · intro other entry connection inList inTable
    rcases getElem?_set_cases inList with ⟨rfl, rfl⟩ | ⟨different, old⟩
    · rcases getElem?_set_cases inTable with ⟨_, rfl⟩ | ⟨apart, _⟩
      · exact balance
      · exact absurd rfl apart
    · rcases getElem?_set_cases inTable with ⟨same, _⟩ | ⟨_, inOld⟩
      · exact
          absurd (own (List.getElem?_eq_some_iff.mp old).1 same) different
      · exact echoing.served other entry connection old inOld
  · intro number connection inTable free
    have free' :
        ∀ other < state.children.length, assigned other ≠ number := by
      intro other otherInside
      apply free other
      show other < (state.children.set index after).length
      rw [List.length_set]
      exact otherInside
    rcases getElem?_set_cases inTable with ⟨same, _⟩ | ⟨_, inOld⟩
    · exact absurd same.symm (free' index inside)
    · exact echoing.unserved number connection inOld free'
  · intro other entry connection inList finished inTable
    rcases getElem?_set_cases inList with ⟨rfl, rfl⟩ | ⟨different, old⟩
    · exact absurd finished unfinished
    · rcases getElem?_set_cases inTable with ⟨same, _⟩ | ⟨_, inOld⟩
      · exact
          absurd (own (List.getElem?_eq_some_iff.mp old).1 same) different
      · exact echoing.finished other entry connection old finished inOld
  · show (state.children.set index after).length + unforked state.main =
      state.accepted
    rw [List.length_set]
    exact echoing.forked

theorem Echoing.childStep
    (echoing : Echoing assigned state)
    (sound :
      Sound listenfd (openDescriptors listenfd inherited) assigned state)
    {index : Nat} {process : Process} {call : Call}
    (found : state.children[index]? = some process)
    (faultless : Faultless (.child index call) = true)
    (step : ChildStep listenfd state index process call result) :
    Echoing assigned result := by
  have fits := sound.children index process found
  have own {connfd number : Nat}
      (named : process.connection connfd = some number) :
      number = assigned index := by
    rw [Process.connection] at named
    split at named
    case h_1 other held =>
      cases named
      exact (fits.eq_of_connection held).1
    case h_2 => cases named
  cases step with
  | started connfd phase =>
      refine echoing.setChild found ?_ ?_ rfl rfl rfl rfl
      · rw [phase]
        rfl
      · exact fun impossible => impossible.elim
  | readFailed connfd interrupted phase =>
      have again : interrupted = true :=
        faultless
      subst again
      refine echoing.setChild found ?_ ?_ rfl rfl rfl rfl
      · rw [phase]
        rfl
      · exact fun impossible => impossible.elim
  | readEnd connfd number connection phase named inTable empty closed =>
      refine echoing.setChild found ?_ ?_ rfl rfl rfl rfl
      · rw [phase]
        rfl
      · intro _ other otherInTable
        rw [← own named, inTable] at otherInTable
        cases otherInTable
        exact ⟨empty, closed⟩
  | read connfd number connection bytes phase named inTable nonempty available =>
      have same := own named
      subst same
      have balance := echoing.served index process connection found inTable
      rw [phase] at balance
      refine echoing.transfer sound found ?_ (not_finished_inWriten connfd _)
      rw [owed_writenLoop]
      show connection.received ++ bytes = connection.sent ++ bytes
      rw [balance]
      exact congrArg (· ++ bytes) (List.append_nil connection.sent)
  | writeFailed connfd left interrupted phase =>
      have again : interrupted = true :=
        faultless
      subst again
      refine echoing.setChild found ?_ ?_ rfl rfl rfl rfl
      · rw [phase]
        exact owed_writenLoop connfd left
      · exact fun impossible => absurd impossible (not_finished_inWriten _ _)
  | write connfd number connection left count phase named inTable possible =>
      have same := own named
      subst same
      have positive : 0 < count :=
        of_decide_eq_true faultless
      have balance := echoing.served index process connection found inTable
      rw [phase] at balance
      refine echoing.transfer sound found ?_ (not_finished_inWriten connfd _)
      rw [writenAfter, if_neg (Nat.ne_of_gt positive), owed_writenLoop]
      show connection.received =
        connection.sent ++ left.take count ++ left.drop count
      rw [List.append_assoc, List.take_append_drop]
      exact balance
  | closed connfd phase =>
      refine echoing.setChild found ?_ ?_ rfl rfl rfl rfl
      · rw [phase]
        rfl
      · intro _ connection inTable
        apply echoing.finished index process connection found _ inTable
        rw [phase]
        exact trivial
  | exited phase =>
      refine echoing.setChild found ?_ ?_ rfl rfl rfl rfl
      · rw [phase]
        rfl
      · intro _ connection inTable
        apply echoing.finished index process connection found _ inTable
        rw [phase]
        exact trivial

theorem Echoing.next
    (echoing : Echoing assigned state)
    (sound :
      Sound listenfd (openDescriptors listenfd inherited) assigned state)
    {action : Action} (faultless : Faultless action = true)
    (step : Tcpserv.next listenfd state action = some result) :
    Echoing (assignedAfter state action assigned) result := by
  have forked := echoing.forked
  cases step_of_next step with
  | connect => exact echoing.connect sound
  | clientSend number bytes connection found isOpen =>
      refine echoing.setConnection found rfl rfl ?_
      intro exhausted
      rw [exhausted.2] at isOpen
      cases isOpen
  | clientClose number connection found =>
      refine echoing.setConnection found rfl rfl ?_
      intro exhausted
      exact ⟨exhausted.1, rfl⟩
  | accepted connfd accepting idle queued unused =>
      rw [accepting] at forked
      exact echoing.of_same rfl rfl (congrArg Nat.succ forked)
  | acceptInterrupted accepting idle interrupted =>
      exact echoing.of_same rfl rfl forked
  | acceptFailed accepting idle =>
      rw [accepting] at forked
      exact echoing.of_same rfl rfl forked
  | forkFailed connfd forking idle => cases faultless
  | forked connfd pid forking idle positive fresh =>
      exact echoing.fork sound forking
  | printStart connfd childpid printing idle =>
      rw [printing] at forked
      exact echoing.of_same rfl rfl forked
  | close connfd closing idle =>
      rw [closing] at forked
      exact echoing.of_same rfl rfl forked
  | deliver pending idle running =>
      exact echoing.of_same rfl rfl forked
  | waited index process waiting found zombie =>
      refine echoing.setChild found ?_ ?_ rfl rfl rfl rfl
      · rw [zombie]
        rfl
      · intro _ connection inTable
        apply echoing.finished index process connection found _ inTable
        rw [zombie]
        exact trivial
  | waitedAll waiting noZombie => exact echoing.of_same rfl rfl forked
  | printTerminated pid printing => exact echoing.of_same rfl rfl forked
  | child index process call _ found step =>
      exact echoing.childStep sound found faultless step

end Echoing

/-! ## What the clients have sent -/

/-- What one client sends in a run. -/
def input (number : Nat) (actions : List Action) : List (BitVec 8) :=
  actions.flatMap fun action =>
    match action with
    | .clientSend other bytes => if other = number then bytes else []
    | _ => []

/-- All bytes that a client has sent, read or not. -/
def traffic (state : State) (number : Nat) : List (BitVec 8) :=
  match state.connections[number]? with
  | some connection => connection.received ++ connection.unread
  | none => []

theorem traffic_of_getElem?
    {state : State} {number : Nat} {connection : Tcpserv.Connection}
    (found : state.connections[number]? = some connection) :
    traffic state number = connection.received ++ connection.unread := by
  rw [traffic, found]

theorem traffic_set
    {state result : State} {number : Nat}
    {connection changed : Tcpserv.Connection}
    (found : state.connections[number]? = some connection)
    (connections : result.connections = state.connections.set number changed)
    {bytes : List (BitVec 8)}
    (more :
      changed.received ++ changed.unread =
        connection.received ++ connection.unread ++ bytes)
    (other : Nat) :
    traffic result other =
      traffic state other ++ if number = other then bytes else [] := by
  by_cases same : number = other
  · subst same
    have inside := (List.getElem?_eq_some_iff.mp found).1
    have inTable : result.connections[number]? = some changed := by
      rw [connections, List.getElem?_set_self inside]
    rw [traffic_of_getElem? inTable, traffic_of_getElem? found, more, if_pos rfl]
  · rw [if_neg same, List.append_nil, traffic, traffic, connections,
      List.getElem?_set_ne same]

theorem traffic_set_eq
    {state result : State} {number : Nat}
    {connection changed : Tcpserv.Connection}
    (found : state.connections[number]? = some connection)
    (connections : result.connections = state.connections.set number changed)
    (same :
      changed.received ++ changed.unread =
        connection.received ++ connection.unread)
    (other : Nat) :
    traffic result other = traffic state other := by
  have nothing :
      changed.received ++ changed.unread =
        connection.received ++ connection.unread ++ [] := by
    rw [same, List.append_nil]
  rw [traffic_set found connections nothing, ite_self, List.append_nil]

theorem traffic_of_same
    {state result : State}
    (same : result.connections = state.connections) (number : Nat) :
    traffic result number = traffic state number := by
  rw [traffic, traffic, same]

/-- Reading moves bytes and writing leaves them; a child adds none. -/
theorem traffic_childStep
    {listenfd : Nat} {state result : State} {index : Nat} {process : Process}
    {call : Call}
    (step : ChildStep listenfd state index process call result)
    (number : Nat) :
    traffic result number = traffic state number := by
  cases step with
  | read connfd named connection bytes phase isNamed found nonempty available =>
      refine traffic_set_eq found rfl ?_ number
      rcases available with ⟨rest, split⟩
      dsimp only
      rw [← split, List.drop_left, List.append_assoc]
  | write connfd named connection left count phase isNamed found possible =>
      refine traffic_set_eq found rfl ?_ number
      rfl
  | started connfd phase => exact traffic_of_same rfl number
  | readFailed connfd interrupted phase => exact traffic_of_same rfl number
  | readEnd connfd named connection phase isNamed found empty closed =>
      exact traffic_of_same rfl number
  | writeFailed connfd left interrupted phase => exact traffic_of_same rfl number
  | closed connfd phase => exact traffic_of_same rfl number
  | exited phase => exact traffic_of_same rfl number

theorem traffic_next
    {listenfd : Nat} {state result : State} {action : Action}
    (step : next listenfd state action = some result) (number : Nat) :
    traffic result number = traffic state number ++ input number [action] := by
  cases step_of_next step with
  | connect =>
      by_cases inside : number < state.connections.length
      · rw [traffic, traffic, List.getElem?_append_left inside]
        exact (List.append_nil _).symm
      · rw [traffic, traffic, List.getElem?_append_right (not_lt.mp inside),
          List.getElem?_eq_none (not_lt.mp inside)]
        cases number - state.connections.length <;> rfl
  | clientSend other bytes connection found isOpen =>
      have more :
          connection.received ++ (connection.unread ++ bytes) =
            connection.received ++ connection.unread ++ bytes :=
        (List.append_assoc _ _ _).symm
      rw [traffic_set found rfl more number]
      exact congrArg (traffic state number ++ ·) (List.append_nil _).symm
  | clientClose other connection found =>
      refine
        (traffic_set_eq found rfl ?_ number).trans (List.append_nil _).symm
      rfl
  | child index process call _ found step =>
      rw [traffic_childStep step number]
      exact (List.append_nil _).symm
  | waited index process waiting found zombie =>
      exact (traffic_of_same rfl number).trans (List.append_nil _).symm
  | _ =>
      exact (List.append_nil _).symm

theorem traffic_of_run
    {listenfd : Nat} {state final : State} {actions : List Action}
    (ran : run (next listenfd) state actions = some final) (number : Nat) :
    traffic final number = traffic state number ++ input number actions := by
  induction actions generalizing state with
  | nil =>
      cases ran
      exact (List.append_nil _).symm
  | cons action rest ih =>
      rw [run_cons_eq_some_iff] at ran
      rcases ran with ⟨middle, step, ranRest⟩
      rw [ih ranRest, traffic_next step, List.append_assoc, input, input, input,
        ← List.flatMap_append]
      rfl

/-! ## Runs -/

/-- Numbers below a bound that increase strictly are all of them. -/
theorem eq_self_of_increasing
    {assigned : Nat → Nat} {count : Nat}
    (increasing :
      ∀ earlier later, earlier < later → later < count →
        assigned earlier < assigned later)
    (below : ∀ index < count, assigned index < count)
    {index : Nat} (inside : index < count) :
    assigned index = index := by
  have atLeast : ∀ other < count, other ≤ assigned other := by
    intro other
    induction other with
    | zero => exact fun _ => Nat.zero_le _
    | succ other ih =>
        intro otherInside
        have before := ih (Nat.lt_of_succ_lt otherInside)
        have step := increasing other (other + 1) (Nat.lt_succ_self other)
          otherInside
        omega
  have room : ∀ distance, index + distance < count →
      assigned index + distance ≤ assigned (index + distance) := by
    intro distance
    induction distance with
    | zero => exact fun _ => Nat.le_refl _
    | succ distance ih =>
        intro distanceInside
        have before := ih (Nat.lt_of_succ_lt distanceInside)
        have step :=
          increasing (index + distance) (index + distance + 1)
            (Nat.lt_succ_self _) distanceInside
        show assigned index + (distance + 1) ≤ assigned (index + distance + 1)
        omega
  have low := atLeast index inside
  have last := room (count - 1 - index) (by omega)
  have high := below (index + (count - 1 - index)) (by omega)
  omega

/-- The invariants hold at the end of every run without faults. -/
theorem exists_echoing_of_run
    {listenfd : Nat} {inherited : Finset Nat} {state : State}
    {actions : List Action}
    (ran :
      run (next listenfd) (start listenfd inherited) actions = some state)
    (faultless :
      Along (next listenfd) (fun _ action => Faultless action = true)
        (start listenfd inherited) actions) :
    ∃ assigned,
      Sound listenfd (openDescriptors listenfd inherited) assigned state ∧
        Echoing assigned state := by
  have preserved :
      ∀ before action after,
        (∃ assigned,
          Sound listenfd (openDescriptors listenfd inherited) assigned before ∧
            Echoing assigned before) →
          Faultless action = true →
            next listenfd before action = some after →
              ∃ assigned,
                Sound listenfd (openDescriptors listenfd inherited) assigned
                    after ∧
                  Echoing assigned after := by
    rintro before action after ⟨assigned, sound, echoing⟩ works step
    have listening := listening_ne_none listenfd inherited
    exact
      ⟨_, sound.next listening step, echoing.next sound works step⟩
  have initial :=
    And.intro (sound_start listenfd inherited id)
      (echoing_start listenfd inherited)
  have throughout := faultless.throughout preserved ⟨id, initial⟩
  exact throughout actions [] state (List.append_nil actions).symm ran

/-- What a connection was sent begins what its client has sent. -/
theorem Echoing.sent_prefix
    {assigned : Nat → Nat} {state : State}
    (echoing : Echoing assigned state) {number : Nat}
    {connection : Tcpserv.Connection}
    (found : state.connections[number]? = some connection) :
    connection.sent <+: connection.received := by
  by_cases free : ∀ index < state.children.length, assigned index ≠ number
  · rw [(echoing.unserved number connection found free).2]
    exact List.nil_prefix
  · simp only [not_forall, not_not] at free
    rcases free with ⟨index, inside, rfl⟩
    rw [echoing.served index _ connection (List.getElem?_eq_getElem inside)
      found]
    exact List.prefix_append _ _

/-- At rest, a connection has been read to its end and answered. -/
theorem Echoing.sent_eq
    {assigned : Nat → Nat} {state : State}
    (echoing : Echoing assigned state) (atRest : AtRest state)
    {index : Nat} (inside : index < state.children.length)
    {listenfd : Nat} {inherited : Finset Nat}
    (sound :
      Sound listenfd (openDescriptors listenfd inherited) assigned state)
    {connection : Tcpserv.Connection}
    (found : state.connections[assigned index]? = some connection) :
    connection.sent = connection.received ++ connection.unread := by
  have inList := List.getElem?_eq_getElem inside
  have balance := echoing.served index _ connection inList found
  rcases atRest.children _ (List.getElem_mem inside) with
    reaped | ⟨connfd, number, other, phase, named, inTable, empty, _⟩
  · have exhausted :=
      echoing.finished index _ connection inList
        (by rw [reaped]; exact trivial) found
    rw [balance, reaped, exhausted.1, List.append_nil]
    exact (List.append_nil _).symm
  · have fits := sound.children index _ inList
    have serves : Serves connfd state.children[index].phase :=
      .inl phase
    rw [Process.connection, (serves.fits_iff.mp fits).2, Descriptors.set,
      if_pos rfl] at named
    cases named
    rw [found] at inTable
    cases inTable
    rw [balance, phase, empty, List.append_nil]
    exact (List.append_nil _).symm

/--
In every run without faults, each connection has been sent a beginning of what
its client has sent, and nothing else.  When the server is at rest, every
connection has been sent all of it.
-/
theorem run_echoed_each
    (listenfd : Nat) (inherited : Finset Nat) (actions : List Action)
    (final : State)
    (ran :
      run (next listenfd) (start listenfd inherited) actions = some final)
    (faultless :
      Along (next listenfd) (fun _ action => Faultless action = true)
        (start listenfd inherited) actions) :
    (∀ (number : Nat) (connection : Tcpserv.Connection),
        final.connections[number]? = some connection →
          connection.sent <+: input number actions) ∧
      (AtRest final → ∀ (number : Nat) (connection : Tcpserv.Connection),
        final.connections[number]? = some connection →
          connection.sent = input number actions) := by
  rcases exists_echoing_of_run ran faultless with ⟨assigned, sound, echoing⟩
  have sentBy {number : Nat} {connection : Tcpserv.Connection}
      (found : final.connections[number]? = some connection) :
      connection.received ++ connection.unread = input number actions := by
    have all := traffic_of_run ran number
    rwa [traffic_of_getElem? found] at all
  constructor
  · intro number connection found
    rw [← sentBy found]
    exact
      (echoing.sent_prefix found).trans (List.prefix_append _ _)
  · intro atRest number connection found
    rw [← sentBy found]
    have count : final.children.length = final.connections.length := by
      have forked := echoing.forked
      rw [atRest.main, atRest.accepted] at forked
      exact forked
    have inside : number < final.children.length := by
      rw [count]
      exact (List.getElem?_eq_some_iff.mp found).1
    have below :
        ∀ index < final.children.length,
          assigned index < final.children.length := by
      intro index indexInside
      rw [count, ← atRest.accepted]
      exact sound.below index indexInside
    have same : assigned number = number :=
      eq_self_of_increasing sound.increasing below inside
    rw [← same] at found
    exact echoing.sent_eq atRest inside sound found

/-- Two clients send, and the children write what they read in pieces. -/
def bothEcho : List Action :=
  twoClients ++
    [.printStart, .clientSend 0 [104, 105], .close, .clientSend 1 [33],
      .child 1 (.read (.returned [33])), .child 0 (.read (.failed true)),
      .child 0 (.read (.returned [104, 105])), .child 0 (.write (.returned 1)),
      .child 1 (.write (.returned 1)), .child 0 (.write (.returned 1))]

theorem run_echoed_each_bothEcho :
    ∃ state,
      run (next 3) (start 3 {0, 1, 2}) bothEcho = some state ∧
        state.connections.map Connection.sent = [[104, 105], [33]] ∧
        ∀ (number : Nat) (connection : Tcpserv.Connection),
          state.connections[number]? = some connection →
            connection.sent <+: input number bothEcho := by
  have ran :
      (run (next 3) (start 3 {0, 1, 2}) bothEcho).map
          (fun state => state.connections.map Connection.sent) =
        some [[104, 105], [33]] := by
    decide
  rcases Option.map_eq_some_iff.mp ran with ⟨state, ran, sent⟩
  have faultless : ∀ action ∈ bothEcho, Faultless action = true := by
    decide
  refine ⟨state, ran, sent, ?_⟩
  apply (run_echoed_each 3 {0, 1, 2} bothEcho state ran ?_).1
  intro before action after _ split _
  apply faultless
  rw [split]
  exact List.mem_append_right _ List.mem_cons_self

end CodingExamples.EchoServer.ForkedEcho
