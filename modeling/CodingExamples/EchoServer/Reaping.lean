import CodingExamples.EchoServer.Processes
import CodingExamples.Library.ListTable
import CodingExamples.Library.Progress
import Mathlib.Algebra.Order.BigOperators.Group.List
import Mathlib.Algebra.Order.Group.Nat
import Mathlib.Data.Fintype.EquivFin

/-!
# The children of the server that forks come to an end

The handler passes the identifier of every child that it has waited for to
`printf`, and `main` that of every child that it has forked.  A zombie exists
only while a `SIGCHLD` is pending or the handler runs, although a signal that
arrives while another one is pending is lost.

When the clients only read what they are sent, so that each `write` returns,
and no call fails, the server comes to rest: the parent waits in `accept` with
no connection left to accept, and each child that has not been waited for
waits for a client that has not closed.
-/

namespace CodingExamples.EchoServer.Reaping

open CodingExamples.EchoServer.Processes
open CodingExamples.EchoServer.Tcpserv
open CodingExamples.EchoServer.Unp
open CodingExamples.Library.Execution
open CodingExamples.Library.ListTable
open CodingExamples.Library.Progress

/-! ## What is passed to `printf` -/

/-- The results of `fork` that have been passed to `printf`. -/
def startedPids (output : List Line) : List Int :=
  output.filterMap fun line =>
    match line with
    | .start childpid => some childpid
    | .terminated _ => none

/-- The children of which the end has been passed to `printf`. -/
def terminatedPids (output : List Line) : List Nat :=
  output.filterMap fun line =>
    match line with
    | .start _ => none
    | .terminated pid => some pid

theorem startedPids_start (output : List Line) (childpid : Int) :
    startedPids (output ++ [.start childpid]) =
      startedPids output ++ [childpid] := by
  rw [startedPids, List.filterMap_append]
  rfl

theorem startedPids_terminated (output : List Line) (pid : Nat) :
    startedPids (output ++ [.terminated pid]) = startedPids output := by
  rw [startedPids, List.filterMap_append]
  exact List.append_nil _

theorem terminatedPids_start (output : List Line) (childpid : Int) :
    terminatedPids (output ++ [.start childpid]) = terminatedPids output := by
  rw [terminatedPids, List.filterMap_append]
  exact List.append_nil _

theorem terminatedPids_terminated (output : List Line) (pid : Nat) :
    terminatedPids (output ++ [.terminated pid]) =
      terminatedPids output ++ [pid] := by
  rw [terminatedPids, List.filterMap_append]
  rfl

/-- What `main` is about to print. -/
def announcing : Main → List Int
  | .printing _ childpid => [childpid]
  | _ => []

/-- What the handler is about to print. -/
def reporting : Handler → List Nat
  | .printing pid => [pid]
  | _ => []

/-- The identifier of a child that has been waited for. -/
def waitedFor (process : Process) : Option Nat :=
  if process.phase = .reaped then some process.pid else none

theorem waitedFor_of_exists
    {process : Process} (existing : process.Exists) :
    waitedFor process = none :=
  if_neg existing

/-! ## The invariant -/

/-- Identifiers are not shared, and no zombie is forgotten. -/
structure Accounted (state : State) : Prop where
  positive : ∀ process ∈ state.children, 0 < process.pid
  distinct :
    ∀ (left right : Nat) (first second : Process),
      state.children[left]? = some first →
        state.children[right]? = some second →
          first.Exists → second.Exists → first.pid = second.pid →
            left = right
  unfinished : ∀ process ∈ state.children, Unfinished process.phase
  zombies :
    ∀ process ∈ state.children, process.phase = .zombie →
      state.pending = true ∨ state.handler ≠ .idle
  started :
    (startedPids state.output ++ announcing state.main).filter (0 < ·) =
      state.children.map fun process => (process.pid : Int)
  terminated :
    (terminatedPids state.output ++ reporting state.handler).Perm
      (state.children.filterMap waitedFor)

theorem accounted_start (listenfd : Nat) (inherited : Finset Nat) :
    Accounted (start listenfd inherited) where
  positive := nofun
  distinct := nofun
  unfinished := nofun
  zombies := nofun
  started := rfl
  terminated := .refl []

section Accounted

variable {listenfd : Nat} {state result : State}

/-- The handler and the table of children stay as they are. -/
theorem Accounted.of_same
    (accounted : Accounted state) (children : result.children = state.children)
    (handler : result.handler = state.handler)
    (pending : result.pending = state.pending)
    (output : result.output = state.output)
    (main : announcing result.main = announcing state.main) :
    Accounted result where
  positive := by
    rw [children]
    exact accounted.positive
  distinct := by
    rw [children]
    exact accounted.distinct
  unfinished := by
    rw [children]
    exact accounted.unfinished
  zombies := by
    rw [children, handler, pending]
    exact accounted.zombies
  started := by
    rw [children, output, main]
    exact accounted.started
  terminated := by
    rw [children, output, handler]
    exact accounted.terminated

/-- A new child has an identifier that no other child has. -/
theorem Accounted.fork
    (accounted : Accounted state) {connfd pid : Nat}
    (forking : state.main = .forking connfd) (positive : 0 < pid)
    (fresh :
      ∀ process ∈ state.children, process.Exists → process.pid ≠ pid) :
    Accounted
      { state with
        main := .printing connfd pid
        children :=
          state.children ++
            [{ pid := pid
               descriptors := state.descriptors
               phase := .started connfd }] } where
  positive := by
    intro process member
    rcases List.mem_append.mp member with old | new
    · exact accounted.positive process old
    · rw [List.mem_singleton.mp new]
      exact positive
  distinct := by
    intro left right first second leftFound rightFound firstExists secondExists
      same
    rw [List.getElem?_append] at leftFound rightFound
    split at leftFound
    case isTrue =>
      split at rightFound
      case isTrue =>
        exact
          accounted.distinct left right first second leftFound rightFound
            firstExists secondExists same
      case isFalse =>
        have new := List.mem_singleton.mp (List.mem_of_getElem? rightFound)
        rw [new] at same
        exact
          absurd same
            (fresh first (List.mem_of_getElem? leftFound) firstExists)
    case isFalse leftBeyond =>
      have new := List.mem_singleton.mp (List.mem_of_getElem? leftFound)
      split at rightFound
      case isTrue =>
        rw [new] at same
        exact
          absurd same.symm
            (fresh second (List.mem_of_getElem? rightFound) secondExists)
      case isFalse rightBeyond =>
        have leftLast := (List.getElem?_eq_some_iff.mp leftFound).1
        have rightLast := (List.getElem?_eq_some_iff.mp rightFound).1
        rw [List.length_singleton] at leftLast rightLast
        omega
  unfinished := by
    intro process member
    rcases List.mem_append.mp member with old | new
    · exact accounted.unfinished process old
    · rw [List.mem_singleton.mp new]
      exact nofun
  zombies := by
    intro process member zombie
    rcases List.mem_append.mp member with old | new
    · exact accounted.zombies process old zombie
    · rw [List.mem_singleton.mp new] at zombie
      cases zombie
  started := by
    have before := accounted.started
    have nothing : announcing state.main = [] :=
      congrArg announcing forking
    rw [nothing, List.append_nil] at before
    show (startedPids state.output ++ [(pid : Int)]).filter _ = _
    rw [List.filter_append, before, List.map_append]
    simp [positive]
  terminated := by
    show (terminatedPids state.output ++ reporting state.handler).Perm
      ((state.children ++ _).filterMap waitedFor)
    rw [List.filterMap_append]
    exact accounted.terminated.trans (by simp [waitedFor])

/-- A child goes on. -/
theorem Accounted.child
    (accounted : Accounted state) {index : Nat} {process after : Process}
    (found : state.children[index]? = some process)
    (frame : ChildFrame state result index after)
    (continues : Continues listenfd process after) :
    Accounted result where
  positive := by
    rw [frame.children]
    intro other member
    rcases List.mem_or_eq_of_mem_set member with old | rfl
    · exact accounted.positive other old
    · rw [continues.pid]
      exact accounted.positive process (List.mem_of_getElem? found)
  distinct := by
    rw [frame.children]
    intro left right first second leftFound rightFound firstExists secondExists
      same
    rcases getElem?_set_cases leftFound with
      ⟨rfl, rfl⟩ | ⟨leftOther, leftOld⟩
    · rcases getElem?_set_cases rightFound with
        ⟨rfl, rfl⟩ | ⟨rightOther, rightOld⟩
      · rfl
      · rw [continues.pid] at same
        exact
          accounted.distinct left right process second found rightOld
            continues.running.2 secondExists same
    · rcases getElem?_set_cases rightFound with
        ⟨rfl, rfl⟩ | ⟨rightOther, rightOld⟩
      · rw [continues.pid] at same
        exact
          accounted.distinct left right first process leftOld found firstExists
            continues.running.2 same
      · exact
          accounted.distinct left right first second leftOld rightOld
            firstExists secondExists same
  unfinished := by
    rw [frame.children]
    intro other member
    rcases List.mem_or_eq_of_mem_set member with old | rfl
    · exact accounted.unfinished other old
    · exact continues.unfinished
  zombies := by
    rw [frame.children, frame.handler]
    intro other member zombie
    rcases List.mem_or_eq_of_mem_set member with old | rfl
    · rcases accounted.zombies other old zombie with pending | busy
      · exact .inl (frame.pending pending)
      · exact .inr busy
    · exact .inl (frame.zombie zombie)
  started := by
    rw [frame.children, frame.output, frame.main,
      map_set_eq found (congrArg (fun pid : Nat => (pid : Int)) continues.pid)]
    exact accounted.started
  terminated := by
    have same : waitedFor after = waitedFor process := by
      rw [waitedFor_of_exists continues.existing,
        waitedFor_of_exists continues.running.2]
    rw [frame.children, frame.output, frame.handler,
      filterMap_set_eq found same]
    exact accounted.terminated

/-- A zombie is waited for. -/
theorem Accounted.reap
    (accounted : Accounted state) {index : Nat} {process : Process}
    (waiting : state.handler = .waiting)
    (found : state.children[index]? = some process)
    (zombie : process.phase = .zombie) :
    Accounted
      ({ state with handler := .printing process.pid }.setChild index
        { process with phase := .reaped }) where
  positive := by
    intro other member
    rcases List.mem_or_eq_of_mem_set member with old | rfl
    · exact accounted.positive other old
    · exact accounted.positive process (List.mem_of_getElem? found)
  distinct := by
    intro left right first second leftFound rightFound firstExists secondExists
      same
    rcases getElem?_set_cases leftFound with
      ⟨rfl, rfl⟩ | ⟨leftOther, leftOld⟩
    · exact absurd rfl firstExists
    · rcases getElem?_set_cases rightFound with
        ⟨rfl, rfl⟩ | ⟨rightOther, rightOld⟩
      · exact absurd rfl secondExists
      · exact
          accounted.distinct left right first second leftOld rightOld
            firstExists secondExists same
  unfinished := by
    intro other member
    rcases List.mem_or_eq_of_mem_set member with old | rfl
    · exact accounted.unfinished other old
    · exact nofun
  zombies := fun _ _ _ => .inr nofun
  started := by
    have same :
        (state.children.set index { process with phase := .reaped }).map
            (fun child => (child.pid : Int)) =
          state.children.map (fun child => (child.pid : Int)) :=
      map_set_eq found rfl
    exact accounted.started.trans same.symm
  terminated := by
    have before := accounted.terminated
    rw [waiting] at before
    have idle : reporting .waiting = [] :=
      rfl
    rw [idle, List.append_nil] at before
    have nothing : waitedFor process = none := by
      apply waitedFor_of_exists
      rw [Process.Exists, zombie]
      exact nofun
    exact
      (before.append_right [process.pid]).trans
        (filterMap_set_perm found nothing rfl).symm

theorem Accounted.next
    (accounted : Accounted state) {action : Action}
    (step : Tcpserv.next listenfd state action = some result) :
    Accounted result := by
  cases step_of_next step with
  | connect => exact accounted.of_same rfl rfl rfl rfl rfl
  | clientSend number bytes connection found isOpen =>
      exact accounted.of_same rfl rfl rfl rfl rfl
  | clientClose number connection found =>
      exact accounted.of_same rfl rfl rfl rfl rfl
  | accepted connfd accepting idle queued unused =>
      have before : announcing state.main = [] :=
        congrArg announcing accepting
      exact accounted.of_same rfl rfl rfl rfl before.symm
  | acceptInterrupted accepting idle interrupted =>
      exact accounted.of_same rfl rfl rfl rfl rfl
  | acceptFailed accepting idle =>
      have before : announcing state.main = [] :=
        congrArg announcing accepting
      exact accounted.of_same rfl rfl rfl rfl before.symm
  | forkFailed connfd forking idle =>
      refine
        ⟨accounted.positive, accounted.distinct, accounted.unfinished,
          accounted.zombies, ?_, accounted.terminated⟩
      have before := accounted.started
      have nothing : announcing state.main = [] :=
        congrArg announcing forking
      rw [nothing, List.append_nil] at before
      show (startedPids state.output ++ [-1]).filter _ = _
      rw [List.filter_append, before]
      simp
  | forked connfd pid forking idle positive fresh =>
      exact accounted.fork forking positive fresh
  | printStart connfd childpid printing idle =>
      refine
        ⟨accounted.positive, accounted.distinct, accounted.unfinished,
          accounted.zombies, ?_, ?_⟩
      · have before := accounted.started
        rw [printing, announcing] at before
        show (startedPids (state.output ++ [Line.start childpid]) ++ []).filter _ = _
        rw [startedPids_start, List.append_nil]
        exact before
      · show (terminatedPids (state.output ++ [Line.start childpid]) ++ _).Perm _
        rw [terminatedPids_start]
        exact accounted.terminated
  | close connfd closing idle =>
      have before : announcing state.main = [] :=
        congrArg announcing closing
      exact accounted.of_same rfl rfl rfl rfl before.symm
  | deliver pending idle running =>
      refine
        ⟨accounted.positive, accounted.distinct, accounted.unfinished,
          fun _ _ _ => .inr nofun, accounted.started, ?_⟩
      have before := accounted.terminated
      rw [idle] at before
      exact before
  | waited index process waiting found zombie =>
      exact accounted.reap waiting found zombie
  | waitedAll waiting noZombie =>
      refine
        ⟨accounted.positive, accounted.distinct, accounted.unfinished, ?_,
          accounted.started, ?_⟩
      · intro process member zombie
        exact absurd zombie (noZombie process member)
      · have before := accounted.terminated
        rw [waiting] at before
        exact before
  | printTerminated pid printing =>
      refine
        ⟨accounted.positive, accounted.distinct, accounted.unfinished,
          fun _ _ _ => .inr nofun, ?_, ?_⟩
      · show (startedPids (state.output ++ [Line.terminated pid]) ++ _).filter _ = _
        rw [startedPids_terminated]
        exact accounted.started
      · have before := accounted.terminated
        rw [printing, reporting] at before
        show (terminatedPids (state.output ++ [Line.terminated pid]) ++ []).Perm _
        rw [terminatedPids_terminated, List.append_nil]
        exact before
  | child index process call _ found step =>
      rcases exists_of_childStep step with ⟨after, frame, continues⟩
      exact accounted.child found frame continues

end Accounted

theorem accounted_of_reachable
    {listenfd : Nat} {inherited : Finset Nat} {state : State}
    (reachable :
      Reachable (next listenfd) (start listenfd inherited) state) :
    Accounted state := by
  apply reachable.invariant _ (accounted_start listenfd inherited)
  intro before action after accounted step
  exact accounted.next step

/-- Before the handler is entered and after it has returned. -/
theorem Accounted.of_idle
    {state : State} (accounted : Accounted state)
    (idle : state.handler = .idle) :
    (terminatedPids state.output).Perm
      (state.children.filterMap waitedFor) := by
  have all := accounted.terminated
  have nothing : reporting state.handler = [] :=
    congrArg reporting idle
  rwa [nothing, List.append_nil] at all

/--
In every state that the server can reach: a zombie is about to be waited for,
no two children share an identifier while it is in use, and outside of the
handler the ends that have been passed to `printf` are those of the children
that have been waited for.
-/
theorem reachable_reaped
    (listenfd : Nat) (inherited : Finset Nat) (state : State)
    (reachable :
      Reachable (next listenfd) (start listenfd inherited) state) :
    (∀ process ∈ state.children, process.phase = .zombie →
        state.pending = true ∨ state.handler ≠ .idle) ∧
      (∀ (left right : Nat) (first second : Process),
        state.children[left]? = some first →
          state.children[right]? = some second →
            first.Exists → second.Exists → first.pid = second.pid →
              left = right) ∧
      (state.handler = .idle →
        (terminatedPids state.output).Perm
          (state.children.filterMap waitedFor)) := by
  have accounted := accounted_of_reachable reachable
  exact ⟨accounted.zombies, accounted.distinct, accounted.of_idle⟩

/-- Both clients close, and both children exit before the handler is entered. -/
def bothExit : List Action :=
  twoClients ++
    [.printStart, .close, .clientClose 0, .clientClose 1,
      .child 1 (.read (.returned [])), .child 0 (.read (.returned [])),
      .child 1 .close, .child 1 .exit, .child 0 .close, .child 0 .exit]

/-- One signal is pending for two zombies. -/
theorem reachable_reaped_bothExit :
    ∃ state,
      run (next 3) (start 3 {0, 1, 2}) bothExit = some state ∧
        state.children.map Process.phase = [.zombie, .zombie] ∧
        ∀ process ∈ state.children, process.phase = .zombie →
          state.pending = true ∨ state.handler ≠ .idle := by
  have ran :
      (run (next 3) (start 3 {0, 1, 2}) bothExit).map
          (fun state => state.children.map Process.phase) =
        some [.zombie, .zombie] := by
    decide
  rcases Option.map_eq_some_iff.mp ran with ⟨state, ran, phases⟩
  have reaped := reachable_reaped 3 {0, 1, 2} state ⟨bothExit, ran⟩
  exact ⟨state, ran, phases, reaped.1⟩

/-! ## Coming to rest -/

/--
What the server does itself, as long as no call fails and each `write`
returns: the clients read what they are sent.
-/
def Works : Action → Bool
  | .accept (.connected _) | .accept (.failed true) | .fork (some _) => true
  | .printStart | .close | .deliver | .waitpid _ | .printTerminated => true
  | .child _ .close | .child _ .exit => true
  | .child _ (.read (.returned _)) => true
  | .child _ (.write (.returned count)) => decide (0 < count)
  | _ => false

/-- How many steps a child has left, but for the bytes that it has not read. -/
def childWeight : Child → Nat
  | .started _ => 9
  | .reading _ => 8
  | .writing _ left => 8 + left.length
  | .closing _ => 7
  | .exiting => 6
  | .zombie => 2
  | .reaped => 0

def mainWeight : Main → Nat
  | .forking _ => 13
  | .printing _ _ => 2
  | .closing _ => 1
  | _ => 0

def handlerWeight : Handler → Nat
  | .idle => 0
  | .waiting => 1
  | .printing _ => 2

/-- How many steps the parent has left, but for those of its children. -/
def parentWeight (state : State) : Nat :=
  14 * (state.connections.length - state.accepted) + mainWeight state.main +
    handlerWeight state.handler + 3 * state.pending.toNat +
      state.interrupted.toNat

def childrenWeight (children : List Process) : Nat :=
  (children.map fun process => childWeight process.phase).sum

/-- The bytes that the clients have sent and no child has read. -/
def unreadBytes (connections : List Connection) : Nat :=
  (connections.map fun connection => connection.unread.length).sum

/-- An upper bound on the steps that the server has left to do. -/
def measure (state : State) : Nat :=
  parentWeight state + childrenWeight state.children +
    2 * unreadBytes state.connections

theorem childrenWeight_set
    {children : List Process} {index : Nat} {process : Process}
    (found : children[index]? = some process) (after : Process) :
    childrenWeight (children.set index after) + childWeight process.phase =
      childrenWeight children + childWeight after.phase :=
  sum_map_set found after fun process => childWeight process.phase

theorem unreadBytes_set
    {connections : List Connection} {number : Nat} {connection : Connection}
    (found : connections[number]? = some connection) (after : Connection) :
    unreadBytes (connections.set number after) + connection.unread.length =
      unreadBytes connections + after.unread.length :=
  sum_map_set found after fun connection => connection.unread.length

/-- A child goes on and nothing else changes. -/
theorem measure_setChild_lt
    {state : State} {index : Nat} {process after : Process}
    (found : state.children[index]? = some process)
    (less : childWeight after.phase < childWeight process.phase) :
    measure (state.setChild index after) < measure state := by
  have sum := childrenWeight_set found after
  rw [measure, measure]
  show parentWeight state + childrenWeight (state.children.set index after) +
    2 * unreadBytes state.connections < _
  omega

/-- A child goes on and its connection changes. -/
theorem measure_setConnection
    {state : State} {index number : Nat} {process : Process}
    {connection : Connection}
    (found : state.children[index]? = some process)
    (inTable : state.connections[number]? = some connection)
    (after : Process) (changed : Connection) :
    measure ((state.setConnection number changed).setChild index after) +
        childWeight process.phase + 2 * connection.unread.length =
      measure state + childWeight after.phase +
        2 * changed.unread.length := by
  have sum := childrenWeight_set found after
  have unread := unreadBytes_set inTable changed
  have same :
      parentWeight ((state.setConnection number changed).setChild index after) =
        parentWeight state := by
    have length :
        (state.connections.set number changed).length =
          state.connections.length :=
      List.length_set
    rw [parentWeight, parentWeight, ← length]
    rfl
  rw [measure, measure, same]
  show parentWeight state + childrenWeight (state.children.set index after) +
    2 * unreadBytes (state.connections.set number changed) + _ + _ = _
  omega

/-- In `writen` the work decreases with each write. -/
theorem childWeight_writenLoop_le (connfd : Nat) (left : List (BitVec 8)) :
    childWeight (inWriten connfd (writenLoop left)) ≤ 8 + left.length := by
  rw [writenLoop]
  split
  · exact Nat.le_refl _
  · exact Nat.le_add_right 8 _

theorem measure_childStep
    {listenfd : Nat} {state result : State} {index : Nat} {process : Process}
    {call : Call} (works : Works (.child index call) = true)
    (found : state.children[index]? = some process)
    (step : ChildStep listenfd state index process call result) :
    measure result < measure state := by
  cases step with
  | started connfd phase =>
      apply measure_setChild_lt found
      rw [phase]
      exact Nat.lt_succ_self 8
  | readFailed connfd interrupted phase => cases works
  | readEnd connfd number connection phase named inTable empty closed =>
      apply measure_setChild_lt found
      rw [phase]
      exact Nat.lt_succ_self 7
  | read connfd number connection bytes phase named inTable nonempty available =>
      have sum :=
        measure_setConnection found inTable
          { process with phase := inWriten connfd (writenLoop bytes) }
          { connection with
            unread := connection.unread.drop bytes.length
            received := connection.received ++ bytes }
      have weight := childWeight_writenLoop_le connfd bytes
      have old : childWeight process.phase = 8 := by
        rw [phase]
        rfl
      have positive := List.length_pos_iff.mpr nonempty
      have enough := available.length_le
      dsimp only at sum
      rw [old, List.length_drop] at sum
      omega
  | writeFailed connfd left interrupted phase => cases works
  | write connfd number connection left count phase named inTable possible =>
      have positive : 0 < count :=
        of_decide_eq_true works
      have sum :=
        measure_setConnection found inTable
          { process with
            phase := inWriten connfd (writenAfter left (.returned count)) }
          { connection with sent := connection.sent ++ left.take count }
      have weight := childWeight_writenLoop_le connfd (left.drop count)
      have old : childWeight process.phase = 8 + left.length := by
        rw [phase]
        rfl
      dsimp only at sum
      rw [old, writenAfter, if_neg (Nat.ne_of_gt positive)] at sum
      rw [List.length_drop] at weight
      rw [writenAfter, if_neg (Nat.ne_of_gt positive)]
      omega
  | closed connfd phase =>
      apply measure_setChild_lt found
      rw [phase]
      exact Nat.lt_succ_self 6
  | exited phase =>
      have sum :=
        childrenWeight_set found
          { process with descriptors := .none, phase := .zombie }
      have old : childWeight process.phase = 6 := by
        rw [phase]
        rfl
      have parent :
          parentWeight { state with pending := true } ≤
            parentWeight state + 3 := by
        rw [parentWeight, parentWeight]
        dsimp only
        rw [Bool.toNat_true]
        omega
      rw [old] at sum
      rw [measure, measure]
      show parentWeight { state with pending := true } +
        childrenWeight (state.children.set index _) +
          2 * unreadBytes state.connections < _
      have new :
          childWeight
              ({ process with
                  descriptors := .none, phase := .zombie } : Process).phase =
            2 :=
        rfl
      rw [new] at sum
      omega

/-- The server only does what brings it closer to its rest. -/
theorem measure_next
    {listenfd : Nat} {state result : State} {action : Action}
    (works : Works action = true)
    (step : next listenfd state action = some result) :
    measure result < measure state := by
  cases step_of_next step with
  | connect => cases works
  | clientSend number bytes connection found isOpen => cases works
  | clientClose number connection found => cases works
  | accepted connfd accepting idle queued unused =>
      simp only [measure, parentWeight, accepting, mainWeight, Bool.toNat_false]
      omega
  | acceptInterrupted accepting idle interrupted =>
      simp only [measure, parentWeight, interrupted, Bool.toNat_false,
        Bool.toNat_true]
      omega
  | acceptFailed accepting idle => cases works
  | forkFailed connfd forking idle => cases works
  | forked connfd pid forking idle positive fresh =>
      have sum :
          childrenWeight
              (state.children ++
                [{ pid := pid
                   descriptors := state.descriptors
                   phase := .started connfd }]) =
            childrenWeight state.children + 9 := by
        rw [childrenWeight, List.map_append, List.sum_append]
        rfl
      simp only [measure, sum, parentWeight, forking, mainWeight]
      omega
  | printStart connfd childpid printing idle =>
      simp only [measure, parentWeight, printing, mainWeight]
      omega
  | close connfd closing idle =>
      simp only [measure, parentWeight, closing, mainWeight, Bool.toNat_false]
      omega
  | deliver pending idle running =>
      simp only [measure, parentWeight, pending, idle, handlerWeight,
        Bool.toNat_false, Bool.toNat_true]
      omega
  | waited index process waiting found zombie =>
      have sum :=
        childrenWeight_set found { process with phase := .reaped }
      have old : childWeight process.phase = 2 := by
        rw [zombie]
        rfl
      have new :
          childWeight ({ process with phase := .reaped } : Process).phase = 0 :=
        rfl
      rw [old, new] at sum
      simp only [measure, State.setChild, parentWeight, waiting, handlerWeight]
      omega
  | waitedAll waiting noZombie =>
      simp only [measure, parentWeight, waiting, handlerWeight]
      omega
  | printTerminated pid printing =>
      simp only [measure, parentWeight, printing, handlerWeight]
      omega
  | child index process call _ found step =>
      exact measure_childStep works found step

theorem main_ne_returned
    {listenfd : Nat} {state result : State} {action : Action}
    (works : Works action = true) (running : state.main ≠ .returned)
    (step : next listenfd state action = some result) :
    result.main ≠ .returned := by
  cases step_of_next step with
  | acceptFailed accepting idle => cases works
  | accepted connfd accepting idle queued unused => exact nofun
  | forkFailed connfd forking idle => exact nofun
  | forked connfd pid forking idle positive fresh => exact nofun
  | printStart connfd childpid printing idle => exact nofun
  | close connfd closing idle => exact nofun
  | child index process call _ found step =>
      rcases exists_of_childStep step with ⟨after, frame, _⟩
      rw [frame.main]
      exact running
  | connect => exact running
  | clientSend number bytes connection found isOpen => exact running
  | clientClose number connection found => exact running
  | acceptInterrupted accepting idle interrupted => exact running
  | deliver pending idle notReturned => exact running
  | waited index process waiting found zombie => exact running
  | waitedAll waiting noZombie => exact running
  | printTerminated pid printing => exact running

/-- The parent has not returned, and everything is in order. -/
structure Running
    (listenfd : Nat) (inherited : Finset Nat) (state : State) : Prop where
  sound :
    ∃ assigned,
      Sound listenfd (openDescriptors listenfd inherited) assigned state
  accounted : Accounted state
  main : state.main ≠ .returned

theorem Running.next
    {listenfd : Nat} {inherited : Finset Nat} {state result : State}
    {action : Action} (running : Running listenfd inherited state)
    (works : Works action = true)
    (step : Tcpserv.next listenfd state action = some result) :
    Running listenfd inherited result := by
  rcases running.sound with ⟨assigned, sound⟩
  have listening := listening_ne_none listenfd inherited
  exact
    ⟨⟨_, sound.next listening step⟩, running.accounted.next step,
      main_ne_returned works running.main step⟩

/-! ## At rest -/

/-- A child waits for a client that has not closed its connection. -/
def WaitsForClient (state : State) (process : Process) : Prop :=
  ∃ connfd number connection,
    process.phase = .reading connfd ∧
      process.connection connfd = some number ∧
        state.connections[number]? = some connection ∧
          connection.unread = [] ∧ connection.clientClosed = false

/-- Nothing is left to do. -/
structure AtRest (state : State) : Prop where
  main : state.main = .accepting
  handler : state.handler = .idle
  accepted : state.accepted = state.connections.length
  children :
    ∀ process ∈ state.children,
      process.phase = .reaped ∨ WaitsForClient state process

/-- Some identifier is not in use. -/
theorem exists_fresh (children : List Process) :
    ∃ pid, 0 < pid ∧
      ∀ process ∈ children, process.Exists → process.pid ≠ pid := by
  refine ⟨(children.map Process.pid).sum + 1, Nat.succ_pos _, ?_⟩
  intro process member _ same
  have listed : process.pid ∈ children.map Process.pid :=
    List.mem_map_of_mem member
  have bound := List.le_sum_of_mem listed
  omega

section AtRest

variable {listenfd : Nat} {inherited : Finset Nat} {state : State}
  (stuck : Stuck (restrict (next listenfd) Works) state)

include stuck

/-- The handler can always go on. -/
theorem handler_eq_idle : state.handler = .idle := by
  cases inHandler : state.handler with
  | idle => rfl
  | printing pid =>
      have blocked := eq_none_of_stuck stuck .printTerminated rfl
      simp [next, handlerStep, inHandler] at blocked
  | waiting =>
      have blockedAll := eq_none_of_stuck stuck (.waitpid none) rfl
      simp only [next, handlerStep, inHandler, waitStep,
        ite_eq_right_iff, reduceCtorEq, imp_false, not_forall,
        not_not] at blockedAll
      rcases blockedAll with ⟨process, member, zombie⟩
      rcases List.mem_iff_getElem?.mp member with ⟨index, found⟩
      have blocked := eq_none_of_stuck stuck (.waitpid (some index)) rfl
      simp [next, handlerStep, inHandler, waitStep, found, zombie] at blocked

variable (running : Running listenfd inherited state)

include running

/-- A pending signal can be delivered, so that there is no zombie. -/
theorem no_zombie :
    ∀ process ∈ state.children, process.phase ≠ .zombie := by
  intro process member zombie
  have idle := handler_eq_idle stuck
  rcases running.accounted.zombies process member zombie with pending | busy
  · have blocked := eq_none_of_stuck stuck .deliver rfl
    simp [next, pending, idle, running.main] at blocked
  · exact busy idle

/-- The parent can always go on, but in `accept`. -/
theorem main_eq_accepting : state.main = .accepting := by
  have idle := handler_eq_idle stuck
  cases inMain : state.main with
  | accepting => rfl
  | forking connfd =>
      rcases exists_fresh state.children with ⟨pid, positive, fresh⟩
      have blocked := eq_none_of_stuck stuck (.fork (some pid)) rfl
      simp only [next, idle, if_true, mainStep, inMain, forkStep] at blocked
      rw [if_pos ⟨positive, fresh⟩] at blocked
      cases blocked
  | printing connfd childpid =>
      have blocked := eq_none_of_stuck stuck .printStart rfl
      simp [next, idle, mainStep, inMain] at blocked
  | closing connfd =>
      have blocked := eq_none_of_stuck stuck .close rfl
      simp [next, idle, mainStep, inMain] at blocked
  | returned => exact absurd inMain running.main

/-- Descriptors never run out: the parent holds no connection in `accept`. -/
theorem accepted_eq_length : state.accepted = state.connections.length := by
  have idle := handler_eq_idle stuck
  have accepting := main_eq_accepting stuck running
  rcases running.sound with ⟨assigned, sound⟩
  have held := sound.main
  rw [MainFits, accepting] at held
  rcases Nat.lt_or_eq_of_le sound.inside with queued | all
  · rcases Infinite.exists_notMem_finset (insert listenfd inherited) with
      ⟨connfd, new⟩
    rw [Finset.mem_insert, not_or] at new
    have unused : state.descriptors connfd = none := by
      rw [held, openDescriptors, if_neg new.1, if_neg new.2]
    have blocked := eq_none_of_stuck stuck (.accept (.connected connfd)) rfl
    simp only [next, idle, if_true, mainStep, accepting, acceptStep] at blocked
    rw [if_pos ⟨queued, unused⟩] at blocked
    cases blocked
  · exact all

/-- A child that cannot go on waits for its client. -/
theorem reaped_or_waitsForClient
    {process : Process} (member : process ∈ state.children) :
    process.phase = .reaped ∨ WaitsForClient state process := by
  rcases List.mem_iff_getElem?.mp member with ⟨index, found⟩
  have blocked (call : Call) (works : Works (.child index call) = true) :
      childStep listenfd state index process call = none := by
    have blocked := eq_none_of_stuck stuck (.child index call) works
    rwa [next, found, Option.bind_some] at blocked
  rcases running.sound with ⟨assigned, sound⟩
  have fits := sound.children index process found
  have connected (connfd : Nat) (serves : Serves connfd process.phase) :
      ∃ connection, process.connection connfd = some (assigned index) ∧
        state.connections[assigned index]? = some connection := by
    have below :=
      Nat.lt_of_lt_of_le
        (sound.below index (List.getElem?_eq_some_iff.mp found).1)
        sound.inside
    refine ⟨_, ?_, List.getElem?_eq_getElem below⟩
    rw [Process.connection, (serves.fits_iff.mp fits).2, Descriptors.set,
      if_pos rfl]
  cases phase : process.phase with
  | started connfd =>
      have stopped := blocked .close rfl
      simp [childStep, phase] at stopped
  | reading connfd =>
      right
      rcases connected connfd (.inl phase) with ⟨connection, named, inTable⟩
      refine ⟨connfd, assigned index, connection, phase, named, inTable, ?_⟩
      cases unread : connection.unread with
      | cons byte rest =>
          have stopped := blocked (.read (.returned [byte])) rfl
          simp [childStep, phase, childRead, named, inTable, unread, maxline]
            at stopped
      | nil =>
          have stopped := blocked (.read (.returned [])) rfl
          simp [childStep, phase, childRead, named, inTable, unread]
            at stopped
          exact ⟨rfl, stopped⟩
  | writing connfd left =>
      rcases connected connfd (.inr (.inl ⟨left, phase⟩)) with
        ⟨connection, named, inTable⟩
      have unfinished : left ≠ [] := by
        rintro rfl
        exact running.accounted.unfinished process member connfd phase
      have stopped := blocked (.write (.returned 1)) rfl
      simp [childStep, phase, childWrite, named, inTable] at stopped
      exact absurd stopped unfinished
  | closing connfd =>
      have stopped := blocked .close rfl
      simp [childStep, phase] at stopped
  | exiting =>
      have stopped := blocked .exit rfl
      simp [childStep, phase] at stopped
  | zombie => exact absurd phase (no_zombie stuck running process member)
  | reaped => exact .inl rfl

theorem atRest_of_stuck : AtRest state where
  main := main_eq_accepting stuck running
  handler := handler_eq_idle stuck
  accepted := accepted_eq_length stuck running
  children := fun _ => reaped_or_waitsForClient stuck running

end AtRest

/-- When all clients have closed, every child has been waited for. -/
theorem AtRest.all_reaped
    {state : State} (atRest : AtRest state)
    (closed :
      ∀ connection ∈ state.connections, connection.clientClosed = true) :
    state.children.filterMap waitedFor = state.children.map Process.pid := by
  rw [← List.filterMap_eq_map]
  apply List.filterMap_congr
  intro process member
  rcases atRest.children process member with
    reaped | ⟨connfd, number, connection, _, _, found, _, isOpen⟩
  · exact if_pos reaped
  · rw [closed connection (List.mem_of_getElem? found)] at isOpen
    cases isOpen

/-- The `printf` calls when the server is at rest and all clients are gone. -/
def EveryEndPrinted (state : State) : Prop :=
  ((terminatedPids state.output).map fun pid : Nat => (pid : Int)).Perm
    ((startedPids state.output).filter (0 < ·))

theorem everyEndPrinted
    {state : State} (atRest : AtRest state) (accounted : Accounted state)
    (closed :
      ∀ connection ∈ state.connections, connection.clientClosed = true) :
    EveryEndPrinted state := by
  have ends := accounted.of_idle atRest.handler
  rw [atRest.all_reaped closed] at ends
  have begins := accounted.started
  have nothing : announcing state.main = [] :=
    congrArg announcing atRest.main
  rw [nothing, List.append_nil] at begins
  rw [EveryEndPrinted, begins]
  have mapped := ends.map fun pid : Nat => (pid : Int)
  rwa [List.map_map] at mapped

/--
From every state that it can reach without returning, the server comes to
rest if the clients only read what they are sent, each `write` returns and no
call fails.  If all clients have closed by then, the end of every child that
was forked has been passed to `printf`, once for each time its identifier was
used.
-/
theorem server_settles
    (listenfd : Nat) (inherited : Finset Nat) (state : State)
    (reachable :
      Reachable (next listenfd) (start listenfd inherited) state)
    (running : state.main ≠ .returned) :
    Settles (restrict (next listenfd) Works)
      (fun final =>
        AtRest final ∧
          ((∀ connection ∈ final.connections,
              connection.clientClosed = true) →
            EveryEndPrinted final))
      state := by
  have decreases :
      ∀ before action after,
        Running listenfd inherited before →
          restrict (next listenfd) Works before action = some after →
            Running listenfd inherited after ∧
              measure after < measure before := by
    intro before action after running step
    rcases restrict_eq_some_iff.mp step with ⟨works, step⟩
    exact ⟨running.next works step, measure_next works step⟩
  have finished :
      ∀ final,
        Running listenfd inherited final →
          Stuck (restrict (next listenfd) Works) final →
            AtRest final ∧
              ((∀ connection ∈ final.connections,
                  connection.clientClosed = true) →
                EveryEndPrinted final) := by
    intro final running stuck
    have atRest := atRest_of_stuck stuck running
    exact ⟨atRest, everyEndPrinted atRest running.accounted⟩
  exact
    settles_of_measure decreases finished
      ⟨exists_sound_of_reachable reachable, accounted_of_reachable reachable,
        running⟩

/-- The two zombies are waited for although there was one signal. -/
theorem server_settles_bothExit :
    ∃ state,
      run (next 3) (start 3 {0, 1, 2}) bothExit = some state ∧
        Settles (restrict (next 3) Works)
          (fun final =>
            AtRest final ∧
              ((∀ connection ∈ final.connections,
                  connection.clientClosed = true) →
                EveryEndPrinted final))
          state := by
  have ran :
      (run (next 3) (start 3 {0, 1, 2}) bothExit).map State.main =
        some .accepting := by
    decide
  rcases Option.map_eq_some_iff.mp ran with ⟨state, ran, accepting⟩
  refine ⟨state, ran, ?_⟩
  apply server_settles 3 {0, 1, 2} state ⟨bothExit, ran⟩
  rw [accepting]
  exact nofun

end CodingExamples.EchoServer.Reaping
