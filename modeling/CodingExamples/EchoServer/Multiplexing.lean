import CodingExamples.EchoServer.Unp
import CodingExamples.Library.SocketTable

/-!
# Echo servers with one process for all clients

`select-echo-server` and `poll-echo-server` differ in how they wait for
descriptors and in how they remember their clients.  They have the rest in
common: one buffer, a loop that reads from each client that is ready and
writes the bytes back with `writen`, and a count of the descriptors that are
still to be served.  Both files have a copy of `writen` of `unp.h`.

A step of the model goes from one system call, or one test of the loop over
the clients, to the next.  A call that blocks is no step until it returns, so
that nothing is said about a `write` to a client that does not read; the
`SIGPIPE` of a `write` to a connection that is gone is left out.
-/

namespace CodingExamples.EchoServer.Multiplexing

open CodingExamples.EchoServer.Unp
open CodingExamples.Library.SocketTable

/-- `BUF_SIZE`. -/
def bufSize : Nat := 1024

/-- Where `main` is in its loop. -/
inductive Phase where
  /-- Before `select` or `poll`. -/
  | top
  | accepting
  /-- At the test `i <= maxi`. -/
  | scanning (i : Nat)
  | reading (i sockfd : Nat)
  /-- In `writen`, with the bytes from `ptr` on. -/
  | writing (i sockfd : Nat) (left : List (BitVec 8))
  | exited
  /-- An array or a set was accessed out of its bounds. -/
  | undefined
deriving DecidableEq, Repr

/-- The results of the system calls, and the step to the next client. -/
inductive Event (Report : Type) where
  /-- `select` or `poll` returned. -/
  | ready (nready : Int) (report : Report)
  /-- `accept` returned a descriptor, or failed. -/
  | accept (connfd : Option Nat)
  | scan
  | read (result : ReadResult)
  | write (result : WriteResult)
deriving DecidableEq, Repr

/-- The variables that both servers have, and the connections. -/
structure Loop where
  phase : Phase
  nready : Int
  buf : List (BitVec 8)
  sockets : Sockets (BitVec 8)

/-- The descriptors of a process that has called `socket`. -/
def openDescriptor (listenfd : Nat) (inherited : Nat → Bool) (fd : Nat) :
    Bool :=
  fd == listenfd || inherited fd

/-- Before the first round; the buffer is not initialised. -/
def Loop.start (listenfd : Nat) (inherited : Nat → Bool)
    (buf : List (BitVec 8)) : Loop where
  phase := .top
  nready := 0
  buf := buf
  sockets := Sockets.fresh (openDescriptor listenfd inherited)

theorem Loop.start_isOpen
    (listenfd : Nat) (inherited : Nat → Bool) (buf : List (BitVec 8)) :
    (Loop.start listenfd inherited buf).sockets.IsOpen listenfd := by
  show ite (openDescriptor listenfd inherited listenfd = true) _ _ ≠ none
  rw [openDescriptor, beq_self_eq_true, Bool.true_or, if_pos rfl]
  exact Option.some_ne_none _

/-- `--nready`, and on to the client at an index if descriptors are left. -/
def Loop.advance (loop : Loop) (i : Nat) : Loop :=
  let nready := loop.nready - 1
  { loop with
    nready := nready
    phase := if nready ≤ 0 then .top else .scanning i }

/-- `read` stores at the start of the buffer. -/
def store (bytes buf : List (BitVec 8)) : List (BitVec 8) :=
  bytes ++ buf.drop bytes.length

/-- In or after `writen`, whose result is ignored. -/
def Loop.inWriten (loop : Loop) (i sockfd : Nat) : Writen → Loop
  | .writing left => { loop with phase := .writing i sockfd left }
  | .returned _ => loop.advance (i + 1)

/-- `read` returned bytes, which go to `writen`. -/
def Loop.echo (loop : Loop) (i sockfd : Nat) (bytes : List (BitVec 8)) :
    Option Loop :=
  (loop.sockets.receive sockfd bytes).map fun sockets =>
    let buf := store bytes loop.buf
    Loop.inWriten { loop with buf := buf, sockets := sockets } i sockfd
      (writenLoop (buf.take bytes.length))

/-- `write` returned to `writen`. -/
def Loop.write (loop : Loop) (i sockfd : Nat) (left : List (BitVec 8))
    (result : WriteResult) : Option Loop :=
  match result with
  | .returned count =>
      if count ≤ left.length then
        (loop.sockets.send sockfd (left.take count)).map fun sockets =>
          Loop.inWriten { loop with sockets := sockets } i sockfd
            (writenAfter left (.returned count))
      else
        none
  | .failed interrupted =>
      some (loop.inWriten i sockfd (writenAfter left (.failed interrupted)))

/-- `close(sockfd)`; what else is forgotten is up to the server. -/
def Loop.closeClient (loop : Loop) (i sockfd : Nat) : Loop :=
  Loop.advance { loop with sockets := loop.sockets.close sockfd } (i + 1)

/-! ## The steps -/

/-- The parts of `main` in which the two servers differ. -/
structure Handlers (State Report : Type) where
  loop : State → Loop
  withLoop : State → Loop → State
  /-- What `select` or `poll` may report. -/
  reports : State → Report → Bool
  afterReady : State → Int → Report → State
  afterAccept : State → Nat → State
  scan : State → Nat → State
  closeClient : State → Nat → Nat → State

variable {State Report : Type}

/-- The state after an event, if it can happen. -/
def next (handlers : Handlers State Report) (state : State)
    (event : Event Report) : Option State :=
  let loop := handlers.loop state
  match loop.phase, event with
  | .top, .ready nready report =>
      if handlers.reports state report then
        some (handlers.afterReady state nready report)
      else
        none
  | .accepting, .accept none =>
      some (handlers.withLoop state { loop with phase := .exited })
  | .accepting, .accept (some connfd) =>
      if loop.sockets.IsOpen connfd then
        none
      else
        some (handlers.afterAccept state connfd)
  | .scanning i, .scan => some (handlers.scan state i)
  | .reading i sockfd, .read (.failed _) =>
      some (handlers.closeClient state i sockfd)
  | .reading i sockfd, .read (.returned bytes) =>
      if bytes.length = 0 then
        some (handlers.closeClient state i sockfd)
      else if bytes.length ≤ bufSize then
        (loop.echo i sockfd bytes).map (handlers.withLoop state)
      else
        none
  | .writing i sockfd left, .write result =>
      (loop.write i sockfd left result).map (handlers.withLoop state)
  | _, _ => none

/-- What each kind of step starts from and leads to. -/
inductive Step (handlers : Handlers State Report) (state : State) :
    Event Report → State → Prop where
  | ready (nready : Int) (report : Report)
      (top : (handlers.loop state).phase = .top)
      (reported : handlers.reports state report = true) :
      Step handlers state (.ready nready report)
        (handlers.afterReady state nready report)
  | failed (accepting : (handlers.loop state).phase = .accepting) :
      Step handlers state (.accept none)
        (handlers.withLoop state
          { handlers.loop state with phase := .exited })
  | accepted (connfd : Nat)
      (accepting : (handlers.loop state).phase = .accepting)
      (new : ¬ (handlers.loop state).sockets.IsOpen connfd) :
      Step handlers state (.accept (some connfd))
        (handlers.afterAccept state connfd)
  | scanned (i : Nat)
      (scanning : (handlers.loop state).phase = .scanning i) :
      Step handlers state .scan (handlers.scan state i)
  | closed (outcome : ReadResult) (i sockfd : Nat)
      (reading : (handlers.loop state).phase = .reading i sockfd) :
      Step handlers state (.read outcome)
        (handlers.closeClient state i sockfd)
  | echoed (bytes : List (BitVec 8)) (i sockfd : Nat) (loop : Loop)
      (reading : (handlers.loop state).phase = .reading i sockfd)
      (echo : (handlers.loop state).echo i sockfd bytes = some loop) :
      Step handlers state (.read (.returned bytes))
        (handlers.withLoop state loop)
  | written (outcome : WriteResult) (i sockfd : Nat)
      (left : List (BitVec 8)) (loop : Loop)
      (writing : (handlers.loop state).phase = .writing i sockfd left)
      (write :
        (handlers.loop state).write i sockfd left outcome = some loop) :
      Step handlers state (.write outcome) (handlers.withLoop state loop)

theorem step_of_next
    {handlers : Handlers State Report} {state result : State}
    {event : Event Report}
    (stepped : next handlers state event = some result) :
    Step handlers state event result := by
  unfold next at stepped
  dsimp only at stepped
  split at stepped
  case h_1 nready report top =>
    rw [Option.ite_none_right_eq_some] at stepped
    rcases stepped with ⟨reported, ⟨⟩⟩
    exact .ready nready report top reported
  case h_2 accepting =>
    cases stepped
    exact .failed accepting
  case h_3 connfd accepting =>
    rw [Option.ite_none_left_eq_some] at stepped
    rcases stepped with ⟨new, ⟨⟩⟩
    exact .accepted connfd accepting new
  case h_4 i scanning =>
    cases stepped
    exact .scanned i scanning
  case h_5 i sockfd interrupted reading =>
    cases stepped
    exact .closed (.failed interrupted) i sockfd reading
  case h_6 i sockfd bytes reading =>
    split at stepped
    case isTrue =>
      cases stepped
      exact .closed (.returned bytes) i sockfd reading
    case isFalse =>
      rw [Option.ite_none_right_eq_some] at stepped
      rcases Option.map_eq_some_iff.mp stepped.2 with ⟨loop, echo, rfl⟩
      exact .echoed bytes i sockfd loop reading echo
  case h_7 i sockfd left outcome writing =>
    rcases Option.map_eq_some_iff.mp stepped with ⟨loop, write, rfl⟩
    exact .written outcome i sockfd left loop writing write
  case h_8 => cases stepped

/-! ## Phases and descriptors -/

/--
No bound was left, and a client that is to be read is in its slot.  The loop
over the clients starts at the index `first`.
-/
def Phase.Fits (first : Nat) (slots : List (Option Nat)) : Phase → Prop
  | .scanning i => first ≤ i
  | .reading i sockfd => first ≤ i ∧ slots[i]? = some (some sockfd)
  | .writing i _ _ => first ≤ i
  | .undefined => False
  | _ => True

theorem Phase.Fits.defined
    {first : Nat} {slots : List (Option Nat)} {phase : Phase}
    (fits : phase.Fits first slots) : phase ≠ .undefined := by
  rintro rfl
  exact fits

section Fits

variable {first : Nat} (slots : List (Option Nat))

theorem Loop.advance_fits (loop : Loop) {i : Nat} (inside : first ≤ i) :
    (loop.advance i).phase.Fits first slots := by
  rw [Loop.advance]
  dsimp only
  split
  · exact trivial
  · exact inside

theorem Loop.inWriten_fits
    (loop : Loop) {i : Nat} (inside : first ≤ i) (sockfd : Nat)
    (writen : Writen) :
    (loop.inWriten i sockfd writen).phase.Fits first slots := by
  cases writen with
  | writing left => exact inside
  | returned success =>
      exact loop.advance_fits slots (Nat.le_succ_of_le inside)

theorem Loop.inWriten_sockets
    (loop : Loop) (i sockfd : Nat) (writen : Writen) :
    (loop.inWriten i sockfd writen).sockets = loop.sockets := by
  cases writen <;> rfl

/-- The bytes that are read change no descriptor. -/
theorem Loop.echo_fits
    {loop result : Loop} {i sockfd : Nat} (inside : first ≤ i)
    {bytes : List (BitVec 8)}
    (echoed : loop.echo i sockfd bytes = some result) :
    result.phase.Fits first slots ∧
      result.sockets.descriptors = loop.sockets.descriptors := by
  rcases Option.map_eq_some_iff.mp echoed with ⟨sockets, received, rfl⟩
  constructor
  · exact Loop.inWriten_fits slots _ inside sockfd _
  · dsimp only
    rw [Loop.inWriten_sockets]
    exact Sockets.receive_descriptors received

/-- The bytes that are written change no descriptor. -/
theorem Loop.write_fits
    {loop result : Loop} {i sockfd : Nat} (inside : first ≤ i)
    {left : List (BitVec 8)} {outcome : WriteResult}
    (written : loop.write i sockfd left outcome = some result) :
    result.phase.Fits first slots ∧
      result.sockets.descriptors = loop.sockets.descriptors := by
  cases outcome with
  | returned count =>
      rw [Loop.write, Option.ite_none_right_eq_some] at written
      rcases Option.map_eq_some_iff.mp written.2 with ⟨sockets, sent, rfl⟩
      constructor
      · exact Loop.inWriten_fits slots _ inside sockfd _
      · rw [Loop.inWriten_sockets]
        exact Sockets.send_descriptors sent
  | failed interrupted =>
      cases written
      constructor
      · exact Loop.inWriten_fits slots _ inside sockfd _
      · rw [Loop.inWriten_sockets]

end Fits

/-! ## Bytes and connections -/

/-- Every write transfers something or is interrupted. -/
def WriteWorks : Event Report → Prop
  | .write (.returned count) => 0 < count
  | .write (.failed interrupted) => interrupted = true
  | _ => True

instance : ∀ event : Event Report, Decidable (WriteWorks event)
  | .write (.returned count) => inferInstanceAs (Decidable (0 < count))
  | .write (.failed interrupted) =>
      inferInstanceAs (Decidable (interrupted = true))
  | .ready _ _ => isTrue trivial
  | .accept _ => isTrue trivial
  | .scan => isTrue trivial
  | .read _ => isTrue trivial

/-- Outside of `writen`, every connection got its own bytes back. -/
def Loop.Echoing (loop : Loop) : Prop :=
  match loop.phase with
  | .writing _ sockfd left => loop.sockets.Owing sockfd left
  | _ => loop.sockets.Settled

theorem Loop.Echoing.settled
    {loop : Loop} (echoing : loop.Echoing)
    (outside : ∀ i sockfd left, loop.phase ≠ .writing i sockfd left) :
    loop.sockets.Settled := by
  rw [Loop.Echoing] at echoing
  split at echoing
  case h_1 i sockfd left inside => exact absurd inside (outside i sockfd left)
  case h_2 => exact echoing

theorem Loop.echoing_of_settled
    {loop : Loop} (settled : loop.sockets.Settled)
    (outside : ∀ i sockfd left, loop.phase ≠ .writing i sockfd left) :
    loop.Echoing := by
  rw [Loop.Echoing]
  split
  case h_1 i sockfd left inside => exact absurd inside (outside i sockfd left)
  case h_2 => exact settled

theorem Loop.start_echoing
    (listenfd : Nat) (inherited : Nat → Bool) (buf : List (BitVec 8)) :
    (Loop.start listenfd inherited buf).Echoing :=
  Sockets.fresh_settled _

theorem Loop.advance_echoing
    {loop : Loop} (settled : loop.sockets.Settled) (i : Nat) :
    (loop.advance i).Echoing := by
  apply Loop.echoing_of_settled
  · exact settled
  · intro j sockfd left
    rw [Loop.advance]
    dsimp only
    split <;> exact Phase.noConfusion

theorem Loop.closeClient_echoing
    {loop : Loop} (settled : loop.sockets.Settled) (i sockfd : Nat) :
    (loop.closeClient i sockfd).Echoing := by
  apply Loop.advance_echoing
  exact settled.close sockfd

/-- `writen` owes what it has not written. -/
theorem Loop.inWriten_echoing
    {loop : Loop} {sockfd : Nat} {left : List (BitVec 8)}
    (owing : loop.sockets.Owing sockfd left) (i : Nat) :
    (loop.inWriten i sockfd (writenLoop left)).Echoing := by
  rw [writenLoop]
  split
  case isTrue => exact owing
  case isFalse finished =>
    have empty : left = [] :=
      List.eq_nil_of_length_eq_zero (Nat.eq_zero_of_not_pos finished)
    subst empty
    exact Loop.advance_echoing owing.settled (i + 1)

theorem Loop.echo_echoing
    {loop result : Loop} (settled : loop.sockets.Settled)
    {i sockfd : Nat} {bytes : List (BitVec 8)}
    (echoed : loop.echo i sockfd bytes = some result) :
    result.Echoing := by
  rcases Option.map_eq_some_iff.mp echoed with ⟨sockets, received, rfl⟩
  dsimp only
  rw [store, List.take_left]
  apply Loop.inWriten_echoing
  exact settled.receive received

theorem Loop.write_echoing
    {loop result : Loop} {i sockfd : Nat}
    {left : List (BitVec 8)} (owing : loop.sockets.Owing sockfd left)
    {outcome : WriteResult}
    (works : WriteWorks (.write outcome : Event Report))
    (written : loop.write i sockfd left outcome = some result) :
    result.Echoing := by
  cases outcome with
  | returned count =>
      rw [Loop.write, Option.ite_none_right_eq_some] at written
      rcases Option.map_eq_some_iff.mp written.2 with ⟨sockets, sent, rfl⟩
      rw [writenAfter, if_neg (Nat.ne_of_gt works)]
      apply Loop.inWriten_echoing
      exact owing.send sent
  | failed interrupted =>
      cases written
      have retried : interrupted = true := works
      rw [writenAfter, if_pos retried]
      exact Loop.inWriten_echoing owing i

/-- The handlers of a server open and close, but do not read or write. -/
structure Handlers.Echoing (handlers : Handlers State Report) : Prop where
  withLoop : ∀ state loop, handlers.loop (handlers.withLoop state loop) = loop
  afterReady :
    ∀ state nready report,
      (handlers.loop state).sockets.Settled →
        (handlers.loop state).phase = .top →
          (handlers.loop
            (handlers.afterReady state nready report)).Echoing
  afterAccept :
    ∀ state connfd,
      (handlers.loop state).sockets.Settled →
        (handlers.loop (handlers.afterAccept state connfd)).Echoing
  scan :
    ∀ state i,
      (handlers.loop state).sockets.Settled →
        (handlers.loop (handlers.scan state i)).Echoing
  closeClient :
    ∀ state i sockfd,
      (handlers.loop state).sockets.Settled →
        (handlers.loop (handlers.closeClient state i sockfd)).Echoing

theorem Handlers.Echoing.preserved
    {handlers : Handlers State Report} (server : handlers.Echoing)
    {state result : State} {event : Event Report}
    (echoing : (handlers.loop state).Echoing) (works : WriteWorks event)
    (stepped : next handlers state event = some result) :
    (handlers.loop result).Echoing := by
  rw [Loop.Echoing] at echoing
  cases step_of_next stepped with
  | ready nready report top reported =>
      rw [top] at echoing
      exact server.afterReady state nready report echoing top
  | failed accepting =>
      rw [accepting] at echoing
      rw [server.withLoop]
      exact echoing
  | accepted connfd accepting new =>
      rw [accepting] at echoing
      exact server.afterAccept state connfd echoing
  | scanned i scanning =>
      rw [scanning] at echoing
      exact server.scan state i echoing
  | closed outcome i sockfd reading =>
      rw [reading] at echoing
      exact server.closeClient state i sockfd echoing
  | echoed bytes i sockfd loop reading echo =>
      rw [reading] at echoing
      rw [server.withLoop]
      exact Loop.echo_echoing echoing echo
  | written outcome i sockfd left loop writing write =>
      rw [writing] at echoing
      rw [server.withLoop]
      exact Loop.write_echoing echoing works write

end CodingExamples.EchoServer.Multiplexing
