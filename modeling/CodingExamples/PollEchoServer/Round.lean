import CodingExamples.EchoServer.RoundEnds
import CodingExamples.PollEchoServer.Slots

/-!
# One round of the `poll` server

A round goes from one `poll` to the next.  It reads from the clients in the
order of their slots, and it is over as soon as as many clients have been
served as `poll` has counted.

The flags of a slot that was not part of the array that `poll` has got are
those that were in memory before.  Such a slot can be taken in the round, but
the count is used up before it is looked at.

No step is taken while a call blocks.  If the calls return, a round has an
end: the next `poll`, or the `exit` after an `accept` that failed.
-/

namespace CodingExamples.PollEchoServer.Round

open CodingExamples.EchoServer.Multiplexing
open CodingExamples.EchoServer.RoundEnds
open CodingExamples.EchoServer.Unp
open CodingExamples.Library.Execution
open CodingExamples.Library.Progress
open CodingExamples.Library.SlotTable
open CodingExamples.Library.SocketTable
open CodingExamples.PollEchoServer.Server
open CodingExamples.PollEchoServer.Slots

/-! ## What `poll` reports and what the server reads -/

/-- The client in a slot, if `poll` has stored some flag for it. -/
def reportedAt (polled : State) (revents : List (BitVec 16)) (i : Nat) :
    Option Nat :=
  match (descriptors polled.clients)[i]?, revents[i]? with
  | some (some fd), some flags => if flags ≠ 0 then some fd else none
  | _, _ => none

/-- The slots from an index on that are reported, with their clients. -/
def reportedFrom (polled : State) (revents : List (BitVec 16)) (i : Nat) :
    List (Nat × Nat) :=
  (List.range' i (polled.maxi + 1 - i)).filterMap fun j =>
    (reportedAt polled revents j).map fun fd => (j, fd)

/-- The clients that are reported; the first slot is not one of a client. -/
def reported (polled : State) (revents : List (BitVec 16)) :
    List (Nat × Nat) :=
  reportedFrom polled revents 1

/-- What `poll` returns for the array that it is called with. -/
structure Polls (state : State) (nready : Int)
    (revents : List (BitVec 16)) : Prop where
  size : revents.length = state.maxi + 1
  free :
    ∀ i : Nat, (descriptors state.clients)[i]? = some none →
      ∀ flags, revents[i]? = some flags → flags = 0
  count : nready = revents.countP (· ≠ 0)
  client :
    ∀ i : Nat, 1 ≤ i → ∀ flags, revents[i]? = some flags → flags ≠ 0 →
      flags &&& (pollrdnorm ||| pollerr) ≠ 0

/-- The slot and the descriptor of a call of `read`. -/
def readBy (state : State) : Event → List (Nat × Nat)
  | .read _ =>
      match state.loop.phase with
      | .reading i sockfd => [(i, sockfd)]
      | _ => []
  | _ => []

/-- The calls of `read` in a run. -/
def reads : State → List Event → List (Nat × Nat)
  | _, [] => []
  | state, event :: rest =>
      readBy state event ++
        match next state event with
        | none => []
        | some middle => reads middle rest

section Reported

variable {polled : State} {revents : List (BitVec 16)} {i : Nat}

theorem reportedFrom_eq_nil (behind : polled.maxi < i) :
    reportedFrom polled revents i = [] := by
  have noSlots : polled.maxi + 1 - i = 0 := by
    omega
  rw [reportedFrom, noSlots]
  rfl

theorem reportedFrom_eq (inside : i ≤ polled.maxi) :
    reportedFrom polled revents i =
      ((reportedAt polled revents i).map fun fd => (i, fd)).toList ++
        reportedFrom polled revents (i + 1) := by
  have count : polled.maxi + 1 - i = polled.maxi + 1 - (i + 1) + 1 := by
    omega
  rw [reportedFrom, reportedFrom, count, List.range'_succ,
    List.filterMap_cons]
  cases reportedAt polled revents i <;> rfl

theorem reportedFrom_of_none
    (inside : i ≤ polled.maxi)
    (silent : reportedAt polled revents i = none) :
    reportedFrom polled revents i = reportedFrom polled revents (i + 1) := by
  rw [reportedFrom_eq inside, silent]
  rfl

theorem reportedFrom_of_some
    {fd : Nat} (inside : i ≤ polled.maxi)
    (ready : reportedAt polled revents i = some fd) :
    reportedFrom polled revents i =
      (i, fd) :: reportedFrom polled revents (i + 1) := by
  rw [reportedFrom_eq inside, ready]
  rfl

/-- A client that is reported is in its slot. -/
theorem mem_descriptors_of_reportedAt
    {fd : Nat} (ready : reportedAt polled revents i = some fd) :
    some fd ∈ descriptors polled.clients := by
  rw [reportedAt] at ready
  split at ready
  · case h_1 client flags found _ =>
      rw [Option.ite_none_right_eq_some] at ready
      rw [← ready.2]
      exact List.mem_of_getElem? found
  · cases ready

theorem mem_descriptors_of_reported
    {fd : Nat} (member : (i, fd) ∈ reported polled revents) :
    some fd ∈ descriptors polled.clients := by
  rw [reported, reportedFrom, List.mem_filterMap] at member
  rcases member with ⟨j, _, found⟩
  rcases Option.map_eq_some_iff.mp found with ⟨client, ready, same⟩
  cases same
  exact mem_descriptors_of_reportedAt ready

/-- No slot is reported twice. -/
theorem reported_pairwise :
    (reported polled revents).Pairwise fun first second =>
      first.1 < second.1 := by
  rw [reported, reportedFrom, List.pairwise_filterMap]
  apply List.Pairwise.imp _ (List.pairwise_lt_range' (s := 1))
  intro i j ordered first found second other
  rcases Option.map_eq_some_iff.mp found with ⟨_, _, rfl⟩
  rcases Option.map_eq_some_iff.mp other with ⟨_, _, rfl⟩
  exact ordered

theorem reportedAt_of_zero (silent : revents[i]? = some 0) :
    reportedAt polled revents i = none := by
  rw [reportedAt, silent]
  split
  · case h_1 _ flags _ same =>
      cases same
      rfl
  · rfl

/-- Flags are stored for a client only. -/
theorem exists_reportedAt
    {nready : Int} (polls : Polls polled nready revents)
    (tracked : polled.maxi < polled.clients.length) {flags : BitVec 16}
    (found : revents[i]? = some flags) (stored : flags ≠ 0) :
    ∃ fd, reportedAt polled revents i = some fd := by
  have inside := (List.getElem?_eq_some_iff.mp found).1
  rw [polls.size] at inside
  have present : i < (descriptors polled.clients).length := by
    rw [descriptors, List.length_map]
    omega
  rw [reportedAt, List.getElem?_eq_getElem present, found]
  cases client : (descriptors polled.clients)[i] with
  | none =>
      have free : (descriptors polled.clients)[i]? = some none := by
        rw [List.getElem?_eq_getElem present, client]
      exact absurd (polls.free i free flags found) stored
  | some fd => exact ⟨fd, if_pos stored⟩

/-- The flags of the clients are counted by the clients that are reported. -/
theorem length_reportedFrom
    {nready : Int} (polls : Polls polled nready revents)
    (tracked : polled.maxi < polled.clients.length) :
    (reportedFrom polled revents i).length =
      (revents.drop i).countP (· ≠ 0) := by
  generalize left : polled.maxi + 1 - i = slots
  induction slots generalizing i with
  | zero =>
      have behind : revents.length ≤ i := by
        rw [polls.size]
        omega
      rw [reportedFrom_eq_nil (by omega), List.drop_of_length_le behind]
      rfl
  | succ slots ih =>
      have inside : i < revents.length := by
        rw [polls.size]
        omega
      have found := List.getElem?_eq_getElem inside
      have rest := ih (i := i + 1) (by omega)
      rw [List.drop_eq_getElem_cons inside, List.countP_cons, ← rest]
      by_cases silent : revents[i] = 0
      · rw [silent] at found
        rw [reportedFrom_of_none (by omega) (reportedAt_of_zero found)]
        simp [silent]
      · rcases exists_reportedAt polls tracked found silent with ⟨fd, ready⟩
        rw [reportedFrom_of_some (by omega) ready, List.length_cons,
          if_pos (decide_eq_true silent)]

/-- The count is that of the clients, and one more for the listening socket. -/
theorem count_eq
    {nready : Int} (polls : Polls polled nready revents)
    (tracked : polled.maxi < polled.clients.length) {flags : BitVec 16}
    (first : revents[0]? = some flags) :
    nready =
      (reported polled revents).length + if flags ≠ 0 then 1 else 0 := by
  have inside := (List.getElem?_eq_some_iff.mp first).1
  have head := List.drop_eq_getElem_cons inside
  rw [List.getElem?_eq_getElem inside, Option.some.injEq] at first
  rw [List.drop_zero, first] at head
  rw [polls.count, reported, length_reportedFrom polls tracked, head,
    List.countP_cons]
  by_cases silent : flags = 0 <;> simp [silent]

end Reported

/-! ## The slots that are still to be looked at -/

/-- The descriptor that the server reads from at a slot. -/
def acting (client : PollFd) : Option Nat :=
  match client.fd with
  | none => none
  | some sockfd =>
      if client.revents &&& (pollrdnorm ||| pollerr) ≠ 0 then
        some sockfd
      else
        none

/-- From an index on, the server will read from the clients reported there. -/
structure Pending (polled : State) (revents : List (BitVec 16)) (i : Nat)
    (state : State) : Prop where
  client : 1 ≤ i
  acts :
    ∀ j, i ≤ j → j ≤ polled.maxi →
      state.clients[j]?.bind acting = reportedAt polled revents j
  grown : polled.maxi ≤ state.maxi

/--
What is left of the count: one for each client, and perhaps one more for the
listening socket, if no connection was accepted.
-/
structure Owes (polled : State) (state : State) (clients : Nat) : Prop where
  enough : (clients : Int) ≤ state.loop.nready
  accurate :
    state.maxi = polled.maxi ∨ state.loop.nready = clients

/-- Where the server is in a round, with the reads that it has done. -/
def InRound (polled : State) (revents : List (BitVec 16))
    (done : List (Nat × Nat)) (state : State) : Prop :=
  match state.loop.phase with
  | .top => done = reported polled revents
  | .accepting =>
      done = [] ∧ Pending polled revents 1 state ∧
        state.maxi = polled.maxi ∧
        state.loop.nready = (reported polled revents).length + 1 ∧
        state.loop.sockets = polled.loop.sockets ∧
        ∀ j, j ≤ polled.maxi → ∀ client, state.clients[j]? = some client →
          client.fd = none → client.revents = 0
  | .scanning i =>
      Pending polled revents i state ∧ 0 < state.loop.nready ∧
        done ++ reportedFrom polled revents i = reported polled revents ∧
        Owes polled state (reportedFrom polled revents i).length
  | .reading i sockfd =>
      Pending polled revents (i + 1) state ∧
        done ++ (i, sockfd) :: reportedFrom polled revents (i + 1) =
          reported polled revents ∧
        Owes polled state (reportedFrom polled revents (i + 1)).length.succ
  | .writing i _ _ =>
      Pending polled revents (i + 1) state ∧
        done ++ reportedFrom polled revents (i + 1) =
          reported polled revents ∧
        Owes polled state (reportedFrom polled revents (i + 1)).length.succ
  | .exited => done = []
  | .undefined => False

theorem InRound.isPrefix
    {polled state : State} {revents : List (BitVec 16)}
    {done : List (Nat × Nat)} (inRound : InRound polled revents done state) :
    done <+: reported polled revents := by
  rw [InRound] at inRound
  split at inRound
  · rw [inRound]
  · rw [inRound.1]
    exact List.nil_prefix
  · exact ⟨_, inRound.2.2.1⟩
  · exact ⟨_, inRound.2.1⟩
  · exact ⟨_, inRound.2.1⟩
  · rw [inRound]
    exact List.nil_prefix
  · exact inRound.elim

section Steps

variable {polled state : State} {revents : List (BitVec 16)}
  {done : List (Nat × Nat)} {i : Nat}

/-- A client has been served, and the loop goes on if the count is not zero. -/
theorem advance_inRound
    (pending : Pending polled revents (i + 1) state)
    (served :
      done ++ reportedFrom polled revents (i + 1) = reported polled revents)
    (owes :
      Owes polled state (reportedFrom polled revents (i + 1)).length.succ) :
    InRound polled revents done
      { state with loop := state.loop.advance (i + 1) } := by
  have enough := owes.enough
  rw [InRound, Loop.advance]
  dsimp only
  by_cases finished : state.loop.nready - 1 ≤ 0
  · have nobody : reportedFrom polled revents (i + 1) = [] := by
      apply List.eq_nil_of_length_eq_zero
      omega
    rw [if_pos finished]
    rw [nobody, List.append_nil] at served
    exact served
  · rw [if_neg finished]
    refine ⟨⟨pending.client, pending.acts, pending.grown⟩, ?_, served, ?_⟩
    · show 0 < state.loop.nready - 1
      omega
    · constructor
      · show _ ≤ state.loop.nready - 1
        omega
      · rcases owes.accurate with same | equal
        · exact .inl same
        · right
          show state.loop.nready - 1 = _
          omega

/-- `writen` goes on, or the client has been served. -/
theorem inWriten_inRound
    (pending : Pending polled revents (i + 1) state)
    (served :
      done ++ reportedFrom polled revents (i + 1) = reported polled revents)
    (owes :
      Owes polled state (reportedFrom polled revents (i + 1)).length.succ)
    {loop : Loop} (same : loop.nready = state.loop.nready) (sockfd : Nat)
    (writen : Writen) :
    InRound polled revents done
      { state with loop := loop.inWriten i sockfd writen } := by
  have moved : Pending polled revents (i + 1) { state with loop := loop } :=
    ⟨pending.client, pending.acts, pending.grown⟩
  have count :
      Owes polled { state with loop := loop }
        (reportedFrom polled revents (i + 1)).length.succ := by
    constructor
    · show _ ≤ loop.nready
      rw [same]
      exact owes.enough
    · show _ ∨ loop.nready = _
      rw [same]
      exact owes.accurate
  cases writen with
  | writing left =>
      refine ⟨?_, served, ?_⟩
      · exact ⟨moved.client, moved.acts, moved.grown⟩
      · exact ⟨count.enough, count.accurate⟩
  | returned success => exact advance_inRound moved served count

/-- The client is forgotten, which is behind those to be looked at. -/
theorem closeClient_inRound
    (pending : Pending polled revents (i + 1) state)
    (served :
      done ++ reportedFrom polled revents (i + 1) = reported polled revents)
    (owes :
      Owes polled state (reportedFrom polled revents (i + 1)).length.succ)
    (sockfd : Nat) :
    InRound polled revents done (closeClient state i sockfd) := by
  let closed : State :=
    { state with
      loop := { state.loop with sockets := state.loop.sockets.close sockfd }
      clients := setFd state.clients i none }
  have forgotten : Pending polled revents (i + 1) closed := by
    refine ⟨pending.client, ?_, pending.grown⟩
    intro j behind inside
    rw [← pending.acts j behind inside]
    show (setFd state.clients i none)[j]?.bind acting = _
    rw [setFd, List.getElem?_modify_ne _ _ (by omega)]
  have count :
      Owes polled closed (reportedFrom polled revents (i + 1)).length.succ :=
    ⟨owes.enough, owes.accurate⟩
  exact advance_inRound forgotten served count

/-- The slot is skipped. -/
theorem Pending.skip
    (pending : Pending polled revents i state)
    (silent : state.clients[i]?.bind acting = none) :
    Pending polled revents (i + 1) state ∧
      reportedFrom polled revents i = reportedFrom polled revents (i + 1) := by
  have client := pending.client
  constructor
  · refine ⟨by omega, ?_, pending.grown⟩
    intro j behind inside
    exact pending.acts j (by omega) inside
  · by_cases inside : i ≤ polled.maxi
    · apply reportedFrom_of_none inside
      rw [← pending.acts i (Nat.le_refl i) inside]
      exact silent
    · rw [reportedFrom_eq_nil (by omega), reportedFrom_eq_nil (by omega)]

/-- A slot that the server acts on is one that `poll` has got. -/
theorem Owes.inside
    (owes : Owes polled state (reportedFrom polled revents i).length)
    (counted : 0 < state.loop.nready) (before : i ≤ state.maxi) :
    i ≤ polled.maxi := by
  by_contra behind
  rw [reportedFrom_eq_nil (by omega)] at owes
  rcases owes.accurate with same | used
  · omega
  · rw [List.length_nil] at used
    omega

theorem scan_inRound
    (tracked : state.maxi < state.clients.length)
    (pending : Pending polled revents i state)
    (counted : 0 < state.loop.nready)
    (served :
      done ++ reportedFrom polled revents i = reported polled revents)
    (owes : Owes polled state (reportedFrom polled revents i).length) :
    InRound polled revents done (scan state i) := by
  rw [scan]
  split
  case isFalse behind =>
    have grown := pending.grown
    rw [reportedFrom_eq_nil (by omega), List.append_nil] at served
    exact served
  case isTrue before =>
    have inside : i < state.clients.length := by
      omega
    have found := List.getElem?_eq_getElem inside
    have skipped (silent : acting state.clients[i] = none) :
        InRound polled revents done (state.enter (.scanning (i + 1))) := by
      rcases pending.skip (by rw [found]; exact silent) with
        ⟨next, same⟩
      rw [same] at served owes
      exact
        ⟨⟨next.client, next.acts, next.grown⟩, counted, served,
          ⟨owes.enough, owes.accurate⟩⟩
    rw [found]
    dsimp only
    cases fd : state.clients[i].fd with
    | none => exact skipped (by rw [acting, fd])
    | some sockfd =>
        dsimp only
        split
        case isTrue flags =>
          have reads : acting state.clients[i] = some sockfd := by
            rw [acting, fd]
            exact if_pos flags
          have polledSlot := owes.inside counted before
          have ready : reportedAt polled revents i = some sockfd := by
            rw [← pending.acts i (Nat.le_refl i) polledSlot, found]
            exact reads
          rw [reportedFrom_of_some polledSlot ready] at served owes
          refine ⟨⟨?_, ?_, pending.grown⟩, served, ?_⟩
          · exact Nat.le_succ_of_le pending.client
          · intro j behind within
            exact pending.acts j (by omega) within
          · exact ⟨owes.enough, owes.accurate⟩
        case isFalse flags =>
          apply skipped
          rw [acting, fd]
          exact if_neg flags

/-! ### After `poll` -/

theorem getElem?_storeRevents
    (clients : List PollFd) {revents : List (BitVec 16)} {j : Nat}
    {flags : BitVec 16} (found : revents[j]? = some flags) :
    (storeRevents clients revents)[j]? =
      clients[j]?.map fun client => { client with revents := flags } := by
  induction clients, revents using storeRevents.induct generalizing j with
  | case1 client clients first rest ih =>
      rw [storeRevents]
      cases j with
      | zero =>
          cases found
          rfl
      | succ j => exact ih found
  | case2 clients revents finished =>
      cases clients with
      | nil => rfl
      | cons client clients =>
          cases revents with
          | nil => cases found
          | cons first rest =>
              exact (finished client clients first rest rfl rfl).elim

/-- The flags that are stored say from which clients the server will read. -/
theorem acting_storeRevents
    {nready : Int} (polls : Polls polled nready revents) (client : 1 ≤ i)
    (inside : i ≤ polled.maxi) :
    (storeRevents polled.clients revents)[i]?.bind acting =
      reportedAt polled revents i := by
  have present : i < revents.length := by
    rw [polls.size]
    omega
  have found := List.getElem?_eq_getElem present
  rw [getElem?_storeRevents polled.clients found, reportedAt, found,
    descriptors, List.getElem?_map]
  cases slot : polled.clients[i]? with
  | none => rfl
  | some entry =>
      cases fd : entry.fd with
      | none => simp [acting, fd]
      | some sockfd =>
          by_cases silent : revents[i] = 0
          · simp [acting, fd, silent]
          · have mask := polls.client i client _ found silent
            simp only [Option.map_some, Option.bind_some, acting, fd]
            exact (if_pos mask).trans (if_pos silent).symm

/-- No flags are stored for a slot that is free. -/
theorem revents_eq_zero
    {nready : Int} (polls : Polls polled nready revents)
    (inside : i ≤ polled.maxi) {client : PollFd}
    (found : (storeRevents polled.clients revents)[i]? = some client)
    (free : client.fd = none) : client.revents = 0 := by
  have present : i < revents.length := by
    rw [polls.size]
    omega
  have flags := List.getElem?_eq_getElem present
  rw [getElem?_storeRevents polled.clients flags,
    Option.map_eq_some_iff] at found
  rcases found with ⟨entry, slot, rfl⟩
  apply polls.free i _ _ flags
  rw [descriptors, List.getElem?_map, slot]
  exact congrArg some free

theorem afterPoll_inRound
    (tracked : polled.maxi < polled.clients.length) {nready : Int}
    (polls : Polls polled nready revents)
    (top : polled.loop.phase = .top) :
    InRound polled revents [] (afterPoll polled nready revents) := by
  have present : 0 < revents.length := by
    rw [polls.size]
    exact Nat.succ_pos _
  have first := List.getElem?_eq_getElem present
  have counted := count_eq polls tracked first
  have slot := List.getElem?_eq_getElem (l := polled.clients) (i := 0)
    (by omega)
  have stored := getElem?_storeRevents polled.clients first
  rw [slot] at stored
  rw [afterPoll, if_pos (by omega)]
  dsimp only
  split
  case isTrue nothing =>
    have nobody : reported polled revents = [] := by
      apply List.eq_nil_of_length_eq_zero
      split at counted <;> omega
    rw [InRound]
    dsimp only
    rw [top]
    exact nobody.symm
  case isFalse counting =>
    have pending (phase : Phase) :
        Pending polled revents 1
          { polled with
            loop := { polled.loop with phase := phase, nready := nready }
            clients := storeRevents polled.clients revents } := by
      refine ⟨Nat.le_refl 1, ?_, Nat.le_refl _⟩
      intro j client inside
      exact acting_storeRevents polls client inside
    rw [stored]
    dsimp only [Option.map_some]
    split
    case isTrue flags =>
      have listening : revents[0] ≠ 0 := by
        intro silent
        rw [silent] at flags
        exact flags (by decide)
      rw [if_pos listening] at counted
      refine ⟨rfl, pending _, rfl, counted, rfl, ?_⟩
      intro j inside client found free
      exact revents_eq_zero polls inside found free
    case isFalse flags =>
      refine ⟨pending _, Int.not_le.mp counting, rfl, ?_, .inl rfl⟩
      show ((reported polled revents).length : Int) ≤ nready
      split at counted <;> omega

/-! ### After `accept` -/

/-- What `accept` changes in the slots. -/
theorem getElem?_setEvents
    {clients result : List PollFd} {slot : Nat} {connfd : Nat}
    (stored :
      setEvents (setFd clients slot (some connfd)) slot = some result)
    (j : Nat) :
    result[j]? =
      if j = slot then
        clients[j]?.map fun client =>
          { client with fd := some connfd, events := pollrdnorm }
      else
        clients[j]? := by
  rw [setEvents, Option.ite_none_right_eq_some] at stored
  rw [← Option.some.inj stored.2]
  by_cases same : j = slot
  · subst same
    rw [if_pos rfl, List.getElem?_modify_eq, setFd,
      List.getElem?_modify_eq]
    cases clients[j]? <;> rfl
  · rw [if_neg same, List.getElem?_modify_ne _ _ (Ne.symm same), setFd,
      List.getElem?_modify_ne _ _ (Ne.symm same)]

/-- No flags are stored for the slot of the new connection. -/
theorem afterAccept_inRound
    (consistent : Consistent state) {connfd : Nat}
    (new : ¬ state.loop.sockets.IsOpen connfd)
    (below : connfd < state.openMax)
    (pending : Pending polled revents 1 state)
    (same : state.maxi = polled.maxi)
    (counted : state.loop.nready = (reported polled revents).length + 1)
    (silent :
      ∀ j, j ≤ polled.maxi → ∀ client, state.clients[j]? = some client →
        client.fd = none → client.revents = 0) :
    InRound polled revents [] (afterAccept state connfd) := by
  have free := freeSlot_lt_iff.mpr (consistent.exists_free new below)
  have slot := getElem?_freeSlot free
  rw [consistent.size] at free
  rw [afterAccept]
  dsimp only
  generalize freeSlot (descriptors state.clients) = i at free slot ⊢
  rw [if_neg (Nat.ne_of_lt free)]
  have room : i < (setFd state.clients i (some connfd)).length := by
    rw [setFd, List.length_modify, consistent.length]
    exact free
  rcases exists_setEvents room with ⟨clients, stored, _⟩
  rw [stored]
  dsimp only
  rw [descriptors, List.getElem?_map, Option.map_eq_some_iff] at slot
  rcases slot with ⟨entry, entered, empty⟩
  have slots :
      ∀ j, 1 ≤ j → j ≤ polled.maxi →
        clients[j]?.bind acting = reportedAt polled revents j := by
    intro j client inside
    rw [← pending.acts j client inside, getElem?_setEvents stored]
    by_cases taken : j = i
    · subst taken
      have noFlags := silent j inside entry entered empty
      rw [if_pos rfl, entered]
      simp [acting, empty, noFlags]
    · rw [if_neg taken]
  rw [InRound, Loop.advance]
  dsimp only
  by_cases finished : state.loop.nready - 1 ≤ 0
  · have nobody : reported polled revents = [] := by
      apply List.eq_nil_of_length_eq_zero
      omega
    rw [if_pos finished]
    exact nobody.symm
  · rw [if_neg finished]
    refine ⟨⟨Nat.le_refl 1, slots, ?_⟩, ?_, rfl, ?_, .inr ?_⟩
    · show polled.maxi ≤ if i > state.maxi then i else state.maxi
      split <;> omega
    · show 0 < state.loop.nready - 1
      omega
    · show ((reported polled revents).length : Int) ≤ state.loop.nready - 1
      omega
    · show state.loop.nready - 1 = (reported polled revents).length
      omega

end Steps

/-! ## Rounds -/

/-- `poll` is not called. -/
def WithinRound : Event → Prop
  | .ready _ _ => False
  | _ => True

section Rounds

variable {polled : State} {revents : List (BitVec 16)}

theorem Consistent.maxi_lt_length
    {state : State} (consistent : Consistent state) :
    state.maxi < state.clients.length := by
  rw [consistent.length]
  exact consistent.tracks.maxi

/-- Every step adds the reads that it does. -/
theorem next_inRound
    {state result : State} {event : Event} {done : List (Nat × Nat)}
    (consistent : Consistent state) (accepts : AcceptsBelow state event)
    (within : WithinRound event)
    (inRound : InRound polled revents done state)
    (stepped : next state event = some result) :
    InRound polled revents (done ++ readBy state event) result := by
  rw [InRound] at inRound
  cases step_of_next stepped with
  | ready nready revents top reported => exact within.elim
  | failed accepting =>
      rw [← State.handlers_loop, accepting] at inRound
      show InRound polled revents (done ++ []) _
      rw [List.append_nil]
      exact inRound.1
  | accepted connfd accepting new =>
      rw [← State.handlers_loop, accepting] at inRound
      rcases inRound with ⟨rfl, pending, same, counted, _, silent⟩
      exact
        afterAccept_inRound consistent new accepts pending same counted silent
  | scanned i scanning =>
      rw [← State.handlers_loop, scanning] at inRound
      rcases inRound with ⟨pending, counted, served, owes⟩
      show InRound polled revents (done ++ []) _
      rw [List.append_nil]
      exact
        scan_inRound (Consistent.maxi_lt_length consistent) pending counted
          served owes
  | closed outcome i sockfd reading =>
      rw [← State.handlers_loop, reading] at inRound
      rcases inRound with ⟨pending, served, owes⟩
      rw [State.handlers_loop] at reading
      rw [readBy, reading]
      apply closeClient_inRound pending _ owes
      rw [List.append_assoc]
      exact served
  | echoed bytes i sockfd loop reading echo =>
      rw [← State.handlers_loop, reading] at inRound
      rcases inRound with ⟨pending, served, owes⟩
      rw [State.handlers_loop] at reading
      rw [readBy, reading]
      rcases Option.map_eq_some_iff.mp echo with ⟨sockets, _, rfl⟩
      apply inWriten_inRound pending _ owes
      · rfl
      · rw [List.append_assoc]
        exact served
  | written outcome i sockfd left loop writing write =>
      rw [← State.handlers_loop, writing] at inRound
      rcases inRound with ⟨pending, served, owes⟩
      show InRound polled revents (done ++ []) _
      rw [List.append_nil]
      cases outcome with
      | returned count =>
          rw [Loop.write, Option.ite_none_right_eq_some] at write
          rcases Option.map_eq_some_iff.mp write.2 with ⟨sockets, _, rfl⟩
          apply inWriten_inRound pending served owes
          rfl
      | failed interrupted =>
          cases write
          exact inWriten_inRound pending served owes rfl sockfd _

/-- What is read in a round follows the invariant. -/
theorem run_inRound
    {state final : State} {events : List Event} {done : List (Nat × Nat)}
    (consistent : Consistent state)
    (accepts : Along next AcceptsBelow state events)
    (within : ∀ event ∈ events, WithinRound event)
    (inRound : InRound polled revents done state)
    (ran : run next state events = some final) :
    InRound polled revents (done ++ reads state events) final := by
  induction events generalizing state done with
  | nil =>
      cases ran
      rw [reads, List.append_nil]
      exact inRound
  | cons event rest ih =>
      rw [run_cons_eq_some_iff] at ran
      rcases ran with ⟨middle, stepped, ranRest⟩
      rw [List.forall_mem_cons] at within
      have after :=
        next_inRound consistent accepts.head within.1 inRound stepped
      rw [reads, stepped, ← List.append_assoc]
      exact
        ih (next_consistent consistent accepts.head stepped)
          (accepts.tail stepped) within.2 after ranRest

/-- What is accepted in a round was not open when `poll` was called. -/
theorem not_isOpen_of_accept
    {state final : State} {events : List Event} {done : List (Nat × Nat)}
    (consistent : Consistent state)
    (accepts : Along next AcceptsBelow state events)
    (within : ∀ event ∈ events, WithinRound event)
    (inRound : InRound polled revents done state)
    (ran : run next state events = some final) {connfd : Nat}
    (accepted : .accept (some connfd) ∈ events) :
    ¬ polled.loop.sockets.IsOpen connfd := by
  induction events generalizing state done with
  | nil => cases accepted
  | cons event rest ih =>
      rw [run_cons_eq_some_iff] at ran
      rcases ran with ⟨middle, stepped, ranRest⟩
      rw [List.forall_mem_cons] at within
      rcases List.mem_cons.mp accepted with rfl | later
      · cases step_of_next stepped with
        | accepted _ accepting new =>
            rw [InRound, ← State.handlers_loop, accepting] at inRound
            rcases inRound with ⟨_, _, _, _, same, _⟩
            rw [← same]
            exact new
      · exact
          ih (next_consistent consistent accepts.head stepped)
            (accepts.tail stepped) within.2
            (next_inRound consistent accepts.head within.1 inRound stepped)
            ranRest later

end Rounds

/-! ## The end of a round -/

/-- What may happen in a round if the calls return, and `accept` as promised. -/
def Served (openMax : Nat) : Event → Bool
  | .accept (some connfd) => decide (connfd < openMax)
  | event => Returns event

theorem served_permits (openMax : Nat) : Permits (Served openMax) where
  returns := by
    intro event served
    cases event with
    | accept connfd => rfl
    | ready nready revents => exact served
    | scan => rfl
    | read outcome => rfl
    | write outcome => exact served
  accept := rfl
  scan := rfl
  read := rfl
  write := fun _ positive => decide_eq_true positive

theorem acceptsBelow_of_served
    {state : State} {event : Event}
    (served : Served state.openMax event = true) :
    AcceptsBelow state event := by
  cases event with
  | accept connfd =>
      cases connfd with
      | none => trivial
      | some connfd => exact of_decide_eq_true served
  | ready nready revents => trivial
  | scan => trivial
  | read outcome => trivial
  | write outcome => trivial

/-- A round in which every call returns gets to the next `poll` or to `exit`. -/
theorem settles_of_consistent
    {state : State} (consistent : Consistent state)
    (serving : Serving state.loop) :
    Settles (restrict next (Served state.clients.length))
      (fun last => last.loop.phase = .top ∨ last.loop.phase = .exited)
      state := by
  have preserved :
      ∀ before event after,
        (Consistent before ∧
            before.clients.length = state.clients.length) →
          Served state.clients.length event = true →
            next before event = some after →
              Consistent after ∧
                after.clients.length = state.clients.length := by
    rintro before event after ⟨kept, size⟩ served step
    rw [← size, kept.length] at served
    refine ⟨next_consistent kept (acceptsBelow_of_served served) step, ?_⟩
    rw [← size]
    exact slots_of_reachable Poll.handlers_bounded (Reachable.single step)
  have settles :=
    settles_of_serving Poll.handlers_bounded
      (served_permits state.clients.length) preserved serving
      ⟨consistent, rfl⟩
  refine ⟨settles.bounded, settles.finishes, ?_⟩
  intro last reachable stuck
  rcases settles.finished last reachable stuck with ⟨ended, kept, _⟩
  have defined := kept.fits.defined
  rw [State.handlers_loop] at ended
  cases phase : last.loop.phase with
  | top => exact .inl rfl
  | exited => exact .inr rfl
  | undefined => exact absurd phase defined
  | accepting => rw [phase] at ended; exact ended.elim
  | scanning i => rw [phase] at ended; exact ended.elim
  | reading i sockfd => rw [phase] at ended; exact ended.elim
  | writing i sockfd left => rw [phase] at ended; exact ended.elim

section Exit

theorem advance_ne_exited (loop : Loop) (i : Nat) :
    (loop.advance i).phase ≠ .exited := by
  rw [Loop.advance]
  dsimp only
  split <;> exact Phase.noConfusion

theorem inWriten_ne_exited
    (loop : Loop) (i sockfd : Nat) (writen : Writen) :
    (loop.inWriten i sockfd writen).phase ≠ .exited := by
  cases writen with
  | writing left => exact Phase.noConfusion
  | returned success => exact advance_ne_exited loop (i + 1)

theorem afterPoll_ne_exited
    {state : State} (top : state.loop.phase = .top) (nready : Int)
    (revents : List (BitVec 16)) :
    (afterPoll state nready revents).loop.phase ≠ .exited := by
  rw [afterPoll]
  dsimp only
  split
  · split
    · rw [top]
      exact Phase.noConfusion
    · split
      · exact Phase.noConfusion
      · split <;> exact Phase.noConfusion
  · exact Phase.noConfusion

variable {state result : State} {event : Event}

/-- `main` is only left by `exit` when `accept` has failed. -/
theorem accept_of_exited
    (within : WithinRound event) (stepped : next state event = some result)
    (exited : result.loop.phase = .exited) : event = .accept none := by
  cases step_of_next stepped with
  | ready nready revents top reported => exact within.elim
  | failed accepting => rfl
  | accepted connfd accepting new =>
      have phase : (afterAccept state connfd).loop.phase ≠ .exited := by
        rw [afterAccept]
        dsimp only
        split
        · exact Phase.noConfusion
        · exact advance_ne_exited _ 1
      exact absurd exited phase
  | scanned i scanning =>
      have phase : (scan state i).loop.phase ≠ .exited := by
        rw [scan]
        split
        · split
          · exact Phase.noConfusion
          · split
            · exact Phase.noConfusion
            · split <;> exact Phase.noConfusion
        · exact Phase.noConfusion
      exact absurd exited phase
  | closed outcome i sockfd reading =>
      exact absurd exited (advance_ne_exited _ (i + 1))
  | echoed bytes i sockfd loop reading echo =>
      rcases Option.map_eq_some_iff.mp echo with ⟨sockets, _, rfl⟩
      exact absurd exited (inWriten_ne_exited _ i sockfd _)
  | written outcome i sockfd left loop writing write =>
      cases outcome with
      | returned count =>
          rw [Loop.write, Option.ite_none_right_eq_some] at write
          rcases Option.map_eq_some_iff.mp write.2 with ⟨sockets, _, rfl⟩
          exact absurd exited (inWriten_ne_exited _ i sockfd _)
      | failed interrupted =>
          cases write
          exact absurd exited (inWriten_ne_exited _ i sockfd _)

theorem accept_mem_of_exited
    {final : State} {events : List Event}
    (within : ∀ event ∈ events, WithinRound event)
    (running : state.loop.phase ≠ .exited)
    (ran : run next state events = some final)
    (exited : final.loop.phase = .exited) : .accept none ∈ events := by
  induction events generalizing state with
  | nil =>
      cases ran
      exact absurd exited running
  | cons event rest ih =>
      rw [run_cons_eq_some_iff] at ran
      rcases ran with ⟨middle, stepped, ranRest⟩
      rw [List.forall_mem_cons] at within
      by_cases left : middle.loop.phase = .exited
      · rw [accept_of_exited within.1 stepped left]
        exact List.mem_cons_self
      · exact List.mem_cons_of_mem _ (ih within.2 left ranRest)

end Exit

/-- The events of a round, when no `write` is interrupted. -/
theorem continues_of_within
    {round : List Event} (within : ∀ event ∈ round, WithinRound event)
    (uninterrupted : .write (.failed true) ∉ round) :
    ∀ event ∈ round, Continues event = true := by
  intro event member
  cases event with
  | ready nready revents => exact (within _ member).elim
  | accept connfd => rfl
  | scan => rfl
  | read outcome => rfl
  | write outcome =>
      cases outcome with
      | returned count => rfl
      | failed interrupted =>
          cases interrupted with
          | true => exact absurd member uninterrupted
          | false => rfl

/--
In every reachable state of a server whose descriptors are below `OPEN_MAX`,
and for everything that `poll` can return there: a round never leaves the
array, it reads from the clients that `poll` has reported, once each in the
order of their slots, and from no other; when `main` is about to call `poll`
again it has read from all of them.  The descriptor that is accepted in the
round is not read from.

The round is short if no `write` is interrupted.  From each of its points, if
every call returns, it goes on to where `main` is about to call `poll` again,
or to the `exit` behind an `accept` that failed.
-/
theorem round_reads
    (listenfd : Nat) (inherited : Nat → Bool) (buf : List (BitVec 8))
    (clients : List PollFd) (below : listenfd < clients.length)
    (events : List Event) (polled : State)
    (reached :
      run next (start listenfd inherited buf clients) events = some polled)
    (nready : Int) (revents : List (BitVec 16))
    (polls : Polls polled nready revents)
    (round : List Event) (within : ∀ event ∈ round, WithinRound event)
    (final : State)
    (ran :
      run next polled (.ready nready revents :: round) = some final)
    (accepts :
      Along next AcceptsBelow (start listenfd inherited buf clients)
        (events ++ .ready nready revents :: round)) :
    final.loop.phase ≠ .undefined ∧
      reads polled (.ready nready revents :: round) <+:
        reported polled revents ∧
      (final.loop.phase = .top →
        reads polled (.ready nready revents :: round) =
          reported polled revents) ∧
      ((reported polled revents).Pairwise fun first second =>
        first.1 < second.1) ∧
      (∀ connfd, .accept (some connfd) ∈ round →
        ∀ i,
          (i, connfd) ∉ reads polled (.ready nready revents :: round)) ∧
      (.write (.failed true) ∉ round →
        round.length ≤ clients.length * slotSteps + 2) ∧
      Settles (restrict next (Served clients.length))
        (fun last => last.loop.phase = .top ∨ last.loop.phase = .exited)
        final ∧
      (final.loop.phase = .exited → .accept none ∈ round) := by
  have preserved :
      ∀ state event result,
        Consistent state → AcceptsBelow state event →
          next state event = some result → Consistent result :=
    fun _ _ _ => next_consistent
  have everywhere :=
    accepts.throughout preserved (start_consistent below inherited buf)
  have consistent : Consistent polled :=
    everywhere events _ polled rfl reached
  have reachedPolled :
      Reachable next (start listenfd inherited buf clients) polled :=
    ⟨events, reached⟩
  have reachedFinal :
      Reachable next (start listenfd inherited buf clients) final :=
    reachedPolled.trans ⟨_, ran⟩
  have consistentFinal : Consistent final := by
    apply everywhere _ [] final (List.append_nil _).symm
    rw [run_append_eq_some_iff]
    exact ⟨polled, reached, ran⟩
  have initial := Poll.length_start listenfd inherited buf clients
  have acceptsRound := accepts.drop reached
  rw [run_cons_eq_some_iff] at ran
  rcases ran with ⟨middle, stepped, ranRound⟩
  have opened :
      InRound polled revents [] middle ∧ middle.loop.phase ≠ .exited := by
    cases step_of_next stepped with
    | ready _ _ top _ =>
        exact
          ⟨afterPoll_inRound (Consistent.maxi_lt_length consistent) polls top,
            afterPoll_ne_exited top nready revents⟩
  have consistentMiddle :=
    next_consistent consistent acceptsRound.head stepped
  have acceptsRest := acceptsRound.tail stepped
  have inRound :=
    run_inRound consistentMiddle acceptsRest within opened.1 ranRound
  have all :
      reads polled (.ready nready revents :: round) = reads middle round := by
    rw [reads, stepped]
    rfl
  rw [all]
  rw [List.nil_append] at inRound
  refine
    ⟨consistentFinal.fits.defined, inRound.isPrefix, ?_, reported_pairwise,
      ?_, ?_, ?_, ?_⟩
  · intro top
    rw [InRound, top] at inRound
    exact inRound
  · intro connfd accepted i member
    apply
      not_isOpen_of_accept consistentMiddle acceptsRest within opened.1
        ranRound accepted
    apply consistent.tracks.isOpen
    exact mem_descriptors_of_reported (inRound.isPrefix.mem member)
  · intro uninterrupted
    have continues := continues_of_within within uninterrupted
    have short :=
      length_le_of_ready Poll.handlers_bounded stepped
        (run_restrict continues ranRound)
    rwa [slots_of_reachable Poll.handlers_bounded reachedPolled,
      initial] at short
  · have serving :=
      serving_of_reachable Poll.handlers_bounded
        (Poll.serving_start listenfd inherited buf clients) reachedFinal
    have settles := settles_of_consistent consistentFinal serving
    rwa [slots_of_reachable Poll.handlers_bounded reachedFinal,
      initial] at settles
  · exact accept_mem_of_exited within opened.2 ranRound

/-- A client is connected, in an array whose flags are all set. -/
def connected : Option State :=
  run next
    (start 3 (fun fd => decide (fd = 1)) []
      (List.replicate 5 ⟨some 7, 0, 255⟩))
    [.ready 1 [64], .accept (some 4)]

/-- Another client gets a slot that `poll` has not seen. -/
def anotherClient : List Event :=
  [.accept (some 0), .scan, .read (.returned [])]

theorem round_reads_anotherClient :
    ∃ polled final,
      connected = some polled ∧
        run next polled (.ready 2 [64, 64] :: anotherClient) = some final ∧
        final.loop.phase ≠ .undefined ∧
        reads polled (.ready 2 [64, 64] :: anotherClient) <+:
          reported polled [64, 64] ∧
        (final.loop.phase = .top →
          reads polled (.ready 2 [64, 64] :: anotherClient) =
            reported polled [64, 64]) ∧
        ((reported polled [64, 64]).Pairwise fun first second =>
          first.1 < second.1) ∧
        (∀ connfd, .accept (some connfd) ∈ anotherClient →
          ∀ i,
            (i, connfd) ∉
              reads polled (.ready 2 [64, 64] :: anotherClient)) ∧
        (.write (.failed true) ∉ anotherClient →
          anotherClient.length ≤ 5 * slotSteps + 2) ∧
        Settles (restrict next (Served 5))
          (fun last => last.loop.phase = .top ∨ last.loop.phase = .exited)
          final ∧
        (final.loop.phase = .exited → .accept none ∈ anotherClient) := by
  have before :
      connected.map (fun state => (descriptors state.clients, state.maxi)) =
        some ([some 3, some 4, none, none, none], 1) := by
    decide +kernel
  rcases Option.map_eq_some_iff.mp before with ⟨polled, reached, state⟩
  rw [Prod.mk.injEq] at state
  rcases state with ⟨slots, maxi⟩
  have after :
      (connected.bind fun polled =>
          run next polled (.ready 2 [64, 64] :: anotherClient)).isSome := by
    decide +kernel
  rw [reached, Option.bind_some, Option.isSome_iff_exists] at after
  rcases after with ⟨final, ran⟩
  have polls : Polls polled 2 [64, 64] := by
    constructor
    · rw [maxi]
      rfl
    · rw [slots]
      intro i free flags found
      match i with
      | 0 => cases free
      | 1 => cases free
      | i + 2 => cases found
    · rfl
    · intro i client flags found stored
      match i with
      | 0 => cases client
      | 1 =>
          cases found
          decide
      | i + 2 => cases found
  have within : ∀ event ∈ anotherClient, WithinRound event := by
    simp [anotherClient, WithinRound]
  refine ⟨polled, final, reached, ran, ?_⟩
  exact
    round_reads 3 _ [] _ (by decide) _ polled reached 2 [64, 64] polls
      anotherClient within final ran (by decide +kernel)

end CodingExamples.PollEchoServer.Round
