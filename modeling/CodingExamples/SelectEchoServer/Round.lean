import CodingExamples.Library.SlotScan
import CodingExamples.SelectEchoServer.Descriptors

/-!
# One round of the `select` server

A round goes from one `select` to the next.  `nready` begins with the number
of descriptors that `select` has left in `rset`; the listening socket and the
clients are counted down from it, so that it is always the number of clients
that the loop has still to find.

A connection that is accepted in the round gets a descriptor that was not in
the set that `select` was called with.
-/

namespace CodingExamples.SelectEchoServer.Round

open CodingExamples.EchoServer.Multiplexing
open CodingExamples.EchoServer.Unp
open CodingExamples.Library.Execution
open CodingExamples.Library.SlotScan
open CodingExamples.Library.SlotTable
open CodingExamples.Library.SocketTable
open CodingExamples.SelectEchoServer.Descriptors
open CodingExamples.SelectEchoServer.Server

/-! ## What `select` reports and what the server reads -/

/-- The client in a slot, if the set holds its descriptor. -/
def readyAt (clients : List (Option Nat)) (rset : Finset Nat) (i : Nat) :
    Option Nat :=
  match clients[i]? with
  | some (some fd) => if fd ∈ rset then some fd else none
  | _ => none

/-- The clients in the slots from an index on that can be read. -/
def readyFrom (clients : List (Option Nat)) (rset : Finset Nat) (i : Nat) :
    List (Nat × Nat) :=
  hitsFrom (readyAt clients rset) clients.length i

/-- The clients that can be read. -/
def readyClients (selected : State) (rset : Finset Nat) : List (Nat × Nat) :=
  readyFrom selected.clients rset 0

/-- The slot and the descriptor of a call of `read`. -/
def readBy (state : State) : Event → List (Nat × Nat)
  | .read _ =>
      match state.loop.phase with
      | .reading i sockfd => [(i, sockfd)]
      | _ => []
  | _ => []

/-- The calls of `read` in a run. -/
def reads : State → List Event → List (Nat × Nat)
  | _, [] => []
  | state, event :: rest =>
      readBy state event ++
        match next state event with
        | none => []
        | some middle => reads middle rest

section Ready

variable {clients : List (Option Nat)} {rset : Finset Nat} {i fd : Nat}

theorem readyAt_eq_some_iff :
    readyAt clients rset i = some fd ↔
      clients[i]? = some (some fd) ∧ fd ∈ rset := by
  rw [readyAt]
  split
  case h_1 other found =>
    rw [Option.ite_none_right_eq_some, found]
    constructor
    · rintro ⟨member, same⟩
      cases same
      exact ⟨rfl, member⟩
    · rintro ⟨same, member⟩
      cases same
      exact ⟨member, rfl⟩
  case h_2 nothing =>
    constructor
    · exact nofun
    · rintro ⟨found, _⟩
      exact absurd found (nothing fd)

theorem readyAt_of_not_mem
    (silent : ∀ fd, clients[i]? = some (some fd) → fd ∉ rset) :
    readyAt clients rset i = none := by
  apply Option.eq_none_iff_forall_not_mem.mpr
  intro fd ready
  rcases readyAt_eq_some_iff.mp ready with ⟨found, member⟩
  exact silent fd found member

theorem mem_readyClients_iff {selected : State} :
    (i, fd) ∈ readyClients selected rset ↔
      selected.clients[i]? = some (some fd) ∧ fd ∈ rset := by
  rw [readyClients, readyFrom, mem_hitsFrom_iff, readyAt_eq_some_iff]
  constructor
  · rintro ⟨_, _, ready⟩
    exact ready
  · rintro ⟨found, member⟩
    exact
      ⟨Nat.zero_le i, (List.getElem?_eq_some_iff.mp found).1, found, member⟩

/-- What is ready is the listening socket, or one of the clients. -/
theorem card_eq
    {selected : State} (consistent : Consistent selected)
    (within : rset ⊆ selected.allset) :
    rset.card =
      (readyClients selected rset).length +
        if selected.listenfd ∈ rset then 1 else 0 := by
  have once :
      ((readyClients selected rset).map Prod.snd).Nodup := by
    apply List.Nodup.map_on _ hitsFrom_nodup
    rintro ⟨i, fd⟩ first ⟨j, other⟩ second same
    cases same
    have left := mem_readyClients_iff.mp first
    have right := mem_readyClients_iff.mp second
    rw [consistent.distinct i j fd left.1 right.1]
  have clients :
      ((readyClients selected rset).map Prod.snd).toFinset =
        rset.erase selected.listenfd := by
    ext fd
    rw [List.mem_toFinset, List.mem_map, Finset.mem_erase]
    constructor
    · rintro ⟨⟨i, other⟩, member, rfl⟩
      rcases mem_readyClients_iff.mp member with ⟨found, ready⟩
      refine ⟨?_, ready⟩
      rintro same
      apply consistent.separate
      rw [← same]
      exact List.mem_of_getElem? found
    · rintro ⟨different, ready⟩
      have used := (consistent.matching.allset fd).mp (within ready)
      rcases List.mem_iff_getElem?.mp (used.resolve_left different) with
        ⟨i, found⟩
      exact ⟨(i, fd), mem_readyClients_iff.mpr ⟨found, ready⟩, rfl⟩
  have count := List.toFinset_card_of_nodup once
  rw [clients, List.length_map] at count
  rw [← count]
  split
  case isTrue listening => exact (Finset.card_erase_add_one listening).symm
  case isFalse silent => rw [Finset.erase_eq_of_notMem silent, Nat.add_zero]

end Ready

/-! ## No client is behind `maxi` -/

/-- Every client is in a slot that the loop gets to. -/
def Tracked (state : State) : Prop :=
  ∀ (i fd : Nat), state.clients[i]? = some (some fd) → (i : Int) ≤ state.maxi

theorem start_tracked
    (listenfd : Nat) (inherited : Nat → Bool) (buf : List (BitVec 8)) :
    Tracked (start listenfd inherited buf) := by
  intro i fd found
  have free :
      (start listenfd inherited buf).clients =
        List.replicate fdSetsize none := by
    rw [start]
    dsimp only
    split <;> rfl
  rw [free] at found
  cases List.eq_of_mem_replicate (List.mem_of_getElem? found)

theorem afterAccept_tracked
    {state : State} (tracked : Tracked state) {connfd : Nat}
    (small : connfd < fdSetsize) : Tracked (afterAccept state connfd) := by
  intro i fd found
  rw [afterAccept, fdSet, if_pos small] at found ⊢
  dsimp only at found ⊢
  rw [List.getElem?_set] at found
  split at found
  case isTrue same =>
    subst same
    split <;> omega
  case isFalse =>
    have before := tracked i fd found
    split <;> omega

theorem next_tracked
    {state result : State} {event : Event}
    (consistent : Consistent state) (available : Available state event)
    (tracked : Tracked state) (stepped : next state event = some result) :
    Tracked result := by
  cases step_of_next stepped with
  | ready nready rset top reported =>
      show Tracked (afterSelect state nready rset)
      rw [afterSelect]
      dsimp only
      split
      · exact tracked
      · split <;> exact tracked
  | failed accepting => exact tracked
  | accepted connfd accepting new =>
      exact afterAccept_tracked tracked available.2
  | scanned i scanning =>
      show Tracked (scan state i)
      rw [scan]
      split
      · split
        · exact tracked
        · exact tracked
        · split <;> exact tracked
      · exact tracked
  | closed outcome i sockfd reading =>
      have present := consistent.fits
      rw [show state.loop.phase = .reading i sockfd from reading] at present
      have small := consistent.client_lt (List.mem_of_getElem? present.2)
      show Tracked (closeClient state i sockfd)
      rw [closeClient, fdClr, if_pos small]
      intro j fd found
      rw [List.getElem?_set] at found
      split at found
      · split at found <;> cases found
      · exact tracked j fd found
  | echoed bytes i sockfd loop reading echo => exact tracked
  | written outcome i sockfd left loop writing write => exact tracked

/-! ## The slots that are still to be looked at -/

/-- From an index on, the clients are those that were ready. -/
structure Pending (selected : State) (rset : Finset Nat) (i : Nat)
    (state : State) : Prop where
  same :
    ∀ j, i ≤ j →
      readyAt state.clients state.rset j = readyAt selected.clients rset j
  behind :
    ∀ j : Nat, state.maxi < j → readyAt selected.clients rset j = none
  size : state.clients.length = selected.clients.length

/-- Where the server is in a round, with the reads that it has done. -/
def InRound (selected : State) (rset : Finset Nat) (done : List (Nat × Nat))
    (state : State) : Prop :=
  let left := readyFrom selected.clients rset
  match state.loop.phase with
  | .top => done = readyClients selected rset
  | .accepting =>
      done = [] ∧ Pending selected rset 0 state ∧
        state.loop.nready = (readyClients selected rset).length + 1 ∧
        state.loop.sockets = selected.loop.sockets ∧ state.rset = rset
  | .scanning i =>
      Pending selected rset i state ∧
        done ++ left i = readyClients selected rset ∧
        state.loop.nready = (left i).length
  | .reading i sockfd =>
      Pending selected rset (i + 1) state ∧
        done ++ (i, sockfd) :: left (i + 1) = readyClients selected rset ∧
        state.loop.nready = (left (i + 1)).length + 1
  | .writing i _ _ =>
      Pending selected rset (i + 1) state ∧
        done ++ left (i + 1) = readyClients selected rset ∧
        state.loop.nready = (left (i + 1)).length + 1
  | .exited => done = []
  | .undefined => False

theorem InRound.isPrefix
    {selected state : State} {rset : Finset Nat} {done : List (Nat × Nat)}
    (inRound : InRound selected rset done state) :
    done <+: readyClients selected rset := by
  rw [InRound] at inRound
  split at inRound
  · rw [inRound]
  · rw [inRound.1]
    exact List.nil_prefix
  · exact ⟨_, inRound.2.1⟩
  · exact ⟨_, inRound.2.1⟩
  · exact ⟨_, inRound.2.1⟩
  · rw [inRound]
    exact List.nil_prefix
  · exact inRound.elim

section Steps

variable {selected state : State} {rset : Finset Nat}
  {done : List (Nat × Nat)} {i : Nat}

/-- A client has been served, and the loop goes on if the count is not zero. -/
theorem advance_inRound
    (pending : Pending selected rset i state)
    (served :
      done ++ readyFrom selected.clients rset i = readyClients selected rset)
    (counted :
      state.loop.nready =
        (readyFrom selected.clients rset i).length + 1) :
    InRound selected rset done
      { state with loop := state.loop.advance i } := by
  rw [InRound, Loop.advance]
  dsimp only
  by_cases finished : state.loop.nready - 1 ≤ 0
  · have nobody : readyFrom selected.clients rset i = [] := by
      apply List.eq_nil_of_length_eq_zero
      omega
    rw [if_pos finished]
    rw [nobody, List.append_nil] at served
    exact served
  · rw [if_neg finished]
    refine ⟨⟨pending.same, pending.behind, pending.size⟩, served, ?_⟩
    show state.loop.nready - 1 = _
    omega

/-- `writen` goes on, or the client has been served. -/
theorem inWriten_inRound
    (pending : Pending selected rset (i + 1) state)
    (served :
      done ++ readyFrom selected.clients rset (i + 1) =
        readyClients selected rset)
    (counted :
      state.loop.nready =
        (readyFrom selected.clients rset (i + 1)).length + 1)
    {loop : Loop} (same : loop.nready = state.loop.nready) (sockfd : Nat)
    (writen : Writen) :
    InRound selected rset done
      { state with loop := loop.inWriten i sockfd writen } := by
  have moved :
      Pending selected rset (i + 1) { state with loop := loop } :=
    ⟨pending.same, pending.behind, pending.size⟩
  rw [← same] at counted
  cases writen with
  | writing left =>
      refine ⟨?_, served, counted⟩
      exact ⟨moved.same, moved.behind, moved.size⟩
  | returned success => exact advance_inRound moved served counted

/-- The client is forgotten, which is behind those to be looked at. -/
theorem closeClient_inRound
    (pending : Pending selected rset (i + 1) state)
    (served :
      done ++ readyFrom selected.clients rset (i + 1) =
        readyClients selected rset)
    (counted :
      state.loop.nready =
        (readyFrom selected.clients rset (i + 1)).length + 1)
    {sockfd : Nat} (small : sockfd < fdSetsize) :
    InRound selected rset done (closeClient state i sockfd) := by
  let closed : State :=
    { state with
      loop := { state.loop with sockets := state.loop.sockets.close sockfd }
      allset := state.allset.erase sockfd
      clients := state.clients.set i none }
  have forgotten : Pending selected rset (i + 1) closed := by
    refine ⟨?_, pending.behind, List.length_set.trans pending.size⟩
    intro j behind
    rw [← pending.same j behind, readyAt, readyAt]
    show (match (state.clients.set i none)[j]? with
      | some (some fd) => if fd ∈ state.rset then some fd else none
      | _ => none) = _
    rw [List.getElem?_set_ne (by omega)]
  rw [closeClient, fdClr, if_pos small]
  exact advance_inRound forgotten served counted

theorem scan_inRound
    (consistent : Consistent state)
    (pending : Pending selected rset i state)
    (served :
      done ++ readyFrom selected.clients rset i = readyClients selected rset)
    (counted :
      state.loop.nready = (readyFrom selected.clients rset i).length) :
    InRound selected rset done (scan state i) := by
  rw [scan]
  split
  case isFalse behind =>
    have nobody : readyFrom selected.clients rset i = [] := by
      apply hitsFrom_eq_nil
      intro j after _
      apply pending.behind
      omega
    rw [nobody, List.append_nil] at served
    exact served
  case isTrue before =>
    have bound := consistent.maxi
    have inside : i < state.clients.length := by
      rw [consistent.size]
      omega
    have insideSelected : i < selected.clients.length := by
      rw [← pending.size]
      exact inside
    have next : Pending selected rset (i + 1) state := by
      refine ⟨?_, pending.behind, pending.size⟩
      intro j after
      exact pending.same j (by omega)
    have here := pending.same i (Nat.le_refl i)
    have skipped (silent : readyAt state.clients state.rset i = none) :
        InRound selected rset done (state.enter (.scanning (i + 1))) := by
      rw [here] at silent
      rw [readyFrom, hitsFrom_of_none insideSelected silent] at served counted
      exact ⟨⟨next.same, next.behind, next.size⟩, served, counted⟩
    rw [List.getElem?_eq_getElem inside]
    cases slot : state.clients[i] with
    | none =>
        apply skipped
        apply readyAt_of_not_mem
        intro fd found
        rw [List.getElem?_eq_getElem inside, slot] at found
        cases found
    | some sockfd =>
        have found : state.clients[i]? = some (some sockfd) := by
          rw [List.getElem?_eq_getElem inside, slot]
        have small := consistent.client_lt (List.mem_of_getElem? found)
        dsimp only
        rw [fdIsset, if_pos small]
        by_cases member : sockfd ∈ state.rset
        · rw [decide_eq_true member]
          have ready := readyAt_eq_some_iff.mpr ⟨found, member⟩
          rw [here] at ready
          rw [readyFrom, hitsFrom_of_some insideSelected ready] at served counted
          exact ⟨⟨next.same, next.behind, next.size⟩, served, counted⟩
        · rw [decide_eq_false member]
          apply skipped
          apply readyAt_of_not_mem
          intro fd other
          rw [found] at other
          cases other
          exact member

theorem afterSelect_inRound
    (consistent : Consistent selected) (tracked : Tracked selected)
    (within : rset ⊆ selected.allset)
    (top : selected.loop.phase = .top) :
    InRound selected rset [] (afterSelect selected rset.card rset) := by
  have listening : selected.listenfd < fdSetsize :=
    consistent.inside _ ((consistent.matching.allset _).mpr (.inl rfl))
  have counted := card_eq consistent within
  have pending (loop : Loop) :
      Pending selected rset 0
        { selected with loop := loop, rset := rset } := by
    refine ⟨fun _ _ => rfl, ?_, rfl⟩
    intro j behind
    apply readyAt_of_not_mem
    intro fd found _
    have before := tracked j fd found
    have after : selected.maxi < j :=
      behind
    omega
  rw [afterSelect]
  dsimp only
  split
  case isTrue nothing =>
    have nobody : readyClients selected rset = [] := by
      apply List.eq_nil_of_length_eq_zero
      omega
    rw [InRound]
    dsimp only
    rw [top]
    exact nobody.symm
  case isFalse =>
    rw [fdIsset, if_pos listening]
    by_cases member : selected.listenfd ∈ rset
    · rw [if_pos member] at counted
      rw [decide_eq_true member]
      refine ⟨rfl, pending _, ?_, rfl, rfl⟩
      show (rset.card : Int) = _
      omega
    · rw [if_neg member] at counted
      rw [decide_eq_false member]
      refine ⟨pending _, rfl, ?_⟩
      show (rset.card : Int) = (readyClients selected rset).length
      omega

/-- The new connection is not one of those that were ready. -/
theorem afterAccept_inRound
    (consistent : Consistent selected) (within : rset ⊆ selected.allset)
    {connfd : Nat} (new : ¬ state.loop.sockets.IsOpen connfd)
    (free : none ∈ state.clients) (small : connfd < fdSetsize)
    (pending : Pending selected rset 0 state)
    (counted :
      state.loop.nready = (readyClients selected rset).length + 1)
    (unchanged : state.loop.sockets = selected.loop.sockets)
    (same : state.rset = rset) :
    InRound selected rset [] (afterAccept state connfd) := by
  have slot := getElem?_freeSlot (freeSlot_lt_iff.mpr free)
  have absent : connfd ∉ rset := by
    intro member
    apply new
    rw [unchanged]
    exact consistent.isOpen connfd (within member)
  let sockets :=
    if freeSlot state.clients = fdSetsize then
      (state.loop.sockets.accept connfd).close connfd
    else
      state.loop.sockets.accept connfd
  let accepted : State :=
    { state with
      loop := { state.loop with sockets := sockets }
      clients := state.clients.set (freeSlot state.clients) (some connfd)
      allset := insert connfd state.allset
      marked := connfd :: state.marked
      maxfd := if connfd > state.maxfd then connfd else state.maxfd
      maxi :=
        if (freeSlot state.clients : Int) > state.maxi then
          freeSlot state.clients
        else
          state.maxi }
  have stored : Pending selected rset 0 accepted := by
    refine ⟨?_, ?_, List.length_set.trans pending.size⟩
    · intro j _
      rw [← pending.same j (Nat.zero_le j)]
      show readyAt (state.clients.set _ _) state.rset j = _
      by_cases taken : freeSlot state.clients = j
      · subst taken
        have before :
            readyAt state.clients state.rset (freeSlot state.clients) =
              none := by
          apply readyAt_of_not_mem
          intro fd found
          rw [slot] at found
          cases found
        rw [before]
        apply readyAt_of_not_mem
        intro fd found
        rw [List.getElem?_set_self (List.getElem?_eq_some_iff.mp slot).1]
          at found
        cases found
        rw [same]
        exact absent
      · rw [readyAt, readyAt, List.getElem?_set_ne taken]
    · intro j behind
      apply pending.behind
      have after :
          (if (freeSlot state.clients : Int) > state.maxi then
              (freeSlot state.clients : Int)
            else
              state.maxi) < j :=
        behind
      split at after <;> omega
  rw [afterAccept, fdSet, if_pos small]
  exact advance_inRound stored rfl counted

end Steps

/-! ## Rounds -/

/-- `select` is not called. -/
def WithinRound : Event → Prop
  | .ready _ _ => False
  | _ => True

section Rounds

variable {selected : State} {rset : Finset Nat}

/-- Every step adds the reads that it does. -/
theorem next_inRound
    {state result : State} {event : Event} {done : List (Nat × Nat)}
    (began : Consistent selected) (subset : rset ⊆ selected.allset)
    (consistent : Consistent state) (available : Available state event)
    (within : WithinRound event)
    (inRound : InRound selected rset done state)
    (stepped : next state event = some result) :
    InRound selected rset (done ++ readBy state event) result := by
  rw [InRound] at inRound
  cases step_of_next stepped with
  | ready nready rset top reported => exact within.elim
  | failed accepting =>
      rw [show state.loop.phase = .accepting from accepting] at inRound
      show InRound selected rset (done ++ []) _
      rw [List.append_nil]
      exact inRound.1
  | accepted connfd accepting new =>
      rw [show state.loop.phase = .accepting from accepting] at inRound
      rcases inRound with ⟨rfl, pending, counted, unchanged, same⟩
      exact
        afterAccept_inRound began subset new available.1 available.2 pending
          counted unchanged same
  | scanned i scanning =>
      rw [show state.loop.phase = .scanning i from scanning] at inRound
      rcases inRound with ⟨pending, served, counted⟩
      show InRound selected rset (done ++ []) _
      rw [List.append_nil]
      exact scan_inRound consistent pending served counted
  | closed outcome i sockfd reading =>
      have phase : state.loop.phase = .reading i sockfd := reading
      have fits := consistent.fits
      rw [phase] at inRound fits
      rcases inRound with ⟨pending, served, counted⟩
      have small := consistent.client_lt (List.mem_of_getElem? fits.2)
      rw [readBy, phase]
      apply closeClient_inRound pending _ counted small
      rw [List.append_assoc]
      exact served
  | echoed bytes i sockfd loop reading echo =>
      have phase : state.loop.phase = .reading i sockfd := reading
      rw [phase] at inRound
      rcases inRound with ⟨pending, served, counted⟩
      rw [readBy, phase]
      rcases Option.map_eq_some_iff.mp echo with ⟨sockets, _, rfl⟩
      apply inWriten_inRound pending _ counted
      · rfl
      · rw [List.append_assoc]
        exact served
  | written outcome i sockfd left loop writing write =>
      rw [show state.loop.phase = .writing i sockfd left from writing]
        at inRound
      rcases inRound with ⟨pending, served, counted⟩
      show InRound selected rset (done ++ []) _
      rw [List.append_nil]
      cases outcome with
      | returned count =>
          rw [Loop.write, Option.ite_none_right_eq_some] at write
          rcases Option.map_eq_some_iff.mp write.2 with ⟨sockets, _, rfl⟩
          apply inWriten_inRound pending served counted
          rfl
      | failed interrupted =>
          cases write
          exact inWriten_inRound pending served counted rfl sockfd _

/-- What is read in a round follows the invariant. -/
theorem run_inRound
    {state final : State} {events : List Event} {done : List (Nat × Nat)}
    (began : Consistent selected) (subset : rset ⊆ selected.allset)
    (consistent : Consistent state)
    (available : Along next Available state events)
    (within : ∀ event ∈ events, WithinRound event)
    (inRound : InRound selected rset done state)
    (ran : run next state events = some final) :
    InRound selected rset (done ++ reads state events) final := by
  induction events generalizing state done with
  | nil =>
      cases ran
      rw [reads, List.append_nil]
      exact inRound
  | cons event rest ih =>
      rw [run_cons_eq_some_iff] at ran
      rcases ran with ⟨middle, stepped, ranRest⟩
      rw [List.forall_mem_cons] at within
      have after :=
        next_inRound began subset consistent available.head within.1 inRound
          stepped
      rw [reads, stepped, ← List.append_assoc]
      exact
        ih (next_consistent consistent available.head stepped)
          (available.tail stepped) within.2 after ranRest

/-- What is accepted in a round was not open when `select` was called. -/
theorem not_isOpen_of_accept
    {state final : State} {events : List Event} {done : List (Nat × Nat)}
    (began : Consistent selected) (subset : rset ⊆ selected.allset)
    (consistent : Consistent state)
    (available : Along next Available state events)
    (within : ∀ event ∈ events, WithinRound event)
    (inRound : InRound selected rset done state)
    (ran : run next state events = some final) {connfd : Nat}
    (accepted : .accept (some connfd) ∈ events) :
    ¬ selected.loop.sockets.IsOpen connfd := by
  induction events generalizing state done with
  | nil => cases accepted
  | cons event rest ih =>
      rw [run_cons_eq_some_iff] at ran
      rcases ran with ⟨middle, stepped, ranRest⟩
      rw [List.forall_mem_cons] at within
      rcases List.mem_cons.mp accepted with rfl | later
      · cases step_of_next stepped with
        | accepted _ accepting new =>
            rw [InRound,
              show state.loop.phase = .accepting from accepting] at inRound
            rcases inRound with ⟨_, _, _, unchanged, _⟩
            rw [← unchanged]
            exact new
      · exact
          ih (next_consistent consistent available.head stepped)
            (available.tail stepped) within.2
            (next_inRound began subset consistent available.head within.1
              inRound stepped)
            ranRest later

end Rounds

/-- The variables that belong together, and no client behind `maxi`. -/
theorem consistent_of_run
    {listenfd : Nat} (small : listenfd < fdSetsize)
    {inherited : Nat → Bool} {buf : List (BitVec 8)}
    {events rest : List Event} {state : State}
    (ran : run next (start listenfd inherited buf) events = some state)
    (available :
      Along next Available (start listenfd inherited buf) (events ++ rest)) :
    Consistent state ∧ Tracked state := by
  have preserved :
      ∀ before event after,
        Consistent before ∧ Tracked before → Available before event →
          next before event = some after →
            Consistent after ∧ Tracked after := by
    intro before event after kept possible stepped
    exact
      ⟨next_consistent kept.1 possible stepped,
        next_tracked kept.1 possible kept.2 stepped⟩
  have initial :=
    And.intro (start_consistent small inherited buf)
      (start_tracked listenfd inherited buf)
  exact available.throughout preserved initial events rest state rfl ran

/--
In every state in which `select` is called, for every set that it can leave:
if a slot and a place in the set are left for every connection, then at every
point of the round only clients whose descriptors are in the set have been
read from, each of them at most once and in the order of their slots; when
`main` is about to call `select` again, all of them have been.  The descriptor
that is accepted in the round is not read from.
-/
theorem round_reads_ready
    (listenfd : Nat) (small : listenfd < fdSetsize)
    (inherited : Nat → Bool) (buf : List (BitVec 8))
    (events : List Event) (selected : State)
    (reached :
      run next (start listenfd inherited buf) events = some selected)
    (rset : Finset Nat) (round : List Event)
    (within : ∀ event ∈ round, WithinRound event) (final : State)
    (ran :
      run next selected (.ready rset.card rset :: round) = some final)
    (available :
      Along next Available (start listenfd inherited buf)
        (events ++ .ready rset.card rset :: round)) :
    final.loop.phase ≠ .undefined ∧
      reads selected (.ready rset.card rset :: round) <+:
        readyClients selected rset ∧
      (final.loop.phase = .top →
        reads selected (.ready rset.card rset :: round) =
          readyClients selected rset) ∧
      ((readyClients selected rset).Pairwise fun first second =>
        first.1 < second.1) ∧
      ∀ connfd, .accept (some connfd) ∈ round →
        ∀ i,
          (i, connfd) ∉ reads selected (.ready rset.card rset :: round) := by
  rcases consistent_of_run small reached available with
    ⟨consistent, tracked⟩
  have availableRound := available.drop reached
  rw [run_cons_eq_some_iff] at ran
  rcases ran with ⟨middle, stepped, ranRound⟩
  have consistentMiddle :=
    next_consistent consistent availableRound.head stepped
  have availableRest := availableRound.tail stepped
  have opened : rset ⊆ selected.allset ∧ InRound selected rset [] middle := by
    cases step_of_next stepped with
    | ready _ _ top reported =>
        have subset : rset ⊆ selected.allset := of_decide_eq_true reported
        exact
          ⟨subset, afterSelect_inRound consistent tracked subset top⟩
  rcases opened with ⟨subset, opened⟩
  have inRound :=
    run_inRound consistent subset consistentMiddle availableRest within opened
      ranRound
  have all :
      reads selected (.ready rset.card rset :: round) =
        reads middle round := by
    rw [reads, stepped]
    rfl
  rw [all]
  rw [List.nil_append] at inRound
  refine ⟨?_, inRound.isPrefix, ?_, hitsFrom_pairwise, ?_⟩
  · intro undefined
    rw [InRound, undefined] at inRound
    exact inRound
  · intro top
    rw [InRound, top] at inRound
    exact inRound
  · intro connfd accepted i member
    apply
      not_isOpen_of_accept consistent subset consistentMiddle availableRest
        within opened ranRound accepted
    apply consistent.isOpen
    apply subset
    exact (mem_readyClients_iff.mp (inRound.isPrefix.mem member)).2

instance (state : State) : ∀ event, Decidable (Available state event)
  | .accept (some connfd) =>
      inferInstanceAs (Decidable (none ∈ state.clients ∧ connfd < fdSetsize))
  | .accept none => isTrue trivial
  | .ready _ _ => isTrue trivial
  | .scan => isTrue trivial
  | .read _ => isTrue trivial
  | .write _ => isTrue trivial

/-- A client is connected. -/
def connected : Option State :=
  run next (start 3 (fun fd => decide (fd = 1)) [])
    [.ready 1 {3}, .accept (some 0)]

/-- Another client is accepted before the first one is read from. -/
def anotherClient : List Event :=
  [.accept (some 4), .scan, .read (.returned [])]

theorem round_reads_ready_anotherClient :
    ∃ selected final,
      connected = some selected ∧
        run next selected (.ready ({3, 0} : Finset Nat).card {3, 0} ::
          anotherClient) = some final ∧
        final.loop.phase = .top ∧
        reads selected (.ready ({3, 0} : Finset Nat).card {3, 0} ::
          anotherClient) = readyClients selected {3, 0} := by
  have opened : connected.isSome := by
    decide +kernel
  rcases Option.isSome_iff_exists.mp opened with ⟨selected, reached⟩
  have after :
      (connected.bind fun selected =>
          (run next selected (.ready ({3, 0} : Finset Nat).card {3, 0} ::
            anotherClient)).map fun final => final.loop.phase) =
        some .top := by
    decide +kernel
  rw [reached, Option.bind_some] at after
  rcases Option.map_eq_some_iff.mp after with ⟨final, ran, top⟩
  have within : ∀ event ∈ anotherClient, WithinRound event := by
    simp [anotherClient, WithinRound]
  have round :=
    round_reads_ready 3 (by decide) _ [] _ selected reached {3, 0}
      anotherClient within final ran (by decide +kernel)
  exact ⟨selected, final, reached, ran, top, round.2.2.1 top⟩

end CodingExamples.SelectEchoServer.Round
