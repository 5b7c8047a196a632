import CodingExamples.PollEchoServer.Server

/-!
# Slots of the `poll` server

Every slot holds an open descriptor or none, and no two slots the same one.
Descriptors are smaller than `OPEN_MAX`, so the descriptor of a new connection
and those of the slots cannot all be different when no slot is free: the
server never runs out of slots, and the index after the search for one is
inside the array.
-/

namespace CodingExamples.PollEchoServer.Slots

open CodingExamples.EchoServer.Multiplexing
open CodingExamples.EchoServer.Unp
open CodingExamples.Library.Execution
open CodingExamples.Library.SlotTable
open CodingExamples.Library.SocketTable
open CodingExamples.PollEchoServer.Server

/-- A descriptor that `accept` returns is smaller than `OPEN_MAX`. -/
def AcceptsBelow (state : State) : Event → Prop
  | .accept (some connfd) => connfd < state.openMax
  | _ => True

instance : ∀ state event, Decidable (AcceptsBelow state event)
  | state, .accept (some connfd) =>
      inferInstanceAs (Decidable (connfd < state.openMax))
  | _, .accept none => isTrue trivial
  | _, .ready _ _ => isTrue trivial
  | _, .scan => isTrue trivial
  | _, .read _ => isTrue trivial
  | _, .write _ => isTrue trivial

/-! ## The arrays -/

theorem descriptors_setFd
    (clients : List PollFd) (i : Nat) (fd : Option Nat) :
    descriptors (setFd clients i fd) = (descriptors clients).set i fd := by
  apply List.ext_getElem?
  intro j
  rw [descriptors, setFd, List.getElem?_map, descriptors]
  by_cases equal : i = j
  · subst equal
    rw [List.getElem?_modify_eq, List.getElem?_set_self',
      List.getElem?_map]
    cases clients[i]? <;> rfl
  · rw [List.getElem?_modify_ne _ _ equal, List.getElem?_set_ne equal,
      List.getElem?_map]

/-- Inside the array, `events` can be stored and changes no descriptor. -/
theorem exists_setEvents
    {clients : List PollFd} {i : Nat} (inside : i < clients.length) :
    ∃ result, setEvents clients i = some result ∧
      descriptors result = descriptors clients := by
  rw [setEvents, if_pos inside]
  refine ⟨_, rfl, ?_⟩
  apply List.ext_getElem?
  intro j
  rw [descriptors, List.getElem?_map, descriptors, List.getElem?_map]
  by_cases equal : i = j
  · subst equal
    rw [List.getElem?_modify_eq]
    cases clients[i]? <;> rfl
  · rw [List.getElem?_modify_ne _ _ equal]

theorem descriptors_storeRevents
    (clients : List PollFd) (revents : List (BitVec 16)) :
    descriptors (storeRevents clients revents) = descriptors clients := by
  induction clients, revents using storeRevents.induct with
  | case1 client clients revents rest ih =>
      rw [storeRevents]
      exact congrArg (client.fd :: ·) ih
  | case2 clients revents finished =>
      rw [storeRevents]
      exact finished

/-! ## The invariant -/

/-- What the slots say about the descriptors. -/
structure Tracks (state : State) : Prop where
  listening : (descriptors state.clients)[0]? = some (some state.listenfd)
  distinct : Distinct (descriptors state.clients)
  isOpen :
    ∀ fd, some fd ∈ descriptors state.clients →
      state.loop.sockets.IsOpen fd
  above :
    ∀ i, state.maxi < i → i < state.openMax →
      (descriptors state.clients)[i]? = some none
  maxi : state.maxi < state.openMax

structure Consistent (state : State) : Prop where
  tracks : Tracks state
  size : (descriptors state.clients).length = state.openMax
  below : ∀ fd, some fd ∈ descriptors state.clients → fd < state.openMax
  fits : state.loop.phase.Fits 1 (descriptors state.clients)

theorem Consistent.length
    {state : State} (consistent : Consistent state) :
    state.clients.length = state.openMax := by
  rw [← consistent.size, descriptors, List.length_map]

/-- Neither the descriptors nor those of the slots changed. -/
theorem Consistent.of_loop
    {state : State} (consistent : Consistent state) (loop : Loop)
    {clients : List PollFd}
    (slots : descriptors clients = descriptors state.clients)
    (fits : loop.phase.Fits 1 (descriptors clients))
    (same : loop.sockets.descriptors = state.loop.sockets.descriptors) :
    Consistent { state with loop := loop, clients := clients } where
  tracks :=
    { listening := by
        show (descriptors clients)[0]? = _
        rw [slots]
        exact consistent.tracks.listening
      distinct := by
        show Distinct (descriptors clients)
        rw [slots]
        exact consistent.tracks.distinct
      isOpen := by
        intro fd member
        show loop.sockets.descriptors fd ≠ none
        rw [same]
        apply consistent.tracks.isOpen
        rwa [← slots]
      above := by
        show
          ∀ i, state.maxi < i → i < state.openMax →
            (descriptors clients)[i]? = some none
        rw [slots]
        exact consistent.tracks.above
      maxi := consistent.tracks.maxi }
  size := by
    show (descriptors clients).length = state.openMax
    rw [slots, consistent.size]
  below := by
    show ∀ fd, some fd ∈ descriptors clients → fd < state.openMax
    rw [slots]
    exact consistent.below
  fits := fits

theorem Consistent.enter
    {state : State} (consistent : Consistent state) {phase : Phase}
    (fits : phase.Fits 1 (descriptors state.clients)) :
    Consistent (state.enter phase) :=
  consistent.of_loop _ rfl fits rfl

/-! ## The steps -/

/-- The slots cannot all be taken by other descriptors below `OPEN_MAX`. -/
theorem Consistent.exists_free
    {state : State} (consistent : Consistent state) {connfd : Nat}
    (new : ¬ state.loop.sockets.IsOpen connfd)
    (below : connfd < state.openMax) :
    none ∈ descriptors state.clients := by
  apply none_mem_of_distinct consistent.tracks.distinct
  · rw [consistent.size]
    exact consistent.below
  · rw [consistent.size]
    exact below
  · intro member
    exact new (consistent.tracks.isOpen connfd member)

theorem afterPoll_consistent
    {state : State} (consistent : Consistent state) (nready : Int)
    (revents : List (BitVec 16)) :
    Consistent (afterPoll state nready revents) := by
  have slots := descriptors_storeRevents state.clients revents
  have updated :
      Consistent
        { state with
          loop := { state.loop with nready := nready }
          clients := storeRevents state.clients revents } := by
    apply consistent.of_loop _ slots
    · show state.loop.phase.Fits 1 _
      rw [slots]
      exact consistent.fits
    · rfl
  have inside : state.maxi + 1 ≤ state.clients.length := by
    rw [consistent.length]
    exact consistent.tracks.maxi
  rw [afterPoll, if_pos inside]
  dsimp only
  split
  case isTrue => exact updated
  case isFalse =>
    have listening := updated.tracks.listening
    rw [descriptors, List.getElem?_map, Option.map_eq_some_iff] at listening
    rcases listening with ⟨client, found, -⟩
    dsimp only at found
    rw [found]
    dsimp only
    split
    · exact updated.enter trivial
    · exact updated.enter (Nat.le_refl 1)

theorem scan_consistent
    {state : State} (consistent : Consistent state) {i : Nat}
    (client : 1 ≤ i) : Consistent (scan state i) := by
  rw [scan]
  split
  case isFalse => exact consistent.enter trivial
  case isTrue before =>
    have inside : i < state.clients.length := by
      rw [consistent.length]
      exact Nat.lt_of_le_of_lt before consistent.tracks.maxi
    rw [List.getElem?_eq_getElem inside]
    dsimp only
    cases found : state.clients[i].fd with
    | none => exact consistent.enter (Nat.le_succ_of_le client)
    | some sockfd =>
        have present :
            (descriptors state.clients)[i]? = some (some sockfd) := by
          rw [descriptors, List.getElem?_map, List.getElem?_eq_getElem inside]
          exact congrArg some found
        dsimp only
        split
        · exact consistent.enter ⟨client, present⟩
        · exact consistent.enter (Nat.le_succ_of_le client)

theorem closeClient_consistent
    {state : State} (consistent : Consistent state) {i sockfd : Nat}
    (reading : state.loop.phase = .reading i sockfd) :
    Consistent (closeClient state i sockfd) := by
  have fits := consistent.fits
  rw [reading] at fits
  rcases fits with ⟨client, present⟩
  have slots := descriptors_setFd state.clients i none
  have members {fd : Nat} :
      some fd ∈ descriptors (setFd state.clients i none) ↔
        fd ≠ sockfd ∧ some fd ∈ descriptors state.clients := by
    rw [slots]
    exact mem_set_none_iff consistent.tracks.distinct present
  rw [closeClient]
  constructor
  case tracks =>
    constructor
    case listening =>
      dsimp only
      rw [slots, List.getElem?_set_ne (Nat.ne_of_gt client)]
      exact consistent.tracks.listening
    case distinct =>
      dsimp only
      rw [slots]
      apply consistent.tracks.distinct.set
      intro value impossible
      cases impossible
    case isOpen =>
      intro fd member
      rcases members.mp member with ⟨different, old⟩
      exact (consistent.tracks.isOpen fd old).close different
    case above =>
      intro j behind inside
      have before := consistent.tracks.above j behind inside
      dsimp only
      rw [slots]
      by_cases equal : i = j
      · subst equal
        rw [present] at before
        cases before
      · rw [List.getElem?_set_ne equal]
        exact before
    case maxi => exact consistent.tracks.maxi
  case size =>
    dsimp only
    rw [slots, List.length_set, consistent.size]
  case below =>
    intro fd member
    exact consistent.below fd (members.mp member).2
  case fits =>
    exact Loop.advance_fits _ _ (Nat.le_succ_of_le client)

theorem afterAccept_consistent
    {state : State} (consistent : Consistent state) {connfd : Nat}
    (new : ¬ state.loop.sockets.IsOpen connfd)
    (below : connfd < state.openMax) :
    Consistent (afterAccept state connfd) := by
  have free := consistent.exists_free new below
  have inside := freeSlot_lt_iff.mpr free
  have slot := getElem?_freeSlot inside
  rw [consistent.size] at inside
  have absent : some connfd ∉ descriptors state.clients := by
    intro member
    exact new (consistent.tracks.isOpen connfd member)
  rw [afterAccept]
  dsimp only
  generalize freeSlot (descriptors state.clients) = i at inside slot ⊢
  rw [if_neg (Nat.ne_of_lt inside)]
  have room : i < (setFd state.clients i (some connfd)).length := by
    rw [setFd, List.length_modify, consistent.length]
    exact inside
  rcases exists_setEvents room with ⟨clients, stored, slots⟩
  rw [stored]
  rw [descriptors_setFd] at slots
  dsimp only
  have members {fd : Nat} :
      some fd ∈ descriptors clients ↔
        fd = connfd ∨ some fd ∈ descriptors state.clients := by
    rw [slots]
    exact mem_set_some_iff slot
  constructor
  case tracks =>
    constructor
    case listening =>
      dsimp only
      rw [slots, List.getElem?_set_ne]
      · exact consistent.tracks.listening
      · rintro rfl
        rw [consistent.tracks.listening] at slot
        cases slot
    case distinct =>
      dsimp only
      rw [slots]
      apply consistent.tracks.distinct.set
      rintro value ⟨⟩
      exact absent
    case isOpen =>
      intro fd member
      rcases members.mp member with rfl | old
      · exact Sockets.accept_isOpen_self _ _
      · exact (consistent.tracks.isOpen fd old).accept connfd
    case above =>
      intro j behind within
      dsimp only at behind ⊢
      have apart : i ≠ j ∧ state.maxi < j := by
        split at behind <;> omega
      rw [slots, List.getElem?_set_ne apart.1]
      exact consistent.tracks.above j apart.2 within
    case maxi =>
      have before := consistent.tracks.maxi
      dsimp only
      split
      · exact inside
      · exact before
  case size =>
    dsimp only
    rw [slots, List.length_set, consistent.size]
  case below =>
    intro fd member
    rcases members.mp member with rfl | old
    · exact below
    · exact consistent.below fd old
  case fits => exact Loop.advance_fits _ _ (Nat.le_refl 1)

section Start

variable {listenfd fd count : Nat}

/-- At the start, only the first slot is used. -/
theorem descriptors_start
    (inherited : Nat → Bool) (buf : List (BitVec 8)) (first : PollFd)
    (rest : List PollFd) :
    descriptors (start listenfd inherited buf (first :: rest)).clients =
      some listenfd :: List.replicate rest.length none := by
  show some listenfd :: (rest.map _).map _ = _
  rw [List.map_map]
  exact congrArg (some listenfd :: ·) List.map_const'

theorem eq_of_mem_start
    (member : some fd ∈ some listenfd :: List.replicate count none) :
    fd = listenfd := by
  rcases List.mem_cons.mp member with equal | impossible
  · exact Option.some.inj equal
  · cases List.eq_of_mem_replicate impossible

theorem eq_zero_of_getElem?_start
    {i : Nat}
    (found :
      (some listenfd :: List.replicate count none)[i]? = some (some fd)) :
    i = 0 := by
  cases i with
  | zero => rfl
  | succ i =>
      rw [List.getElem?_cons_succ] at found
      cases List.eq_of_mem_replicate (List.mem_of_getElem? found)

end Start

theorem start_consistent
    {listenfd : Nat} {clients : List PollFd}
    (below : listenfd < clients.length) (inherited : Nat → Bool)
    (buf : List (BitVec 8)) :
    Consistent (start listenfd inherited buf clients) := by
  cases clients with
  | nil => exact absurd below (Nat.not_lt_zero listenfd)
  | cons first rest =>
      have slots :
          descriptors
              (start listenfd inherited buf (first :: rest)).clients =
            some listenfd :: List.replicate rest.length none :=
        descriptors_start inherited buf first rest
      constructor
      case tracks =>
        constructor
        case listening =>
          rw [slots]
          rfl
        case distinct =>
          rw [slots]
          intro i j value present again
          rw [eq_zero_of_getElem?_start present,
            eq_zero_of_getElem?_start again]
        case isOpen =>
          intro fd member
          rw [slots] at member
          rw [eq_of_mem_start member]
          exact Loop.start_isOpen listenfd inherited buf
        case above =>
          intro i after inside
          have index : i - 1 + 1 = i := Nat.succ_pred_eq_of_pos after
          have within : i - 1 < rest.length := by
            have : i < rest.length + 1 := inside
            omega
          rw [slots, ← index, List.getElem?_cons_succ,
            List.getElem?_replicate_of_lt within]
        case maxi => exact Nat.succ_pos rest.length
      case size =>
        rw [slots, List.length_cons, List.length_replicate]
        rfl
      case below =>
        intro fd member
        rw [slots] at member
        rw [eq_of_mem_start member]
        exact below
      case fits => exact trivial

theorem next_consistent
    {state result : State} {event : Event}
    (consistent : Consistent state) (accepts : AcceptsBelow state event)
    (stepped : next state event = some result) :
    Consistent result := by
  have fits := consistent.fits
  cases step_of_next stepped with
  | ready nready revents top reported =>
      exact afterPoll_consistent consistent nready revents
  | failed accepting => exact consistent.enter trivial
  | accepted connfd accepting new =>
      exact afterAccept_consistent consistent new accepts
  | scanned i scanning =>
      rw [← State.handlers_loop, scanning] at fits
      exact scan_consistent consistent fits
  | closed outcome i sockfd reading =>
      exact closeClient_consistent consistent reading
  | echoed bytes i sockfd loop reading echo =>
      rw [← State.handlers_loop, reading] at fits
      have fits := Loop.echo_fits (descriptors state.clients) fits.1 echo
      exact consistent.of_loop loop rfl fits.1 fits.2
  | written outcome i sockfd left loop writing write =>
      rw [← State.handlers_loop, writing] at fits
      have fits := Loop.write_fits (descriptors state.clients) fits write
      exact consistent.of_loop loop rfl fits.1 fits.2

/-! ## Runs -/

/-- The slots are in order, and all accesses to the array inside of it. -/
structure Sound (state : State) : Prop where
  tracks : Tracks state
  size : state.clients.length = state.openMax
  defined : state.loop.phase ≠ .undefined
  /-- Whatever `accept` returns next, the search for a slot succeeds. -/
  found :
    ∀ connfd result, connfd < state.openMax →
      next state (.accept (some connfd)) = some result →
        freeSlot (descriptors state.clients) < state.openMax ∧
          result.loop.phase ≠ .undefined

theorem Consistent.sound
    {state : State} (consistent : Consistent state) : Sound state where
  tracks := consistent.tracks
  size := consistent.length
  defined := consistent.fits.defined
  found := by
    intro connfd result below stepped
    cases step_of_next stepped with
    | accepted connfd accepting new =>
        constructor
        · rw [← consistent.size, freeSlot_lt_iff]
          exact consistent.exists_free new below
        · exact (afterAccept_consistent consistent new below).fits.defined

/--
In every run in which `accept` returns descriptors below `OPEN_MAX`; the
listening socket has such a descriptor, too.
-/
theorem reachable_sound
    (listenfd : Nat) (inherited : Nat → Bool) (buf : List (BitVec 8))
    (clients : List PollFd) (below : listenfd < clients.length)
    (events : List Event) (final : State)
    (ran :
      run next (start listenfd inherited buf clients) events = some final)
    (accepts :
      Along next AcceptsBelow (start listenfd inherited buf clients)
        events) :
    Sound final := by
  have preserved :
      ∀ state event result,
        Consistent state → AcceptsBelow state event →
          next state event = some result → Consistent result :=
    fun _ _ _ => next_consistent
  have throughout :=
    accepts.throughout preserved (start_consistent below inherited buf)
  exact
    (throughout events [] final (List.append_nil events).symm ran).sound

/-- A client that leaves, and another one that gets its slot. -/
def twoClients : List Event :=
  [.ready 1 [64], .accept (some 4), .ready 1 [0, 64], .scan,
    .read (.returned [104, 105]), .write (.returned 1),
    .write (.failed true), .write (.returned 1), .ready 2 [64, 64],
    .accept (some 0), .scan, .read (.returned []), .ready 1 [64, 0, 0],
    .accept (some 4)]

theorem reachable_sound_twoClients :
    ∃ final,
      run next
          (start 3 (fun fd => decide (fd = 1)) []
            (List.replicate 5 ⟨some 7, 0, 255⟩))
          twoClients =
        some final ∧
      descriptors final.clients = [some 3, some 4, some 0, none, none] ∧
        Sound final := by
  have ran :
      (run next
          (start 3 (fun fd => decide (fd = 1)) []
            (List.replicate 5 ⟨some 7, 0, 255⟩))
          twoClients).map (fun state => descriptors state.clients) =
        some [some 3, some 4, some 0, none, none] := by
    decide +kernel
  rcases Option.map_eq_some_iff.mp ran with ⟨final, ran, slots⟩
  refine ⟨final, ran, slots, ?_⟩
  exact
    reachable_sound 3 _ [] _ (by decide) twoClients final ran
      (by decide +kernel)

end CodingExamples.PollEchoServer.Slots
