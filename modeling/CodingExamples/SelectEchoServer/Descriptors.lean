import CodingExamples.SelectEchoServer.Server

/-!
# Descriptors of the `select` server

`main` closes a connection for which it has no slot, and then goes on as if
it had stored it: the closed descriptor is added to the set, and `maxi`
becomes `FD_SETSIZE`.  It does not compare a new descriptor with `FD_SETSIZE`
either.  As long as neither can happen, the set, the array, `maxfd` and `maxi`
stay consistent with the open descriptors.  A run in which one of them happens
leaves a bound or the set.

The second comes first: with a client in every slot and the listening socket,
all descriptors below `FD_SETSIZE` are in use.
-/

namespace CodingExamples.SelectEchoServer.Descriptors

open CodingExamples.EchoServer.Multiplexing
open CodingExamples.EchoServer.Unp
open CodingExamples.Library.Execution
open CodingExamples.Library.SlotTable
open CodingExamples.Library.SocketTable
open CodingExamples.SelectEchoServer.Server

/-! ## What should hold -/

/-- The set holds the descriptors in use, and `maxfd` bounds them. -/
structure Matches (state : State) : Prop where
  allset :
    ∀ fd, fd ∈ state.allset ↔
      fd = state.listenfd ∨ some fd ∈ state.clients
  maxfd : ∀ fd ∈ state.allset, fd ≤ state.maxfd

/-- No bound is left, and the variables match at the top of the loop. -/
structure Safe (state : State) : Prop where
  defined : state.loop.phase ≠ .undefined
  marked : ∀ fd ∈ state.marked, fd < fdSetsize
  maxi : state.maxi < fdSetsize
  top : state.loop.phase = .top → Matches state

/-- A connection that is refused changes nothing. -/
def KeepsRefused (state : State) : Event → Prop
  | .accept (some connfd) =>
      none ∉ state.clients →
        ∀ result, next state (.accept (some connfd)) = some result →
          result.clients = state.clients ∧ result.allset = state.allset ∧
            result.maxfd = state.maxfd ∧ result.maxi = state.maxi
  | _ => True

/--
There are a slot and a place in the set for a new connection.  In a run that
has stayed within the bounds, the place alone is enough.
-/
def Available (state : State) : Event → Prop
  | .accept (some connfd) => none ∈ state.clients ∧ connfd < fdSetsize
  | _ => True

/-! ## The invariant -/

/-- The variables and the open descriptors belong together. -/
structure Consistent (state : State) : Prop where
  matching : Matches state
  size : state.clients.length = fdSetsize
  distinct : Distinct state.clients
  separate : some state.listenfd ∉ state.clients
  isOpen : ∀ fd ∈ state.allset, state.loop.sockets.IsOpen fd
  marked : ∀ fd ∈ state.marked, fd < fdSetsize
  inside : ∀ fd ∈ state.allset, fd < fdSetsize
  maxi : state.maxi < fdSetsize
  fits : state.loop.phase.Fits 0 state.clients

theorem Consistent.safe {state : State} (consistent : Consistent state) :
    Safe state where
  defined := consistent.fits.defined
  marked := consistent.marked
  maxi := consistent.maxi
  top := fun _ => consistent.matching

theorem Consistent.client_lt
    {state : State} (consistent : Consistent state) {fd : Nat}
    (client : some fd ∈ state.clients) : fd < fdSetsize :=
  consistent.inside fd ((consistent.matching.allset fd).mpr (.inr client))

/-- The loop's variables changed, but no descriptor. -/
theorem Consistent.of_loop
    {state : State} (consistent : Consistent state) (loop : Loop)
    (fits : loop.phase.Fits 0 state.clients)
    (same : loop.sockets.descriptors = state.loop.sockets.descriptors) :
    Consistent { state with loop := loop } where
  matching := ⟨consistent.matching.allset, consistent.matching.maxfd⟩
  size := consistent.size
  distinct := consistent.distinct
  separate := consistent.separate
  isOpen := by
    intro fd member
    show loop.sockets.descriptors fd ≠ none
    rw [same]
    exact consistent.isOpen fd member
  marked := consistent.marked
  inside := consistent.inside
  maxi := consistent.maxi
  fits := fits

theorem Consistent.enter
    {state : State} (consistent : Consistent state) {phase : Phase}
    (fits : phase.Fits 0 state.clients) : Consistent (state.enter phase) :=
  consistent.of_loop _ fits rfl

theorem Consistent.of_rset
    {state : State} (consistent : Consistent state) (rset : Finset Nat) :
    Consistent { state with rset := rset } where
  matching := ⟨consistent.matching.allset, consistent.matching.maxfd⟩
  size := consistent.size
  distinct := consistent.distinct
  separate := consistent.separate
  isOpen := consistent.isOpen
  marked := consistent.marked
  inside := consistent.inside
  maxi := consistent.maxi
  fits := consistent.fits

/-! ## The steps -/

theorem start_consistent
    {listenfd : Nat} (small : listenfd < fdSetsize)
    (inherited : Nat → Bool) (buf : List (BitVec 8)) :
    Consistent (start listenfd inherited buf) := by
  have free (fd : Nat) : some fd ∉ List.replicate fdSetsize none := by
    intro member
    cases List.eq_of_mem_replicate member
  rw [start, fdSet, if_pos small]
  constructor
  case matching =>
    constructor
    case allset =>
      intro fd
      show fd ∈ insert listenfd ∅ ↔
        fd = listenfd ∨ some fd ∈ List.replicate fdSetsize none
      rw [Finset.mem_insert]
      constructor
      · rintro (equal | impossible)
        · exact .inl equal
        · exact absurd impossible (Finset.notMem_empty fd)
      · rintro (equal | impossible)
        · exact .inl equal
        · exact absurd impossible (free fd)
    case maxfd =>
      intro fd member
      rw [Finset.mem_insert] at member
      rcases member with equal | impossible
      · exact Nat.le_of_eq equal
      · exact absurd impossible (Finset.notMem_empty fd)
  case size => exact List.length_replicate
  case distinct =>
    intro i j value present
    exact absurd (List.mem_of_getElem? present) (free value)
  case separate => exact free listenfd
  case isOpen =>
    intro fd member
    rw [Finset.mem_insert] at member
    rcases member with rfl | impossible
    · exact Loop.start_isOpen fd inherited buf
    · exact absurd impossible (Finset.notMem_empty fd)
  case marked =>
    intro fd member
    rw [List.mem_singleton.mp member]
    exact small
  case inside =>
    intro fd member
    rw [Finset.mem_insert] at member
    rcases member with rfl | impossible
    · exact small
    · exact absurd impossible (Finset.notMem_empty fd)
  case maxi =>
    show (-1 : Int) < fdSetsize
    omega
  case fits => exact trivial

theorem afterSelect_consistent
    {state : State} (consistent : Consistent state)
    (nready : Int) (rset : Finset Nat) :
    Consistent (afterSelect state nready rset) := by
  have updated :
      Consistent
        { state with
          loop := { state.loop with nready := nready }
          rset := rset } := by
    apply (consistent.of_rset rset).of_loop
    · exact consistent.fits
    · rfl
  have listening : state.listenfd < fdSetsize :=
    consistent.inside _ ((consistent.matching.allset _).mpr (.inl rfl))
  rw [afterSelect]
  dsimp only
  rw [fdIsset, if_pos listening]
  split
  case isTrue => exact updated
  case isFalse =>
    split
    case h_1 impossible => cases impossible
    case h_2 => exact updated.enter trivial
    case h_3 => exact updated.enter (Nat.zero_le _)

theorem scan_consistent
    {state : State} (consistent : Consistent state) (i : Nat) :
    Consistent (scan state i) := by
  rw [scan]
  split
  case isFalse => exact consistent.enter trivial
  case isTrue before =>
    have bound := consistent.maxi
    have inside : i < state.clients.length := by
      rw [consistent.size]
      omega
    rw [List.getElem?_eq_getElem inside]
    cases found : state.clients[i] with
    | none => exact consistent.enter (Nat.zero_le _)
    | some sockfd =>
        have present : state.clients[i]? = some (some sockfd) := by
          rw [List.getElem?_eq_getElem inside, found]
        have small : sockfd < fdSetsize :=
          consistent.client_lt (List.mem_of_getElem? present)
        dsimp only
        rw [fdIsset, if_pos small]
        split
        case h_1 impossible => cases impossible
        case h_2 => exact consistent.enter ⟨Nat.zero_le i, present⟩
        case h_3 => exact consistent.enter (Nat.zero_le _)

theorem closeClient_consistent
    {state : State} (consistent : Consistent state) {i sockfd : Nat}
    (reading : state.loop.phase = .reading i sockfd) :
    Consistent (closeClient state i sockfd) := by
  have present : state.clients[i]? = some (some sockfd) := by
    have fits := consistent.fits
    rw [reading] at fits
    exact fits.2
  have client : some sockfd ∈ state.clients := List.mem_of_getElem? present
  have members {fd : Nat} :
      some fd ∈ state.clients.set i none ↔
        fd ≠ sockfd ∧ some fd ∈ state.clients :=
    mem_set_none_iff consistent.distinct present
  rw [closeClient, fdClr, if_pos (consistent.client_lt client)]
  constructor
  case matching =>
    constructor
    case allset =>
      intro fd
      show fd ∈ state.allset.erase sockfd ↔
        fd = state.listenfd ∨ some fd ∈ state.clients.set i none
      rw [Finset.mem_erase, consistent.matching.allset, members]
      constructor
      · rintro ⟨different, listening | other⟩
        · exact .inl listening
        · exact .inr ⟨different, other⟩
      · rintro (rfl | ⟨different, other⟩)
        · refine ⟨?_, .inl rfl⟩
          rintro rfl
          exact consistent.separate client
        · exact ⟨different, .inr other⟩
    case maxfd =>
      intro fd member
      exact consistent.matching.maxfd fd (Finset.mem_of_mem_erase member)
  case size => exact List.length_set.trans consistent.size
  case distinct =>
    apply consistent.distinct.set
    intro value impossible
    cases impossible
  case separate =>
    intro member
    exact consistent.separate (members.mp member).2
  case isOpen =>
    intro fd member
    have split := Finset.mem_erase.mp member
    exact (consistent.isOpen fd split.2).close split.1
  case marked => exact consistent.marked
  case inside =>
    intro fd member
    exact consistent.inside fd (Finset.mem_of_mem_erase member)
  case maxi => exact consistent.maxi
  case fits => exact Loop.advance_fits _ _ (Nat.zero_le _)

theorem afterAccept_consistent
    {state : State} (consistent : Consistent state) {connfd : Nat}
    (new : ¬ state.loop.sockets.IsOpen connfd)
    (free : none ∈ state.clients) (small : connfd < fdSetsize) :
    Consistent (afterAccept state connfd) := by
  have inside : freeSlot state.clients < state.clients.length :=
    freeSlot_lt_iff.mpr free
  have notFull : freeSlot state.clients ≠ fdSetsize := by
    rw [← consistent.size]
    exact Nat.ne_of_lt inside
  have absent : connfd ∉ state.allset := by
    intro member
    exact new (consistent.isOpen connfd member)
  have fresh : connfd ≠ state.listenfd ∧ some connfd ∉ state.clients := by
    rw [consistent.matching.allset, not_or] at absent
    exact absent
  have members {fd : Nat} :
      some fd ∈ state.clients.set (freeSlot state.clients) (some connfd) ↔
        fd = connfd ∨ some fd ∈ state.clients :=
    mem_set_some_iff (getElem?_freeSlot inside)
  rw [afterAccept, fdSet, if_pos small]
  dsimp only
  rw [if_neg notFull]
  constructor
  case matching =>
    constructor
    case allset =>
      intro fd
      rw [Finset.mem_insert, consistent.matching.allset, members]
      exact or_left_comm
    case maxfd =>
      intro fd member
      dsimp only at member ⊢
      rcases Finset.mem_insert.mp member with rfl | old
      · split
        · exact Nat.le_refl _
        · omega
      · have before := consistent.matching.maxfd fd old
        split
        · omega
        · exact before
  case size => exact List.length_set.trans consistent.size
  case distinct =>
    apply consistent.distinct.set
    rintro value ⟨⟩
    exact fresh.2
  case separate =>
    intro member
    rcases members.mp member with equal | client
    · exact fresh.1 equal.symm
    · exact consistent.separate client
  case isOpen =>
    intro fd member
    rcases Finset.mem_insert.mp member with rfl | old
    · exact Sockets.accept_isOpen_self _ _
    · exact (consistent.isOpen fd old).accept connfd
  case marked =>
    intro fd member
    rcases List.mem_cons.mp member with rfl | old
    · exact small
    · exact consistent.marked fd old
  case inside =>
    intro fd member
    rcases Finset.mem_insert.mp member with rfl | old
    · exact small
    · exact consistent.inside fd old
  case maxi =>
    have slot : (freeSlot state.clients : Int) < fdSetsize := by
      rw [consistent.size] at inside
      exact Int.ofNat_lt.mpr inside
    have before := consistent.maxi
    dsimp only
    split
    · exact slot
    · exact before
  case fits => exact Loop.advance_fits _ _ (Nat.zero_le _)

/-- The clients cannot have all descriptors that are left in the set. -/
theorem Consistent.exists_free
    {state : State} (consistent : Consistent state) {connfd : Nat}
    (new : ¬ state.loop.sockets.IsOpen connfd) (small : connfd < fdSetsize) :
    none ∈ state.clients := by
  apply none_mem_of_distinct consistent.distinct
  · rw [consistent.size]
    exact fun fd client => consistent.client_lt client
  · rw [consistent.size]
    exact small
  · intro client
    apply new
    apply consistent.isOpen
    exact (consistent.matching.allset connfd).mpr (.inr client)

/-- A connection without a place in the set. -/
theorem lt_of_afterAccept_safe
    {state : State} {connfd : Nat} (safe : Safe (afterAccept state connfd)) :
    connfd < fdSetsize := by
  apply safe.marked connfd
  rw [afterAccept]
  dsimp only
  split <;> exact List.mem_cons_self

theorem next_consistent
    {state result : State} {event : Event}
    (consistent : Consistent state) (available : Available state event)
    (stepped : next state event = some result) :
    Consistent result := by
  cases step_of_next stepped with
  | ready nready rset top reported =>
      exact afterSelect_consistent consistent nready rset
  | failed accepting => exact consistent.enter trivial
  | accepted connfd accepting new =>
      exact
        afterAccept_consistent consistent new available.1 available.2
  | scanned i scanning => exact scan_consistent consistent i
  | closed outcome i sockfd reading =>
      exact closeClient_consistent consistent reading
  | echoed bytes i sockfd loop reading echo =>
      have fits := Loop.echo_fits state.clients (Nat.zero_le i) echo
      exact consistent.of_loop loop fits.1 fits.2
  | written outcome i sockfd left loop writing write =>
      have fits := Loop.write_fits state.clients (Nat.zero_le i) write
      exact consistent.of_loop loop fits.1 fits.2

/-- A step to a state within the bounds found a slot and a place. -/
theorem available_of_safe
    {state result : State} {event : Event}
    (consistent : Consistent state)
    (stepped : next state event = some result) (safe : Safe result) :
    Available state event := by
  cases event with
  | ready nready rset => exact trivial
  | accept answer =>
      cases answer with
      | none => exact trivial
      | some connfd =>
          cases step_of_next stepped with
          | accepted connfd accepting new =>
              have small := lt_of_afterAccept_safe safe
              exact ⟨consistent.exists_free new small, small⟩
  | scan => exact trivial
  | read outcome => exact trivial
  | write outcome => exact trivial

/-! ## Runs -/

/-- A set has no place for the descriptor of the listening socket. -/
theorem listenfd_of_safe
    {listenfd : Nat} {inherited : Nat → Bool} {buf : List (BitVec 8)}
    (safe : Safe (start listenfd inherited buf)) : listenfd < fdSetsize := by
  apply safe.marked listenfd
  rw [start]
  dsimp only
  split <;> exact List.mem_singleton_self listenfd

/--
A run stays within all bounds, with variables that match at the top of the
loop, and refuses connections without other effects, exactly if every
descriptor has a place in the set and every connection finds a slot.
-/
theorem run_bounded_iff
    (listenfd : Nat) (inherited : Nat → Bool) (buf : List (BitVec 8))
    (events : List Event) (final : State)
    (ran : run next (start listenfd inherited buf) events = some final) :
    (Throughout next Safe (start listenfd inherited buf) events ∧
      Along next KeepsRefused (start listenfd inherited buf) events) ↔
    (listenfd < fdSetsize ∧
      Along next Available (start listenfd inherited buf) events) := by
  have preserved :
      ∀ state event result,
        Consistent state → Available state event →
          next state event = some result → Consistent result :=
    fun _ _ _ => next_consistent
  constructor
  · rintro ⟨throughout, -⟩
    have small : listenfd < fdSetsize :=
      listenfd_of_safe (throughout [] events _ rfl rfl)
    refine ⟨small, ?_⟩
    apply
      throughout.along (fun _ _ _ => available_of_safe) preserved
        (start_consistent small inherited buf) ran
  · rintro ⟨small, along⟩
    have throughout :=
      along.throughout preserved (start_consistent small inherited buf)
    constructor
    · intro before after state split ranBefore
      exact (throughout before after state split ranBefore).safe
    · intro before event after state split ranBefore
      have available := along before event after state split ranBefore
      cases event with
      | ready nready rset => exact trivial
      | accept answer =>
          cases answer with
          | none => exact trivial
          | some connfd =>
              intro full
              exact absurd available.1 full
      | scan => exact trivial
      | read outcome => exact trivial
      | write outcome => exact trivial

/-- One client, which sends two bytes and closes its connection. -/
def oneClient : List Event :=
  [.ready 1 {3}, .accept (some 4), .ready 1 {4}, .scan,
    .read (.returned [104, 105]), .write (.failed true),
    .write (.returned 2), .ready 1 {4}, .scan, .read (.returned [])]

theorem run_bounded_iff_oneClient :
    ∃ final,
      run next (start 3 (fun fd => decide (fd < 3)) []) oneClient =
          some final ∧
        ((Throughout next Safe (start 3 (fun fd => decide (fd < 3)) [])
              oneClient ∧
            Along next KeepsRefused
              (start 3 (fun fd => decide (fd < 3)) []) oneClient) ↔
          (3 < fdSetsize ∧
            Along next Available (start 3 (fun fd => decide (fd < 3)) [])
              oneClient)) := by
  have ran :
      (run next (start 3 (fun fd => decide (fd < 3)) [])
        oneClient).isSome := by
    decide +kernel
  rcases Option.isSome_iff_exists.mp ran with ⟨final, ran⟩
  exact ⟨final, ran, run_bounded_iff 3 _ [] oneClient final ran⟩

/-- A process that has inherited the other descriptors below `FD_SETSIZE`. -/
def lateClient : List Event :=
  [.ready 1 {3}, .accept (some 1024)]

theorem exists_descriptor_outside :
    ¬ ∀ (listenfd : Nat) (inherited : Nat → Bool) (buf : List (BitVec 8))
        (events : List Event) (final : State),
        run next (start listenfd inherited buf) events = some final →
          Throughout next Safe (start listenfd inherited buf) events ∧
            Along next KeepsRefused (start listenfd inherited buf)
              events := by
  intro always
  have left :
      (run next (start 3 (fun fd => decide (fd < 1024)) [])
          lateClient).map
          (fun state => (state.loop.phase, state.marked)) =
        some (.undefined, [1024, 3]) := by
    decide +kernel
  rcases Option.map_eq_some_iff.mp left with ⟨final, ran, same⟩
  have safe :=
    (always 3 _ [] lateClient final ran).1 lateClient [] final
      (List.append_nil _).symm ran
  rw [Prod.mk.injEq] at same
  exact safe.defined same.1

end CodingExamples.SelectEchoServer.Descriptors
