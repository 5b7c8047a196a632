import Mathlib

/-!
# The links of the fat-tree

The script numbers the servers and the three layers of switches and computes
the other end of each link by divisions and remainders.  The model lists the
`duplex-link` commands of the three loops in their order.  `Parameters` are
the numbers that the script is meant for: an even `fattree_k` and a positive
`topology_x`.

The simulation script with the traffic generator builds its topology with the
same loops.
-/

namespace CodingExamples.FattreeNs2.Topology

/-- The arrays of simulator nodes, with the index of an element. -/
inductive Node where
  | s (i : Nat)
  | edge (i : Nat)
  | aggr (i : Nat)
  | core (i : Nat)
deriving DecidableEq, Repr

/-! ## Sizes -/

def topologyServers (fattreeK topologyX : Nat) : Nat :=
  fattreeK * fattreeK * fattreeK * topologyX / 4

/-- Servers per top-of-rack switch. -/
def topologySpt (fattreeK topologyX : Nat) : Nat :=
  fattreeK * topologyX / 2

def topologyEdges (fattreeK : Nat) : Nat :=
  fattreeK * fattreeK / 2

def topologyAggrs (fattreeK : Nat) : Nat :=
  fattreeK * fattreeK / 2

def topologyCores (fattreeK : Nat) : Nat :=
  fattreeK * fattreeK / 4

/-- The loops that create nodes have created this one. -/
def created (fattreeK topologyX : Nat) : Node → Bool
  | .s i => i < topologyServers fattreeK topologyX
  | .edge i => i < topologyEdges fattreeK
  | .aggr i => i < topologyAggrs fattreeK
  | .core i => i < topologyCores fattreeK

/-! ## The loops -/

/-- The values of a loop `for {set i start} {$i < end} {incr i}`. -/
def forLoop (start stop : Nat) : List Nat :=
  List.range' start (stop - start)

/-- The ends of a `duplex-link` command. -/
abbrev Link := Node × Node

/-- Links from servers to edge switches. -/
def serverLinks (fattreeK topologyX : Nat) : List Link :=
  (forLoop 0 (topologyServers fattreeK topologyX)).map fun i =>
    let j := i / topologySpt fattreeK topologyX
    (.s i, .edge j)

/-- Links from edge to aggregation switches. -/
def edgeLinks (fattreeK : Nat) : List Link :=
  (forLoop 0 (topologyEdges fattreeK)).flatMap fun i =>
    let pod := i / (fattreeK / 2)
    let start := pod * fattreeK / 2
    let stop := start + fattreeK / 2
    (forLoop start stop).map fun j => (.edge i, .aggr j)

/-- Links from aggregation to core switches. -/
def aggrLinks (fattreeK : Nat) : List Link :=
  (forLoop 0 (topologyAggrs fattreeK)).flatMap fun i =>
    let index := i % (fattreeK / 2)
    let start := index * fattreeK / 2
    let stop := start + fattreeK / 2
    (forLoop start stop).map fun j => (.aggr i, .core j)

/-- The commands of the three loops. -/
def commands (fattreeK topologyX : Nat) : List Link :=
  serverLinks fattreeK topologyX ++ edgeLinks fattreeK ++ aggrLinks fattreeK

/-- `$ns duplex-link`; a node that was not created is an error. -/
def duplexLink (fattreeK topologyX : Nat) (link : Link) : Option Link :=
  if created fattreeK topologyX link.1 && created fattreeK topologyX link.2
  then some link
  else none

/-- The links of the topology, unless the script stops with an error. -/
def links (fattreeK topologyX : Nat) : Option (List Link) :=
  (commands fattreeK topologyX).mapM (duplexLink fattreeK topologyX)

/-- The arguments that the script is meant for. -/
structure Parameters where
  fattreeK : Nat
  topologyX : Nat
  even : Even fattreeK
  positiveK : 2 ≤ fattreeK
  positiveX : 1 ≤ topologyX

namespace Parameters

variable (parameters : Parameters)

/-- `$fattree_k / 2`: the switches of a pod in each layer. -/
def half : Nat :=
  parameters.fattreeK / 2

theorem fattreeK_eq : parameters.fattreeK = 2 * parameters.half := by
  have even := parameters.even.two_dvd
  rw [half]
  omega

theorem half_pos : 0 < parameters.half := by
  have equal := parameters.fattreeK_eq
  have positive := parameters.positiveK
  omega

theorem topologySpt_eq :
    topologySpt parameters.fattreeK parameters.topologyX =
      parameters.half * parameters.topologyX := by
  rw [topologySpt, fattreeK_eq, Nat.mul_assoc, Nat.mul_div_cancel_left]
  decide

theorem topologyEdges_eq :
    topologyEdges parameters.fattreeK =
      2 * parameters.half * parameters.half := by
  have square :
      parameters.fattreeK * parameters.fattreeK =
        2 * (2 * parameters.half * parameters.half) := by
    rw [fattreeK_eq]
    ring
  rw [topologyEdges, square, Nat.mul_div_cancel_left]
  decide

theorem topologyAggrs_eq :
    topologyAggrs parameters.fattreeK =
      2 * parameters.half * parameters.half :=
  parameters.topologyEdges_eq

theorem topologyCores_eq :
    topologyCores parameters.fattreeK =
      parameters.half * parameters.half := by
  have square :
      parameters.fattreeK * parameters.fattreeK =
        4 * (parameters.half * parameters.half) := by
    rw [fattreeK_eq]
    ring
  rw [topologyCores, square, Nat.mul_div_cancel_left]
  decide

theorem topologyServers_eq :
    topologyServers parameters.fattreeK parameters.topologyX =
      topologyEdges parameters.fattreeK *
        topologySpt parameters.fattreeK parameters.topologyX := by
  have cube :
      parameters.fattreeK * parameters.fattreeK * parameters.fattreeK *
          parameters.topologyX =
        4 *
          (2 * parameters.half * parameters.half *
            (parameters.half * parameters.topologyX)) := by
    rw [fattreeK_eq]
    ring
  rw [topologyServers, topologyEdges_eq, topologySpt_eq, cube,
    Nat.mul_div_cancel_left]
  decide

theorem topologySpt_pos :
    0 < topologySpt parameters.fattreeK parameters.topologyX := by
  rw [topologySpt_eq]
  exact Nat.mul_pos parameters.half_pos parameters.positiveX

end Parameters

/-! ## The commands -/

theorem mem_forLoop {start stop i : Nat} :
    i ∈ forLoop start stop ↔ start ≤ i ∧ i < stop := by
  rw [forLoop, List.mem_range'_1]
  omega

theorem nodup_forLoop (start stop : Nat) : (forLoop start stop).Nodup :=
  List.nodup_range'

/-- A stretch of one pod or of one group of core switches. -/
theorem Parameters.stretch_iff (parameters : Parameters) {group i : Nat} :
    group * parameters.fattreeK / 2 ≤ i ∧
        i < group * parameters.fattreeK / 2 + parameters.fattreeK / 2 ↔
      i / parameters.half = group := by
  have start :
      group * parameters.fattreeK / 2 = group * parameters.half := by
    rw [parameters.fattreeK_eq, Nat.mul_left_comm,
      Nat.mul_div_cancel_left _ (by decide)]
  have length : parameters.fattreeK / 2 = parameters.half := rfl
  have positive := parameters.half_pos
  rw [start, length, Nat.div_eq_iff positive]
  omega

section Commands

variable (parameters : Parameters)

theorem mem_serverLinks {a b : Node} :
    (a, b) ∈ serverLinks parameters.fattreeK parameters.topologyX ↔
      ∃ i < topologyServers parameters.fattreeK parameters.topologyX,
        a = .s i ∧
          b = .edge
            (i / topologySpt parameters.fattreeK parameters.topologyX) := by
  simp only [serverLinks, List.mem_map, mem_forLoop, Nat.zero_le, true_and,
    Prod.mk.injEq]
  constructor
  · rintro ⟨i, inside, rfl, rfl⟩
    exact ⟨i, inside, rfl, rfl⟩
  · rintro ⟨i, inside, rfl, rfl⟩
    exact ⟨i, inside, rfl, rfl⟩

theorem mem_edgeLinks {a b : Node} :
    (a, b) ∈ edgeLinks parameters.fattreeK ↔
      ∃ i < topologyEdges parameters.fattreeK, ∃ j,
        j / parameters.half = i / parameters.half ∧
          a = .edge i ∧ b = .aggr j := by
  simp only [edgeLinks, List.mem_flatMap, List.mem_map, mem_forLoop,
    Nat.zero_le, true_and, Prod.mk.injEq, parameters.stretch_iff]
  constructor
  · rintro ⟨i, inside, j, pod, rfl, rfl⟩
    exact ⟨i, inside, j, pod, rfl, rfl⟩
  · rintro ⟨i, inside, j, pod, rfl, rfl⟩
    exact ⟨i, inside, j, pod, rfl, rfl⟩

theorem mem_aggrLinks {a b : Node} :
    (a, b) ∈ aggrLinks parameters.fattreeK ↔
      ∃ i < topologyAggrs parameters.fattreeK, ∃ j,
        j / parameters.half = i % parameters.half ∧
          a = .aggr i ∧ b = .core j := by
  simp only [aggrLinks, List.mem_flatMap, List.mem_map, mem_forLoop,
    Nat.zero_le, true_and, Prod.mk.injEq, parameters.stretch_iff]
  constructor
  · rintro ⟨i, inside, j, group, rfl, rfl⟩
    exact ⟨i, inside, j, group, rfl, rfl⟩
  · rintro ⟨i, inside, j, group, rfl, rfl⟩
    exact ⟨i, inside, j, group, rfl, rfl⟩

/-- The links, one constructor for each of the loops. -/
inductive Wired : Node → Node → Prop where
  | server {i : Nat}
      (inside :
        i < topologyServers parameters.fattreeK parameters.topologyX) :
      Wired (.s i)
        (.edge (i / topologySpt parameters.fattreeK parameters.topologyX))
  | edge {i j : Nat} (inside : i < topologyEdges parameters.fattreeK)
      (pod : j / parameters.half = i / parameters.half) :
      Wired (.edge i) (.aggr j)
  | aggr {i j : Nat} (inside : i < topologyAggrs parameters.fattreeK)
      (group : j / parameters.half = i % parameters.half) :
      Wired (.aggr i) (.core j)

theorem mem_commands_iff {a b : Node} :
    (a, b) ∈ commands parameters.fattreeK parameters.topologyX ↔
      Wired parameters a b := by
  rw [commands, List.mem_append, List.mem_append,
    mem_serverLinks parameters, mem_edgeLinks parameters,
    mem_aggrLinks parameters]
  constructor
  · rintro ((⟨i, inside, rfl, rfl⟩ | ⟨i, inside, j, pod, rfl, rfl⟩) |
      ⟨i, inside, j, group, rfl, rfl⟩)
    · exact .server inside
    · exact .edge inside pod
    · exact .aggr inside group
  · intro wired
    cases wired with
    | server inside => exact .inl (.inl ⟨_, inside, rfl, rfl⟩)
    | edge inside pod => exact .inl (.inr ⟨_, inside, _, pod, rfl, rfl⟩)
    | aggr inside group => exact .inr ⟨_, inside, _, group, rfl, rfl⟩

/-- The indices that the loops compute are those of existing switches. -/
theorem created_of_mem_commands
    {link : Link}
    (member :
      link ∈ commands parameters.fattreeK parameters.topologyX) :
    created parameters.fattreeK parameters.topologyX link.1 ∧
      created parameters.fattreeK parameters.topologyX link.2 := by
  rcases link with ⟨a, b⟩
  have positive := parameters.half_pos
  cases (mem_commands_iff parameters).mp member with
  | @server i inside =>
      have below :
          i / topologySpt parameters.fattreeK parameters.topologyX <
            topologyEdges parameters.fattreeK := by
        rw [Nat.div_lt_iff_lt_mul parameters.topologySpt_pos]
        rwa [parameters.topologyServers_eq] at inside
      simp only [created, decide_eq_true_eq]
      exact ⟨inside, below⟩
  | @edge i j inside pod =>
      have below : j < topologyAggrs parameters.fattreeK := by
        have within := inside
        rw [parameters.topologyEdges_eq,
          ← Nat.div_lt_iff_lt_mul positive, ← pod,
          Nat.div_lt_iff_lt_mul positive] at within
        rwa [parameters.topologyAggrs_eq]
      simp only [created, decide_eq_true_eq]
      exact ⟨inside, below⟩
  | @aggr i j inside group =>
      have below : j < topologyCores parameters.fattreeK := by
        rw [parameters.topologyCores_eq,
          ← Nat.div_lt_iff_lt_mul positive, group]
        exact Nat.mod_lt i positive
      simp only [created, decide_eq_true_eq]
      exact ⟨inside, below⟩

/-- The script creates all of its links without an error. -/
theorem links_eq_commands :
    links parameters.fattreeK parameters.topologyX =
      some (commands parameters.fattreeK parameters.topologyX) := by
  have succeeds (list : List Link)
      (inside :
        ∀ link ∈ list,
          link ∈ commands parameters.fattreeK parameters.topologyX) :
      list.mapM (duplexLink parameters.fattreeK parameters.topologyX) =
        some list := by
    induction list with
    | nil => rfl
    | cons link rest ih =>
        have ends :=
          created_of_mem_commands parameters
            (inside link List.mem_cons_self)
        rw [List.mapM_cons, duplexLink, ends.1, ends.2,
          ih fun other member =>
            inside other (List.mem_cons_of_mem link member)]
        rfl
  exact succeeds _ fun link member => member

/-- A double loop creates each of its links once. -/
theorem nodup_doubleLoop
    {outer : List Nat} (start stop : Nat → Nat) {left right : Nat → Node}
    (outerNodup : outer.Nodup) (injectiveLeft : left.Injective)
    (injectiveRight : right.Injective) :
    (outer.flatMap fun i =>
      (forLoop (start i) (stop i)).map fun j =>
        (left i, right j)).Nodup := by
  rw [List.nodup_flatMap]
  constructor
  · intro i _
    apply (nodup_forLoop _ _).map
    intro first second same
    exact injectiveRight (congrArg Prod.snd same)
  · apply outerNodup.imp
    intro first second different link inFirst inSecond
    rw [List.mem_map] at inFirst inSecond
    rcases inFirst with ⟨_, _, rfl⟩
    rcases inSecond with ⟨_, _, same⟩
    exact different (injectiveLeft (congrArg Prod.fst same)).symm

/-- No link is created twice. -/
theorem nodup_commands :
    (commands parameters.fattreeK parameters.topologyX).Nodup := by
  have edges : (edgeLinks parameters.fattreeK).Nodup :=
    nodup_doubleLoop _ _ (nodup_forLoop _ _)
      (fun _ _ same => Node.edge.inj same)
      (fun _ _ same => Node.aggr.inj same)
  have aggrs : (aggrLinks parameters.fattreeK).Nodup :=
    nodup_doubleLoop _ _ (nodup_forLoop _ _)
      (fun _ _ same => Node.aggr.inj same)
      (fun _ _ same => Node.core.inj same)
  have servers :
      (serverLinks parameters.fattreeK parameters.topologyX).Nodup := by
    apply (nodup_forLoop _ _).map
    intro first second same
    exact Node.s.inj (congrArg Prod.fst same)
  rw [commands, List.nodup_append', List.nodup_append']
  refine ⟨⟨servers, edges, ?_⟩, aggrs, ?_⟩
  · rintro ⟨a, b⟩ server edge
    rw [mem_serverLinks parameters] at server
    rw [mem_edgeLinks parameters] at edge
    rcases server with ⟨i, _, rfl, _⟩
    rcases edge with ⟨j, _, _, _, impossible, _⟩
    cases impossible
  · rintro ⟨a, b⟩ before aggr
    rw [mem_aggrLinks parameters] at aggr
    rcases aggr with ⟨i, _, j, _, rfl, rfl⟩
    rw [List.mem_append, mem_serverLinks parameters,
      mem_edgeLinks parameters] at before
    rcases before with ⟨_, _, impossible, _⟩ | ⟨_, _, _, _, impossible, _⟩
    · cases impossible
    · cases impossible

/-! ## Neighbours -/

/-- The script links the first node to the second. -/
def Linked (a b : Node) : Prop :=
  ∃ created, links parameters.fattreeK parameters.topologyX = some created ∧
    (a, b) ∈ created

theorem linked_iff {a b : Node} :
    Linked parameters a b ↔ Wired parameters a b := by
  rw [Linked, links_eq_commands parameters, ← mem_commands_iff]
  constructor
  · rintro ⟨created, same, member⟩
    cases same
    exact member
  · intro member
    exact ⟨_, rfl, member⟩

theorem linked_server_iff {i : Nat} {b : Node} :
    Linked parameters (.s i) b ↔
      i < topologyServers parameters.fattreeK parameters.topologyX ∧
        b =
          .edge
            (i / topologySpt parameters.fattreeK parameters.topologyX) := by
  rw [linked_iff]
  constructor
  · intro wired
    cases wired with
    | server inside => exact ⟨inside, rfl⟩
  · rintro ⟨inside, rfl⟩
    exact .server inside

theorem linked_edge_iff {i : Nat} {b : Node} :
    Linked parameters (.edge i) b ↔
      i < topologyEdges parameters.fattreeK ∧
        ∃ j, j / parameters.half = i / parameters.half ∧ b = .aggr j := by
  rw [linked_iff]
  constructor
  · intro wired
    cases wired with
    | edge inside pod => exact ⟨inside, _, pod, rfl⟩
  · rintro ⟨inside, j, pod, rfl⟩
    exact .edge inside pod

theorem linked_aggr_iff {i : Nat} {b : Node} :
    Linked parameters (.aggr i) b ↔
      i < topologyAggrs parameters.fattreeK ∧
        ∃ j, j / parameters.half = i % parameters.half ∧ b = .core j := by
  rw [linked_iff]
  constructor
  · intro wired
    cases wired with
    | aggr inside group => exact ⟨inside, _, group, rfl⟩
  · rintro ⟨inside, j, group, rfl⟩
    exact .aggr inside group

end Commands

/-! ## Degrees -/

/-- A stretch of numbers with one quotient is as long as the divisor. -/
theorem card_filter_div_eq
    {count size quotient : Nat} (inside : quotient < count)
    (positive : 0 < size) :
    ((Finset.range (count * size)).filter fun i =>
      i / size = quotient).card = size := by
  have stretch :
      ((Finset.range (count * size)).filter fun i => i / size = quotient) =
        Finset.Ico (quotient * size) (quotient * size + size) := by
    ext i
    have below : quotient * size + size ≤ count * size := by
      rw [← Nat.succ_mul]
      exact Nat.mul_le_mul_right size inside
    rw [Finset.mem_filter, Finset.mem_range, Finset.mem_Ico,
      Nat.div_eq_iff positive]
    omega
  rw [stretch, Nat.card_Ico]
  omega

section Degrees

variable (parameters : Parameters)

theorem existsUnique_edge_of_server
    {i : Nat}
    (inside :
      i < topologyServers parameters.fattreeK parameters.topologyX) :
    ∃! j, j < topologyEdges parameters.fattreeK ∧
      Linked parameters (.s i) (.edge j) := by
  refine
    ⟨i / topologySpt parameters.fattreeK parameters.topologyX,
      ⟨?_, ?_⟩, ?_⟩
  · rwa [Nat.div_lt_iff_lt_mul parameters.topologySpt_pos,
      ← parameters.topologyServers_eq]
  · rw [linked_server_iff]
    exact ⟨inside, rfl⟩
  · rintro j ⟨_, linked⟩
    rw [linked_server_iff] at linked
    exact Node.edge.inj linked.2

theorem ncard_servers_of_edge
    {j : Nat} (inside : j < topologyEdges parameters.fattreeK) :
    Set.ncard {i | Linked parameters (.s i) (.edge j)} =
      parameters.fattreeK * parameters.topologyX / 2 := by
  have servers :
      {i | Linked parameters (.s i) (.edge j)} =
        ((Finset.range
            (topologyEdges parameters.fattreeK *
              topologySpt parameters.fattreeK
                parameters.topologyX)).filter fun i =>
          i / topologySpt parameters.fattreeK parameters.topologyX =
            j : Finset Nat) := by
    ext i
    rw [Set.mem_ofPred_eq, linked_server_iff, Node.edge.injEq,
      Finset.mem_coe, Finset.mem_filter, Finset.mem_range,
      parameters.topologyServers_eq, eq_comm]
  rw [servers, Set.ncard_coe_finset,
    card_filter_div_eq inside parameters.topologySpt_pos]
  rfl

/-- The edge switches of a pod are linked to the aggregation switches of it. -/
theorem linked_edge_aggr_iff
    {i j : Nat} (inside : i < topologyEdges parameters.fattreeK) :
    Linked parameters (.edge i) (.aggr j) ↔
      j < topologyAggrs parameters.fattreeK ∧
        j / parameters.half = i / parameters.half := by
  have positive := parameters.half_pos
  rw [linked_edge_iff]
  constructor
  · rintro ⟨_, _, pod, same⟩
    cases same
    refine ⟨?_, pod⟩
    rw [parameters.topologyAggrs_eq, ← Nat.div_lt_iff_lt_mul positive, pod,
      Nat.div_lt_iff_lt_mul positive, ← parameters.topologyEdges_eq]
    exact inside
  · rintro ⟨_, pod⟩
    exact ⟨inside, j, pod, rfl⟩

theorem ncard_aggrs_of_edge
    {i : Nat} (inside : i < topologyEdges parameters.fattreeK) :
    Set.ncard {j | Linked parameters (.edge i) (.aggr j)} =
      parameters.fattreeK / 2 := by
  have positive := parameters.half_pos
  have aggrs :
      {j | Linked parameters (.edge i) (.aggr j)} =
        ((Finset.range (2 * parameters.half * parameters.half)).filter
          fun j => j / parameters.half = i / parameters.half :
            Finset Nat) := by
    ext j
    rw [Set.mem_ofPred_eq, linked_edge_aggr_iff parameters inside,
      Finset.mem_coe, Finset.mem_filter, Finset.mem_range,
      parameters.topologyAggrs_eq]
  have pod : i / parameters.half < 2 * parameters.half := by
    rwa [Nat.div_lt_iff_lt_mul positive, ← parameters.topologyEdges_eq]
  rw [aggrs, Set.ncard_coe_finset, card_filter_div_eq pod positive]
  rfl

theorem linked_aggr_core_iff
    {i j : Nat} (inside : i < topologyAggrs parameters.fattreeK) :
    Linked parameters (.aggr i) (.core j) ↔
      j / parameters.half = i % parameters.half := by
  rw [linked_aggr_iff]
  constructor
  · rintro ⟨_, _, group, same⟩
    cases same
    exact group
  · intro group
    exact ⟨inside, j, group, rfl⟩

theorem core_inside_of_linked
    {i j : Nat} (linked : Linked parameters (.aggr i) (.core j)) :
    j < topologyCores parameters.fattreeK := by
  rw [linked_aggr_iff] at linked
  rcases linked with ⟨_, _, group, same⟩
  cases same
  rw [parameters.topologyCores_eq,
    ← Nat.div_lt_iff_lt_mul parameters.half_pos, group]
  exact Nat.mod_lt i parameters.half_pos

theorem ncard_cores_of_aggr
    {i : Nat} (inside : i < topologyAggrs parameters.fattreeK) :
    Set.ncard {j | Linked parameters (.aggr i) (.core j)} =
      parameters.fattreeK / 2 := by
  have positive := parameters.half_pos
  have cores :
      {j | Linked parameters (.aggr i) (.core j)} =
        ((Finset.range (parameters.half * parameters.half)).filter
          fun j => j / parameters.half = i % parameters.half :
            Finset Nat) := by
    ext j
    rw [Set.mem_ofPred_eq, Finset.mem_coe, Finset.mem_filter,
      Finset.mem_range, ← parameters.topologyCores_eq,
      ← linked_aggr_core_iff parameters inside]
    constructor
    · intro linked
      exact ⟨core_inside_of_linked parameters linked, linked⟩
    · exact And.right
  rw [cores, Set.ncard_coe_finset,
    card_filter_div_eq (Nat.mod_lt i positive) positive]
  rfl

/-- The aggregation switch of a pod that is linked to a core switch. -/
def aggrOf (pod c : Nat) : Nat :=
  pod * parameters.half + c / parameters.half

/-- It is in the pod, and linked to the core switch. -/
theorem aggrOf_spec
    {pod c : Nat} (insidePod : pod < parameters.fattreeK)
    (insideCore : c < topologyCores parameters.fattreeK) :
    aggrOf parameters pod c < topologyAggrs parameters.fattreeK ∧
      aggrOf parameters pod c / parameters.half = pod ∧
        c / parameters.half =
          aggrOf parameters pod c % parameters.half := by
  have positive := parameters.half_pos
  have small : c / parameters.half < parameters.half := by
    rwa [Nat.div_lt_iff_lt_mul positive, ← parameters.topologyCores_eq]
  have quotient : aggrOf parameters pod c / parameters.half = pod := by
    rw [aggrOf, Nat.add_comm, Nat.add_mul_div_right _ _ positive,
      Nat.div_eq_of_lt small, Nat.zero_add]
  refine ⟨?_, quotient, ?_⟩
  · rw [parameters.topologyAggrs_eq, ← Nat.div_lt_iff_lt_mul positive,
      quotient, ← parameters.fattreeK_eq]
    exact insidePod
  · rw [aggrOf, Nat.add_comm, Nat.add_mul_mod_self_right,
      Nat.mod_eq_of_lt small]

/-- It is the only one. -/
theorem eq_aggrOf
    {i c : Nat} (group : c / parameters.half = i % parameters.half) :
    i = aggrOf parameters (i / parameters.half) c := by
  rw [aggrOf, group, Nat.mul_comm]
  exact (Nat.div_add_mod i parameters.half).symm

theorem existsUnique_aggr_of_core
    {pod c : Nat} (insidePod : pod < parameters.fattreeK)
    (insideCore : c < topologyCores parameters.fattreeK) :
    ∃! i, i < topologyAggrs parameters.fattreeK ∧
      i / parameters.half = pod ∧ Linked parameters (.aggr i) (.core c) := by
  rcases aggrOf_spec parameters insidePod insideCore with
    ⟨inside, quotient, group⟩
  refine ⟨aggrOf parameters pod c, ⟨inside, quotient, ?_⟩, ?_⟩
  · rwa [linked_aggr_core_iff parameters inside]
  · rintro i ⟨insideAggr, rfl, linked⟩
    rw [linked_aggr_core_iff parameters insideAggr] at linked
    exact eq_aggrOf parameters linked

end Degrees

end CodingExamples.FattreeNs2.Topology
