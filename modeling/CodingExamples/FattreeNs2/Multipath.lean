import CodingExamples.FattreeNs2.Topology
import CodingExamples.Library.Descent

/-!
# The shortest paths of the fat-tree

Two servers in different pods are six links apart.  A shortest path between
them goes up to a core switch and down again, and is determined by that core
switch.  The distance to a server is bounded below by the number of links
that a packet needs when it turns around as low as possible.
-/

namespace CodingExamples.FattreeNs2.Multipath

open CodingExamples.Library.Descent
open CodingExamples.FattreeNs2.Topology

section Paths

variable (parameters : Parameters)

/-- The simulated network. -/
def topology : SimpleGraph Node :=
  SimpleGraph.fromRel (Linked parameters)

/-- The edge switch of a server. -/
def edgeOf (i : Nat) : Nat :=
  i / topologySpt parameters.fattreeK parameters.topologyX

/-- The pod of a server. -/
def podOf (i : Nat) : Nat :=
  edgeOf parameters i / parameters.half

theorem podOf_lt
    {i : Nat}
    (inside :
      i < topologyServers parameters.fattreeK parameters.topologyX) :
    podOf parameters i < parameters.fattreeK := by
  rw [podOf, edgeOf, Nat.div_lt_iff_lt_mul parameters.half_pos,
    Nat.div_lt_iff_lt_mul parameters.topologySpt_pos,
    parameters.fattreeK_eq, ← parameters.topologyEdges_eq,
    ← parameters.fattreeK_eq, ← parameters.topologyServers_eq]
  exact inside

theorem edgeOf_lt
    {i : Nat}
    (inside :
      i < topologyServers parameters.fattreeK parameters.topologyX) :
    edgeOf parameters i < topologyEdges parameters.fattreeK := by
  rw [edgeOf, Nat.div_lt_iff_lt_mul parameters.topologySpt_pos,
    ← parameters.topologyServers_eq]
  exact inside

theorem Wired.ne {a b : Node} (wired : Wired parameters a b) : a ≠ b := by
  rintro rfl
  cases wired

theorem adj_iff {a b : Node} :
    (topology parameters).Adj a b ↔
      Wired parameters a b ∨ Wired parameters b a := by
  rw [topology, SimpleGraph.fromRel_adj, linked_iff, linked_iff]
  constructor
  · exact And.right
  · intro wired
    refine ⟨?_, wired⟩
    rcases wired with up | down
    · exact Wired.ne parameters up
    · exact (Wired.ne parameters down).symm

/-! ## Neighbours in the network -/

theorem adj_server
    {i : Nat} {b : Node} (adjacent : (topology parameters).Adj (.s i) b) :
    b = .edge (edgeOf parameters i) := by
  rw [adj_iff] at adjacent
  rcases adjacent with up | down
  · cases up with
    | server inside => rfl
  · cases down

theorem adj_edge
    {e : Nat} {b : Node}
    (adjacent : (topology parameters).Adj (.edge e) b) :
    (∃ i, edgeOf parameters i = e ∧ b = .s i) ∨
      ∃ j, j / parameters.half = e / parameters.half ∧ b = .aggr j := by
  rw [adj_iff] at adjacent
  rcases adjacent with up | down
  · cases up with
    | edge inside pod => exact Or.inr ⟨_, pod, rfl⟩
  · cases down with
    | server inside => exact Or.inl ⟨_, rfl, rfl⟩

theorem adj_aggr
    {j : Nat} {b : Node}
    (adjacent : (topology parameters).Adj (.aggr j) b) :
    (∃ e, j / parameters.half = e / parameters.half ∧ b = .edge e) ∨
      ∃ c < topologyCores parameters.fattreeK,
        c / parameters.half = j % parameters.half ∧ b = .core c := by
  rw [adj_iff] at adjacent
  rcases adjacent with up | down
  · have linked := (linked_iff parameters).mpr up
    cases up with
    | aggr inside group =>
        exact
          Or.inr ⟨_, core_inside_of_linked parameters linked, group, rfl⟩
  · cases down with
    | edge inside pod => exact Or.inl ⟨_, pod, rfl⟩

theorem adj_core
    {c : Nat} {b : Node}
    (adjacent : (topology parameters).Adj (.core c) b) :
    ∃ j, c / parameters.half = j % parameters.half ∧ b = .aggr j := by
  rw [adj_iff] at adjacent
  rcases adjacent with up | down
  · cases up
  · cases down with
    | aggr inside group => exact ⟨_, group, rfl⟩

/-! ## Distances -/

/-- How many links it takes from an edge switch to a server. -/
def linksFromEdge (b e : Nat) : Nat :=
  if e = edgeOf parameters b then 1
  else if e / parameters.half = podOf parameters b then 3
  else 5

/-- How many links it takes from an aggregation switch to a server. -/
def linksFromAggr (b j : Nat) : Nat :=
  if j / parameters.half = podOf parameters b then 2 else 4

/-- How many links it takes to a server. -/
def linksTo (b : Nat) : Node → Nat
  | .s i =>
      if i = b then 0
      else linksFromEdge parameters b (edgeOf parameters i) + 1
  | .edge e => linksFromEdge parameters b e
  | .aggr j => linksFromAggr parameters b j
  | .core _ => 3

/-- A server is one link further than its edge switch, except the target. -/
theorem linksTo_server (b i : Nat) :
    linksTo parameters b (.s i) ≤
        linksFromEdge parameters b (edgeOf parameters i) + 1 ∧
      linksFromEdge parameters b (edgeOf parameters i) ≤
        linksTo parameters b (.s i) + 1 := by
  rw [linksTo]
  split
  · case isTrue same =>
      rw [same, linksFromEdge, if_pos rfl]
      exact ⟨by decide, le_rfl⟩
  · exact ⟨le_rfl, by omega⟩

/-- The edge and the aggregation switches of a pod differ by one. -/
theorem linksFromAggr_of_edge
    (b : Nat) {e j : Nat}
    (pod : j / parameters.half = e / parameters.half) :
    linksFromAggr parameters b j ≤ linksFromEdge parameters b e + 1 ∧
      linksFromEdge parameters b e ≤ linksFromAggr parameters b j + 1 := by
  rw [linksFromAggr, linksFromEdge, pod]
  by_cases same : e = edgeOf parameters b
  · have samePod : e / parameters.half = podOf parameters b := by
      rw [same]
      rfl
    rw [if_pos same, if_pos samePod]
    exact ⟨le_rfl, by decide⟩
  · rw [if_neg same]
    split
    · exact ⟨by decide, le_rfl⟩
    · exact ⟨by decide, le_rfl⟩

theorem linksFromAggr_core (b j : Nat) :
    linksFromAggr parameters b j ≤ 3 + 1 ∧
      3 ≤ linksFromAggr parameters b j + 1 := by
  rw [linksFromAggr]
  split
  · exact ⟨by decide, le_rfl⟩
  · exact ⟨le_rfl, by decide⟩

/-- A link changes the number by one at most. -/
theorem linksTo_step
    (b : Nat) {u v : Node} (adjacent : (topology parameters).Adj u v) :
    linksTo parameters b u ≤ linksTo parameters b v + 1 := by
  cases u with
  | s i =>
      rw [adj_server parameters adjacent]
      exact (linksTo_server parameters b i).1
  | edge e =>
      rcases adj_edge parameters adjacent with
        ⟨i, rfl, rfl⟩ | ⟨j, pod, rfl⟩
      · exact (linksTo_server parameters b i).2
      · exact (linksFromAggr_of_edge parameters b pod).2
  | aggr j =>
      rcases adj_aggr parameters adjacent with
        ⟨e, pod, rfl⟩ | ⟨c, _, _, rfl⟩
      · exact (linksFromAggr_of_edge parameters b pod).1
      · exact (linksFromAggr_core parameters b j).1
  | core c =>
      rcases adj_core parameters adjacent with ⟨j, _, rfl⟩
      exact (linksFromAggr_core parameters b j).2

/-- The number of links bounds the distance to the server. -/
def linksBound (b : Nat) : Height (topology parameters) (.s b) where
  height := linksTo parameters b
  target_eq := if_pos rfl
  step := by
    intro u v adjacent
    exact linksTo_step parameters b adjacent

/-! ## The paths through a core switch -/

/-- The nodes of the path through a core switch. -/
def routeNodes (a b c : Nat) : List Node :=
  [.s a, .edge (edgeOf parameters a),
    .aggr (aggrOf parameters (podOf parameters a) c), .core c,
    .aggr (aggrOf parameters (podOf parameters b) c),
    .edge (edgeOf parameters b), .s b]

/-- Servers of different pods are six links apart. -/
theorem linksTo_otherPod
    {a b : Nat} (pods : podOf parameters a ≠ podOf parameters b) :
    linksTo parameters b (.s a) = 6 := by
  have different : a ≠ b := by
    rintro rfl
    exact pods rfl
  have edges : edgeOf parameters a ≠ edgeOf parameters b := by
    intro same
    apply pods
    rw [podOf, same]
    rfl
  rw [linksTo, if_neg different, linksFromEdge, if_neg edges,
    if_neg (show edgeOf parameters a / parameters.half ≠ _ from pods)]

/-! ## Links that descend -/

theorem descent_of_edge
    {b e : Nat} {v : Node}
    (adjacent : (topology parameters).Adj (.edge e) v)
    (descends :
      linksFromEdge parameters b e = linksTo parameters b v + 1) :
    v = .s b ∨
      ∃ j, j / parameters.half = e / parameters.half ∧ v = .aggr j := by
  rcases adj_edge parameters adjacent with ⟨i, rfl, rfl⟩ | other
  · left
    by_cases same : i = b
    · rw [same]
    · have further :
          linksTo parameters b (.s i) =
            linksFromEdge parameters b (edgeOf parameters i) + 1 :=
        if_neg same
      omega
  · exact Or.inr other

/-- In another pod the way goes up. -/
theorem descent_of_aggr_otherPod
    {b j : Nat} {v : Node}
    (adjacent : (topology parameters).Adj (.aggr j) v)
    (otherPod : j / parameters.half ≠ podOf parameters b)
    (descends : linksTo parameters b v = 3) :
    ∃ c < topologyCores parameters.fattreeK,
      c / parameters.half = j % parameters.half ∧ v = .core c := by
  rcases adj_aggr parameters adjacent with ⟨e, pod, rfl⟩ | core
  · rw [pod] at otherPod
    have different : e ≠ edgeOf parameters b := by
      rintro rfl
      exact otherPod rfl
    change linksFromEdge parameters b e = 3 at descends
    rw [linksFromEdge, if_neg different, if_neg otherPod] at descends
    cases descends
  · exact core

/-- In the pod of the server the way goes down. -/
theorem descent_of_aggr_samePod
    {b j : Nat} {v : Node}
    (adjacent : (topology parameters).Adj (.aggr j) v)
    (descends : linksTo parameters b v = 1) :
    v = .edge (edgeOf parameters b) := by
  rcases adj_aggr parameters adjacent with
    ⟨e, pod, rfl⟩ | ⟨c, _, _, rfl⟩
  · change linksFromEdge parameters b e = 1 at descends
    rw [linksFromEdge] at descends
    split at descends
    · case isTrue same => rw [same]
    · split at descends
      · cases descends
      · cases descends
  · cases descends

theorem descent_of_core
    {b c : Nat} {v : Node}
    (adjacent : (topology parameters).Adj (.core c) v)
    (descends : linksTo parameters b v = 2) :
    v = .aggr (aggrOf parameters (podOf parameters b) c) := by
  rcases adj_core parameters adjacent with ⟨j, group, rfl⟩
  change linksFromAggr parameters b j = 2 at descends
  rw [linksFromAggr] at descends
  split at descends
  · case isTrue pod =>
      rw [← pod, ← eq_aggrOf parameters group]
  · cases descends

/-- A walk of six links goes up to a core switch and down again. -/
theorem support_of_length_six
    {a b : Nat} (pods : podOf parameters a ≠ podOf parameters b)
    (walk : (topology parameters).Walk (.s a) (.s b))
    (six : walk.length = 6) :
    ∃ c < topologyCores parameters.fattreeK,
      walk.support = routeNodes parameters a b c := by
  have start := linksTo_otherPod parameters pods
  have attains :
      walk.length = (linksBound parameters b).height (.s a) := by
    rw [six]
    exact start.symm
  -- Each link leads to a node with one link less to go.
  rcases (linksBound parameters b).exists_descent walk attains start with
    ⟨_, walk1, up1, height1, attains1, support1⟩
  cases adj_server parameters up1
  rcases (linksBound parameters b).exists_descent walk1 attains1 height1 with
    ⟨_, walk2, up2, height2, attains2, support2⟩
  have turn2 := descent_of_edge parameters up2 (height1.trans (by
    rw [show linksTo parameters b _ = 4 from height2]))
  rcases turn2 with rfl | ⟨j, pod, rfl⟩
  · rw [(linksBound parameters b).target_eq] at height2
    cases height2
  rcases (linksBound parameters b).exists_descent walk2 attains2 height2 with
    ⟨_, walk3, up3, height3, attains3, support3⟩
  have otherPod : j / parameters.half ≠ podOf parameters b := by
    rw [pod]
    exact pods
  rcases descent_of_aggr_otherPod parameters up3 otherPod height3 with
    ⟨c, inside, group, rfl⟩
  rcases (linksBound parameters b).exists_descent walk3 attains3 height3 with
    ⟨_, walk4, down4, height4, attains4, support4⟩
  cases descent_of_core parameters down4 height4
  rcases (linksBound parameters b).exists_descent walk4 attains4 height4 with
    ⟨_, walk5, down5, height5, attains5, support5⟩
  cases descent_of_aggr_samePod parameters down5 height5
  rcases (linksBound parameters b).exists_descent walk5 attains5 height5 with
    ⟨last, walk6, down6, height6, attains6, support6⟩
  have support7 :=
    (linksBound parameters b).support_of_height_zero walk6 attains6 height6
  refine ⟨c, inside, ?_⟩
  have upwards : j = aggrOf parameters (podOf parameters a) c := by
    rw [eq_aggrOf parameters group, pod]
    rfl
  rw [support1, support2, support3, support4, support5, support6, support7,
    upwards]
  rfl

/-! ## The path through each core switch -/

section Route

variable {a b c : Nat}
  (insideA : a < topologyServers parameters.fattreeK parameters.topologyX)
  (insideB : b < topologyServers parameters.fattreeK parameters.topologyX)
  (insideC : c < topologyCores parameters.fattreeK)

include insideA in
theorem adj_server_edge :
    (topology parameters).Adj (.s a) (.edge (edgeOf parameters a)) := by
  rw [adj_iff]
  left
  exact .server insideA

include insideA insideC in
theorem adj_edge_aggr :
    (topology parameters).Adj (.edge (edgeOf parameters a))
      (.aggr (aggrOf parameters (podOf parameters a) c)) := by
  rcases aggrOf_spec parameters (podOf_lt parameters insideA) insideC with
    ⟨_, pod, _⟩
  rw [adj_iff]
  left
  exact .edge (edgeOf_lt parameters insideA) pod

include insideA insideC in
theorem adj_aggr_core :
    (topology parameters).Adj
      (.aggr (aggrOf parameters (podOf parameters a) c)) (.core c) := by
  rcases aggrOf_spec parameters (podOf_lt parameters insideA) insideC with
    ⟨inside, _, group⟩
  rw [adj_iff]
  left
  exact .aggr inside group

/-- The path from one server to another through a core switch. -/
def route : (topology parameters).Walk (.s a) (.s b) :=
  .cons (adj_server_edge parameters insideA)
    (.cons (adj_edge_aggr parameters insideA insideC)
      (.cons (adj_aggr_core parameters insideA insideC)
        (.cons (adj_aggr_core parameters insideB insideC).symm
          (.cons (adj_edge_aggr parameters insideB insideC).symm
            (.cons (adj_server_edge parameters insideB).symm .nil)))))

theorem length_route :
    (route parameters insideA insideB insideC).length = 6 :=
  rfl

theorem support_route :
    (route parameters insideA insideB insideC).support =
      routeNodes parameters a b c :=
  rfl

end Route

/-- The distance between servers of different pods. -/
theorem dist_eq_six
    {a b : Nat}
    (insideA : a < topologyServers parameters.fattreeK parameters.topologyX)
    (insideB : b < topologyServers parameters.fattreeK parameters.topologyX)
    (pods : podOf parameters a ≠ podOf parameters b) :
    (topology parameters).dist (.s a) (.s b) = 6 := by
  have insideC : 0 < topologyCores parameters.fattreeK := by
    rw [parameters.topologyCores_eq]
    exact Nat.mul_pos parameters.half_pos parameters.half_pos
  have start := linksTo_otherPod parameters pods
  rw [← start]
  apply (linksBound parameters b).dist_eq
    (route parameters insideA insideB insideC)
  exact start.symm

/-- The shortest paths are the paths through the core switches. -/
theorem shortest_iff
    {a b : Nat}
    (insideA : a < topologyServers parameters.fattreeK parameters.topologyX)
    (insideB : b < topologyServers parameters.fattreeK parameters.topologyX)
    (pods : podOf parameters a ≠ podOf parameters b)
    (walk : (topology parameters).Walk (.s a) (.s b)) :
    walk.length = (topology parameters).dist (.s a) (.s b) ↔
      ∃ (c : Nat) (insideC : c < topologyCores parameters.fattreeK),
        walk = route parameters insideA insideB insideC := by
  rw [dist_eq_six parameters insideA insideB pods]
  constructor
  · intro six
    rcases support_of_length_six parameters pods walk six with
      ⟨c, insideC, support⟩
    exact ⟨c, insideC, SimpleGraph.Walk.ext_support support⟩
  · rintro ⟨c, insideC, rfl⟩
    exact length_route parameters insideA insideB insideC

/-- A path passes through its own core switch only. -/
theorem core_mem_routeNodes_iff {a b c other : Nat} :
    .core other ∈ routeNodes parameters a b c ↔ other = c := by
  simp [routeNodes]

theorem ncard_shortest
    {a b : Nat}
    (insideA : a < topologyServers parameters.fattreeK parameters.topologyX)
    (insideB : b < topologyServers parameters.fattreeK parameters.topologyX)
    (pods : podOf parameters a ≠ podOf parameters b) :
    Set.ncard
        {walk : (topology parameters).Walk (.s a) (.s b) |
          walk.length = (topology parameters).dist (.s a) (.s b)} =
      (parameters.fattreeK / 2) ^ 2 := by
  let through (c : Fin (topologyCores parameters.fattreeK)) :=
    route parameters insideA insideB c.isLt
  have shortest :
      {walk : (topology parameters).Walk (.s a) (.s b) |
          walk.length = (topology parameters).dist (.s a) (.s b)} =
        through '' Set.univ := by
    ext walk
    rw [Set.mem_ofPred_eq, shortest_iff parameters insideA insideB pods,
      Set.image_univ, Set.mem_range]
    constructor
    · rintro ⟨c, insideC, rfl⟩
      exact ⟨⟨c, insideC⟩, rfl⟩
    · rintro ⟨c, rfl⟩
      exact ⟨c, c.isLt, rfl⟩
  have injective : through.Injective := by
    intro c other same
    have member : Node.core c ∈ (through c).support := by
      rw [support_route, core_mem_routeNodes_iff]
    rw [same, support_route, core_mem_routeNodes_iff] at member
    exact Fin.ext member
  rw [shortest, Set.ncard_image_of_injective _ injective, Set.ncard_univ,
    Nat.card_eq_fintype_card, Fintype.card_fin, parameters.topologyCores_eq,
    sq]
  rfl

theorem existsUnique_shortest_through
    {a b c : Nat}
    (insideA : a < topologyServers parameters.fattreeK parameters.topologyX)
    (insideB : b < topologyServers parameters.fattreeK parameters.topologyX)
    (pods : podOf parameters a ≠ podOf parameters b)
    (insideC : c < topologyCores parameters.fattreeK) :
    ∃! walk : (topology parameters).Walk (.s a) (.s b),
      walk.length = (topology parameters).dist (.s a) (.s b) ∧
        .core c ∈ walk.support := by
  refine ⟨route parameters insideA insideB insideC, ⟨?_, ?_⟩, ?_⟩
  · rw [shortest_iff parameters insideA insideB pods]
    exact ⟨c, insideC, rfl⟩
  · rw [support_route, core_mem_routeNodes_iff]
  · rintro walk ⟨short, member⟩
    rw [shortest_iff parameters insideA insideB pods] at short
    rcases short with ⟨other, insideOther, rfl⟩
    rw [support_route, core_mem_routeNodes_iff] at member
    subst member
    rfl

/-- What makes the links a fat-tree. -/
structure FatTree : Prop where
  /-- The loops create their links, and none of them twice. -/
  created :
    ∃ all, links parameters.fattreeK parameters.topologyX = some all ∧
      all.Nodup
  edgeOfServer :
    ∀ i < topologyServers parameters.fattreeK parameters.topologyX,
      ∃! j, j < topologyEdges parameters.fattreeK ∧
        Linked parameters (.s i) (.edge j)
  serversOfEdge :
    ∀ j < topologyEdges parameters.fattreeK,
      Set.ncard {i | Linked parameters (.s i) (.edge j)} =
        parameters.fattreeK * parameters.topologyX / 2
  aggrsOfEdge :
    ∀ i < topologyEdges parameters.fattreeK,
      Set.ncard {j | Linked parameters (.edge i) (.aggr j)} =
          parameters.fattreeK / 2 ∧
        ∀ j, Linked parameters (.edge i) (.aggr j) ↔
          j < topologyAggrs parameters.fattreeK ∧
            j / (parameters.fattreeK / 2) = i / (parameters.fattreeK / 2)
  coresOfAggr :
    ∀ i < topologyAggrs parameters.fattreeK,
      Set.ncard {j | Linked parameters (.aggr i) (.core j)} =
          parameters.fattreeK / 2 ∧
        ∀ j, Linked parameters (.aggr i) (.core j) →
          j < topologyCores parameters.fattreeK
  aggrsOfCore :
    ∀ j < topologyCores parameters.fattreeK,
      ∀ pod < parameters.fattreeK,
        ∃! i, i < topologyAggrs parameters.fattreeK ∧
          i / (parameters.fattreeK / 2) = pod ∧
            Linked parameters (.aggr i) (.core j)
  /-- The shortest paths between servers of different pods. -/
  multipath :
    ∀ a < topologyServers parameters.fattreeK parameters.topologyX,
      ∀ b < topologyServers parameters.fattreeK parameters.topologyX,
        podOf parameters a ≠ podOf parameters b →
          Set.ncard
              {walk : (topology parameters).Walk (.s a) (.s b) |
                walk.length =
                  (topology parameters).dist (.s a) (.s b)} =
            (parameters.fattreeK / 2) ^ 2 ∧
          ∀ c < topologyCores parameters.fattreeK,
            ∃! walk : (topology parameters).Walk (.s a) (.s b),
              walk.length = (topology parameters).dist (.s a) (.s b) ∧
                .core c ∈ walk.support

/--
For every even `fattree_k` of at least 2 and every positive `topology_x` the
loops build a fat-tree.
-/
theorem fatTree : FatTree parameters where
  created := ⟨_, links_eq_commands parameters, nodup_commands parameters⟩
  edgeOfServer := by
    intro i inside
    exact existsUnique_edge_of_server parameters inside
  serversOfEdge := by
    intro j inside
    exact ncard_servers_of_edge parameters inside
  aggrsOfEdge := by
    intro i inside
    refine ⟨ncard_aggrs_of_edge parameters inside, ?_⟩
    intro j
    exact linked_edge_aggr_iff parameters inside
  coresOfAggr := by
    intro i inside
    refine ⟨ncard_cores_of_aggr parameters inside, ?_⟩
    intro j linked
    exact core_inside_of_linked parameters linked
  aggrsOfCore := by
    intro j inside pod insidePod
    exact existsUnique_aggr_of_core parameters insidePod inside
  multipath := by
    intro a insideA b insideB pods
    refine ⟨ncard_shortest parameters insideA insideB pods, ?_⟩
    intro c insideC
    exact
      existsUnique_shortest_through parameters insideA insideB pods insideC

end Paths

/-- The smallest fat-tree with more than one path, and twice its servers. -/
def fourPods : Parameters where
  fattreeK := 4
  topologyX := 2
  even := by decide
  positiveK := by decide
  positiveX := by decide

/-- Four shortest paths lead from the first server to the last one. -/
theorem fatTree_fourPods :
    FatTree fourPods ∧
      Set.ncard
          {walk : (topology fourPods).Walk (.s 0) (.s 31) |
            walk.length = (topology fourPods).dist (.s 0) (.s 31)} =
        4 := by
  have tree := fatTree fourPods
  exact ⟨tree, (tree.multipath 0 (by decide) 31 (by decide) (by decide)).1⟩

example : (links 4 2).map List.length = some 64 := by
  decide +kernel

end CodingExamples.FattreeNs2.Multipath
