import CodingExamples.FlowTracker.Table

/-!
# The flow table as a finite map

A flow is identified by its two addresses and two ports.  `Linked` relates the
lists of a table to a finite map, and the locked sections are shown to act on
that map; `Holds` adds that `num_flows` counts its keys modulo `2 ^ 32`.  Each
operation is then shown to compute on the table what its specification
computes on the map, for every number of lists.  The runs at the end follow an
arbitrary sequence of calls in which any allocation may fail.
-/

namespace CodingExamples.FlowTracker.TableMap

open CodingExamples.Library
open CodingExamples.Library.BucketTable
open CodingExamples.FlowTracker.Table

/-- The part of an entry that identifies its flow. -/
structure FlowKey where
  localIp : BitVec 32
  remoteIp : BitVec 32
  localPort : BitVec 16
  remotePort : BitVec 16
deriving DecidableEq, Repr

/-- The key of an entry. -/
def key (flow : FlowEntry) : FlowKey where
  localIp := flow.localIp
  remoteIp := flow.remoteIp
  localPort := flow.localPort
  remotePort := flow.remotePort

/-- The entry of a key that has sent the given number of bytes. -/
def FlowKey.entry (flowKey : FlowKey) (bytesSent : BitVec 32) :
    FlowEntry where
  localIp := flowKey.localIp
  remoteIp := flowKey.remoteIp
  localPort := flowKey.localPort
  remotePort := flowKey.remotePort
  bytesSent := bytesSent

/-- The list of a key. -/
def slot (bits : Nat) (flowKey : FlowKey) : Nat :=
  index bits (flowKey.entry 0)

/-- What the table is for: a finite map from keys to entries. -/
abbrev FlowMap :=
  Finmap fun _ : FlowKey => FlowEntry

theorem sameFlow_eq (obj flow : FlowEntry) :
    sameFlow obj flow = decide (key obj = key flow) := by
  rw [Bool.eq_iff_iff, decide_eq_true_eq]
  simp [sameFlow, key, and_assoc]

/-- The top bits of a 16-bit hash number the lists. -/
theorem index_lt {bits : Nat} (bound : bits ≤ 16) (flow : FlowEntry) :
    index bits flow < 2 ^ bits := by
  rw [index, Nat.shiftRight_eq_div_pow]
  apply Nat.div_lt_of_lt_mul
  rw [← pow_add, Nat.sub_add_cancel bound]
  exact (flowHash flow).isLt

/-! ## The linked entries -/

/-- All entries that are linked in the table. -/
def entries (table : FlowTable) : List FlowEntry :=
  (table.lists.getD []).flatten

/-- The table is initialised and its lists hold exactly the entries of the map. -/
structure Linked (bits : Nat) (table : FlowTable) (map : FlowMap) :
    Prop where
  bits_le : bits ≤ 16
  bits_eq : table.bits = bits
  lists :
    ∃ buckets, table.lists = some buckets ∧
      Represents key (slot bits) buckets map

section Linked

variable {bits : Nat} {table : FlowTable} {map : FlowMap}

theorem Linked.isNone_eq (linked : Linked bits table map) :
    table.lists.isNone = false := by
  rcases linked.lists with ⟨buckets, stored, _⟩
  rw [stored]
  rfl

/-- Every list access is inside the array. -/
theorem Linked.bucket_eq
    (linked : Linked bits table map) (flow : FlowEntry) :
    ∃ buckets, table.lists = some buckets ∧
      Represents key (slot bits) buckets map ∧
        bucket table flow =
          some (bucketOf (slot bits) buckets (key flow)) := by
  rcases linked.lists with ⟨buckets, stored, represents⟩
  refine ⟨buckets, stored, represents, ?_⟩
  rw [bucket, stored, linked.bits_eq]
  exact represents.getElem?_slot (key flow)

theorem Linked.scanDuplicate_eq
    (linked : Linked bits table map) (flow : FlowEntry) :
    scanDuplicate table flow = some (decide (key flow ∈ map)) := by
  rcases linked.bucket_eq flow with ⟨buckets, _, represents, inside⟩
  rw [scanDuplicate, inside, Option.bind_eq_bind, Option.bind_some,
    Option.pure_def, Option.some.injEq, Bool.eq_iff_iff,
    decide_eq_true_eq, represents.mem_iff]
  simp [sameFlow_eq]

/-- Storing a list that represents another map. -/
theorem Linked.setBucket_linked
    (linked : Linked bits table map) {buckets : List (List FlowEntry)}
    (stored : table.lists = some buckets)
    {flow : FlowEntry} {list : List FlowEntry} {changed : FlowMap}
    (represents :
      Represents key (slot bits)
        (buckets.set (slot bits (key flow)) list) changed) :
    Linked bits (setBucket table flow list) changed where
  bits_le := linked.bits_le
  bits_eq := linked.bits_eq
  lists :=
    ⟨_, by rw [setBucket, stored, linked.bits_eq]; rfl, represents⟩

/-- Adding an absent flow at the head of its list. -/
theorem Linked.addHead_eq
    (linked : Linked bits table map) {flow : FlowEntry}
    (absent : key flow ∉ map) :
    ∃ added, addHead table flow = some added ∧
      Linked bits added (map.insert (key flow) flow) ∧
        added.numFlows = table.numFlows := by
  rcases linked.bucket_eq flow with ⟨buckets, stored, represents, inside⟩
  refine
    ⟨setBucket table flow
        (flow :: bucketOf (slot bits) buckets (key flow)),
      ?_, linked.setBucket_linked stored (represents.insert absent), rfl⟩
  rw [addHead, inside]
  rfl

/-- Deleting a present flow from its list. -/
theorem Linked.findAndDelete_of_mem
    (linked : Linked bits table map) {flow : FlowEntry}
    (present : key flow ∈ map) :
    ∃ rest, findAndDelete table flow = some (true, rest) ∧
      Linked bits rest (map.erase (key flow)) ∧
        rest.numFlows = table.numFlows := by
  rcases linked.bucket_eq flow with ⟨buckets, stored, represents, inside⟩
  have shrunk := represents.erase present
  have found :
      ((bucketOf (slot bits) buckets (key flow)).any
        fun obj => sameFlow obj flow) = true := by
    simpa [sameFlow_eq] using (represents.mem_iff _).mp present
  refine
    ⟨setBucket table flow
        ((bucketOf (slot bits) buckets (key flow)).eraseP
          fun obj => sameFlow obj flow),
      ?_, ?_, rfl⟩
  · rw [findAndDelete, inside]
    exact if_pos found
  · simp only [sameFlow_eq]
    exact linked.setBucket_linked stored shrunk

theorem Linked.findAndDelete_of_notMem
    (linked : Linked bits table map) {flow : FlowEntry}
    (absent : key flow ∉ map) :
    findAndDelete table flow = some (false, table) := by
  rcases linked.bucket_eq flow with ⟨buckets, _, represents, inside⟩
  have missing :
      ((bucketOf (slot bits) buckets (key flow)).any
        fun obj => sameFlow obj flow) = false := by
    rw [represents.mem_iff] at absent
    simpa [sameFlow_eq] using absent
  rw [findAndDelete, inside]
  exact if_neg (Bool.eq_false_iff.mp missing)

theorem Linked.searchTable_eq
    (linked : Linked bits table map) (flow : FlowEntry) :
    searchTable table flow = some (map.lookup (key flow)) := by
  rcases linked.bucket_eq flow with ⟨buckets, _, represents, inside⟩
  rw [searchTable, linked.isNone_eq, inside, ← represents.held_eq]
  simp only [sameFlow_eq]
  rfl

/-- An entry is stored under its own key. -/
theorem Linked.eq_entry_of_lookup
    (linked : Linked bits table map) {flowKey : FlowKey} {obj : FlowEntry}
    (stored : map.lookup flowKey = some obj) :
    obj = flowKey.entry obj.bytesSent := by
  rcases linked.lists with ⟨buckets, _, represents⟩
  rw [← represents.held_eq] at stored
  rw [← key_of_findKey stored]
  rfl

/-- Rewriting the entry of a present flow. -/
theorem Linked.writeEntry_eq
    (linked : Linked bits table map) {flow obj : FlowEntry}
    (stored : map.lookup (key flow) = some obj)
    {change : FlowEntry → FlowEntry}
    (kept : ∀ obj, key (change obj) = key obj) :
    ∃ result, writeEntry table flow change = some result ∧
      Linked bits result (map.insert (key flow) (change obj)) ∧
        result.numFlows = table.numFlows := by
  rcases linked.bucket_eq flow with ⟨buckets, lists, represents, inside⟩
  have updated := represents.update kept stored
  refine
    ⟨setBucket table flow
        (updateFirst (fun obj => sameFlow obj flow) change
          (bucketOf (slot bits) buckets (key flow))),
      ?_, ?_, rfl⟩
  · rw [writeEntry, inside]
    rfl
  · simp only [sameFlow_eq]
    exact linked.setBucket_linked lists updated

theorem Linked.mem_entries_iff
    (linked : Linked bits table map) (flowKey : FlowKey) :
    flowKey ∈ (entries table).map key ↔ flowKey ∈ map := by
  rcases linked.lists with ⟨buckets, stored, represents⟩
  rw [entries, stored]
  exact represents.mem_flatten_iff flowKey

/-- No two linked entries have the same key. -/
theorem Linked.nodup_entries (linked : Linked bits table map) :
    ((entries table).map key).Nodup := by
  rcases linked.lists with ⟨buckets, stored, represents⟩
  rw [entries, stored]
  exact represents.nodup_flatten

theorem Linked.entries_addHead
    (linked : Linked bits table map) {flow : FlowEntry} {added : FlowTable}
    (grown : addHead table flow = some added) :
    (entries added).Perm (flow :: entries table) := by
  rcases linked.bucket_eq flow with ⟨buckets, stored, represents, inside⟩
  rw [addHead, inside] at grown
  cases grown
  rw [entries, entries, setBucket, stored, linked.bits_eq]
  exact flatten_set_cons_perm (represents.getElem?_slot (key flow)) flow

/-- The counter is not part of the linked entries. -/
theorem Linked.addNumFlows
    (linked : Linked bits table map) (change : BitVec 32) :
    Linked bits (addNumFlows table change) map :=
  ⟨linked.bits_le, linked.bits_eq, linked.lists⟩

end Linked

/-! ## The table of a map -/

/-- The table holds the entries of the map and counts its keys in 32 bits. -/
structure Holds (bits : Nat) (table : FlowTable) (map : FlowMap) :
    Prop extends Linked bits table map where
  numFlows_eq : table.numFlows = BitVec.ofNat 32 map.keys.card

/-- As an `int`, the counter is right as long as it does not overflow. -/
theorem toInt_ofNat_eq_iff (number : Nat) :
    (BitVec.ofNat 32 number).toInt = number ↔ number < 2 ^ 31 := by
  constructor
  · intro exact_count
    have bounded := BitVec.toInt_lt (x := BitVec.ofNat 32 number)
    rw [exact_count] at bounded
    exact_mod_cast bounded
  · intro small
    rw [BitVec.toInt_ofNat']
    exact Int.bmod_eq_of_le (by omega) (by omega)

/-- A successful `init_table` makes the table of the empty map. -/
theorem holds_initTable
    {table initialised : FlowTable} {vmalloc : Bool} {bits : Nat}
    (success : initTable vmalloc table bits = (true, initialised)) :
    Holds bits initialised ∅ := by
  rw [initTable] at success
  split_ifs at success with large allocated
  · simp at success
  · cases success
    have bound : bits ≤ 16 := not_lt.mp large
    refine ⟨⟨bound, rfl, ⟨_, rfl, ?_⟩⟩, by simp⟩
    exact Represents.empty fun wanted => index_lt bound _
  · simp at success

section Operations

variable {bits : Nat} {table : FlowTable} {map : FlowMap}

/-! ## Sequential calls -/

/-- An insert that fails leaves the table as it was. -/
theorem Holds.insertTable_of_failed
    (holds : Holds bits table map) {kmalloc : Bool} {flow : FlowEntry}
    (failed : ¬ (key flow ∉ map ∧ kmalloc)) :
    insertTable kmalloc table flow = some (false, table) := by
  rw [insertTable, holds.isNone_eq, holds.scanDuplicate_eq]
  by_cases present : key flow ∈ map
  · simp [present]
  · have exhausted : kmalloc = false := by
      simpa [present] using failed
    simp [present, exhausted]

theorem Holds.insertTable_of_notMem
    (holds : Holds bits table map) {flow : FlowEntry} (absent : key flow ∉ map) :
    ∃ result, insertTable true table flow = some (true, result) ∧
      Holds bits result (map.insert (key flow) flow) := by
  rcases holds.addHead_eq absent with ⟨added, stored, linked, counter⟩
  refine ⟨addNumFlows added 1, ?_, linked.addNumFlows 1, ?_⟩
  swap
  · rw [addNumFlows, counter, holds.numFlows_eq, card_keys_insert absent,
      BitVec.ofNat_add]
    rfl
  rw [insertTable, holds.isNone_eq, holds.scanDuplicate_eq]
  simp [absent, stored]

theorem Holds.deleteTable_of_mem
    (holds : Holds bits table map) {flow : FlowEntry} (present : key flow ∈ map) :
    ∃ result, deleteTable table flow = some (true, result) ∧
      Holds bits result (map.erase (key flow)) := by
  rcases holds.findAndDelete_of_mem present with
    ⟨rest, removed, linked, counter⟩
  refine ⟨addNumFlows rest (-1), ?_, linked.addNumFlows (-1), ?_⟩
  swap
  · rw [addNumFlows, counter, holds.numFlows_eq, ← card_keys_erase present,
      BitVec.ofNat_add, BitVec.add_assoc]
    exact BitVec.add_zero _
  rw [deleteTable, holds.isNone_eq, removed]
  rfl

/-- A delete of an unknown flow leaves the table as it was. -/
theorem Holds.deleteTable_of_notMem
    (holds : Holds bits table map) {flow : FlowEntry} (absent : key flow ∉ map) :
    deleteTable table flow = some (false, table) := by
  rw [deleteTable, holds.isNone_eq, holds.findAndDelete_of_notMem absent]
  rfl

/-- A write to the entry of a present flow does not change the counter. -/
theorem Holds.writeEntry_eq
    (holds : Holds bits table map) {flow obj : FlowEntry}
    (stored : map.lookup (key flow) = some obj)
    {change : FlowEntry → FlowEntry}
    (kept : ∀ obj, key (change obj) = key obj) :
    ∃ result, writeEntry table flow change = some result ∧
      Holds bits result (map.insert (key flow) (change obj)) := by
  rcases holds.toLinked.writeEntry_eq stored kept with
    ⟨result, written, linked, counter⟩
  refine ⟨result, written, linked, ?_⟩
  rw [counter, holds.numFlows_eq, keys_insert_of_lookup stored]

end Operations

/-! ## Runs -/

/-- A call of one of the operations; an insert says if its allocation works. -/
inductive Request where
  | insert (kmalloc : Bool) (flow : FlowEntry)
  | search (flow : FlowEntry)
  | delete (flow : FlowEntry)
deriving DecidableEq, Repr

/-- What a call returns. -/
inductive Reply where
  | inserted (success : Bool)
  | found (entry : Option FlowEntry)
  | deleted (success : Bool)
deriving DecidableEq, Repr

/-- One call on the table. -/
def serve (table : FlowTable) : Request → Option (Reply × FlowTable)
  | .insert kmalloc flow => do
      let (success, table) ← insertTable kmalloc table flow
      pure (.inserted success, table)
  | .search flow => do
      let entry ← searchTable table flow
      pure (.found entry, table)
  | .delete flow => do
      let (success, table) ← deleteTable table flow
      pure (.deleted success, table)

/-- A sequence of calls on the table. -/
def serveAll (table : FlowTable) :
    List Request → Option (List Reply × FlowTable)
  | [] => some ([], table)
  | request :: rest => do
      let (reply, table) ← serve table request
      let (replies, table) ← serveAll table rest
      pure (reply :: replies, table)

/-- The specification of one call on the finite map. -/
def answer (map : FlowMap) : Request → Reply × FlowMap
  | .insert kmalloc flow =>
      if key flow ∉ map ∧ kmalloc then
        (.inserted true, map.insert (key flow) flow)
      else
        (.inserted false, map)
  | .search flow => (.found (map.lookup (key flow)), map)
  | .delete flow =>
      if key flow ∈ map then
        (.deleted true, map.erase (key flow))
      else
        (.deleted false, map)

/-- The specification of a sequence of calls. -/
def answerAll (map : FlowMap) : List Request → List Reply × FlowMap
  | [] => ([], map)
  | request :: rest =>
      let (reply, map) := answer map request
      let (replies, map) := answerAll map rest
      (reply :: replies, map)

/-- One call computes what its specification computes. -/
theorem Holds.serve_eq
    {bits : Nat} {table : FlowTable} {map : FlowMap}
    (holds : Holds bits table map)
    (request : Request) :
    ∃ result, serve table request = some ((answer map request).1, result) ∧
      Holds bits result (answer map request).2 := by
  cases request with
  | insert kmalloc flow =>
      by_cases fresh : key flow ∉ map ∧ kmalloc
      · rcases holds.insertTable_of_notMem fresh.1 with
          ⟨result, inserted, kept⟩
        refine ⟨result, ?_, ?_⟩
        · rw [answer, if_pos fresh, serve, fresh.2, inserted]
          rfl
        · rw [answer, if_pos fresh]
          exact kept
      · refine ⟨table, ?_, ?_⟩
        · rw [answer, if_neg fresh, serve,
            holds.insertTable_of_failed fresh]
          rfl
        · rw [answer, if_neg fresh]
          exact holds
  | search flow =>
      refine ⟨table, ?_, holds⟩
      rw [answer, serve, holds.searchTable_eq]
      rfl
  | delete flow =>
      by_cases present : key flow ∈ map
      · rcases holds.deleteTable_of_mem present with ⟨result, deleted, kept⟩
        refine ⟨result, ?_, ?_⟩
        · rw [answer, if_pos present, serve, deleted]
          rfl
        · rw [answer, if_pos present]
          exact kept
      · refine ⟨table, ?_, ?_⟩
        · rw [answer, if_neg present, serve,
            holds.deleteTable_of_notMem present]
          rfl
        · rw [answer, if_neg present]
          exact holds

/-- A sequence of calls computes what its specification computes. -/
theorem Holds.serveAll_eq
    {bits : Nat} {table : FlowTable} {map : FlowMap}
    (holds : Holds bits table map)
    (requests : List Request) :
    ∃ result,
      serveAll table requests = some ((answerAll map requests).1, result) ∧
        Holds bits result (answerAll map requests).2 := by
  induction requests generalizing table map with
  | nil => exact ⟨table, rfl, holds⟩
  | cons request rest ih =>
      rcases holds.serve_eq request with ⟨middle, served, kept⟩
      rcases ih kept with ⟨result, servedRest, keptRest⟩
      refine ⟨result, ?_, keptRest⟩
      simp only [serveAll, served, Option.bind_eq_bind, Option.bind_some,
        servedRest]
      rfl

/--
After a successful `init_table`, every run of calls answers as a finite map
does: the replies and the entries are those of the map, and every list index
is inside the array.  `num_flows` is the number of the keys modulo `2 ^ 32`,
and as an `int` it is their number exactly while there are fewer than
`2 ^ 31`.  The number of lists appears on the side of the table only.
-/
theorem serveAll_initTable
    {vmalloc : Bool} {table initialised : FlowTable} {bits : Nat}
    (success : initTable vmalloc table bits = (true, initialised))
    (requests : List Request) :
    ∃ final,
      serveAll initialised requests =
          some ((answerAll ∅ requests).1, final) ∧
        (∀ flow,
          searchTable final flow =
            some ((answerAll ∅ requests).2.lookup (key flow))) ∧
        final.numFlows =
          BitVec.ofNat 32 (answerAll ∅ requests).2.keys.card ∧
        (final.numFlows.toInt = (answerAll ∅ requests).2.keys.card ↔
          (answerAll ∅ requests).2.keys.card < 2 ^ 31) ∧
        final.bits = bits ∧
        ∀ flow, index final.bits flow < 2 ^ bits := by
  have holds := holds_initTable success
  rcases holds.serveAll_eq requests with ⟨final, served, kept⟩
  refine
    ⟨final, served, kept.searchTable_eq, kept.numFlows_eq, ?_, kept.bits_eq,
      ?_⟩
  · rw [kept.numFlows_eq]
    exact toInt_ofNat_eq_iff _
  · rw [kept.bits_eq]
    exact index_lt kept.bits_le

/-- A run on the table that the module initialises, with 256 lists. -/
theorem serveAll_initTable_module :
    ∃ final,
      serveAll (initTable true ⟨none, 0, 0⟩ 8).2
          [.insert true ⟨1, 2, 3, 4, 60⟩, .search ⟨1, 2, 3, 4, 0⟩,
            .delete ⟨1, 2, 3, 4, 0⟩] =
          some
            ((answerAll ∅
              [.insert true ⟨1, 2, 3, 4, 60⟩, .search ⟨1, 2, 3, 4, 0⟩,
                .delete ⟨1, 2, 3, 4, 0⟩]).1, final) ∧
        (∀ flow,
          searchTable final flow =
            some
              ((answerAll ∅
                [.insert true ⟨1, 2, 3, 4, 60⟩, .search ⟨1, 2, 3, 4, 0⟩,
                  .delete ⟨1, 2, 3, 4, 0⟩]).2.lookup (key flow))) ∧
        final.numFlows =
          BitVec.ofNat 32
            (answerAll ∅
              [.insert true ⟨1, 2, 3, 4, 60⟩, .search ⟨1, 2, 3, 4, 0⟩,
                .delete ⟨1, 2, 3, 4, 0⟩]).2.keys.card ∧
        (final.numFlows.toInt =
            (answerAll ∅
              [.insert true ⟨1, 2, 3, 4, 60⟩, .search ⟨1, 2, 3, 4, 0⟩,
                .delete ⟨1, 2, 3, 4, 0⟩]).2.keys.card ↔
          (answerAll ∅
            [.insert true ⟨1, 2, 3, 4, 60⟩, .search ⟨1, 2, 3, 4, 0⟩,
              .delete ⟨1, 2, 3, 4, 0⟩]).2.keys.card < 2 ^ 31) ∧
        final.bits = 8 ∧
        ∀ flow, index final.bits flow < 2 ^ 8 :=
  serveAll_initTable
    (show
      initTable true ⟨none, 0, 0⟩ 8 =
        (true, (initTable true ⟨none, 0, 0⟩ 8).2) from rfl)
    _

/-! ## More flows than the counter can count -/

/-- So many flows that differ in their local address. -/
def manyFlows (number : Nat) : List FlowEntry :=
  (List.range number).map fun address =>
    { localIp := BitVec.ofNat 32 address
      remoteIp := 0
      localPort := 0
      remotePort := 0
      bytesSent := 0 }

theorem manyFlows_length (number : Nat) :
    (manyFlows number).length = number := by
  rw [manyFlows, List.length_map, List.length_range]

theorem manyFlows_nodup {number : Nat} (bound : number ≤ 2 ^ 32) :
    ((manyFlows number).map key).Nodup := by
  rw [manyFlows, List.map_map]
  apply List.Nodup.map_on _ List.nodup_range
  intro first first_in second second_in same
  rw [List.mem_range] at first_in second_in
  have address : BitVec.ofNat 32 first = BitVec.ofNat 32 second :=
    congrArg FlowKey.localIp same
  have numbers := congrArg BitVec.toNat address
  rwa [BitVec.toNat_ofNat, BitVec.toNat_ofNat,
    Nat.mod_eq_of_lt (by omega), Nat.mod_eq_of_lt (by omega)] at numbers

/-- Flows that are absent from a map are still absent after one of them. -/
theorem absent_of_nodup
    {map : FlowMap} {flow : FlowEntry} {rest : List FlowEntry}
    (distinct : key flow ∉ rest.map key)
    (absent : ∀ other ∈ rest, key other ∉ map) :
    ∀ other ∈ rest, key other ∉ map.insert (key flow) flow := by
  intro other member present
  rcases Finmap.mem_insert.mp present with same | old
  · apply distinct
    rw [← same]
    exact List.mem_map_of_mem member
  · exact absent other member old

/-- Every insert of a flow that is not there adds one key. -/
theorem card_answerAll_insert
    {map : FlowMap} {flows : List FlowEntry}
    (distinct : (flows.map key).Nodup)
    (absent : ∀ flow ∈ flows, key flow ∉ map) :
    (answerAll map (flows.map (.insert true))).2.keys.card =
      map.keys.card + flows.length := by
  induction flows generalizing map with
  | nil => rfl
  | cons flow rest ih =>
      rw [List.map_cons, List.nodup_cons] at distinct
      have fresh := absent flow List.mem_cons_self
      have absentRest :=
        absent_of_nodup distinct.1 fun other member =>
          absent other (List.mem_cons_of_mem _ member)
      have inserted := ih distinct.2 absentRest
      rw [card_keys_insert fresh] at inserted
      rw [List.map_cons, answerAll, answer, if_pos ⟨fresh, rfl⟩,
        List.length_cons, inserted]
      omega

/-- `2 ^ 31` inserts that succeed leave a negative number of flows. -/
theorem exists_numFlows_negative :
    ∃ final,
      serveAll (initTable true ⟨none, 0, 0⟩ 8).2
          ((manyFlows (2 ^ 31)).map (.insert true)) =
        some
          ((answerAll ∅ ((manyFlows (2 ^ 31)).map (.insert true))).1,
            final) ∧
      (answerAll ∅
          ((manyFlows (2 ^ 31)).map (.insert true))).2.keys.card =
        2 ^ 31 ∧
      final.numFlows.toInt = -2 ^ 31 := by
  have holds :
      Holds 8 (initTable true ⟨none, 0, 0⟩ 8).2 ∅ :=
    holds_initTable
      (show
        initTable true ⟨none, 0, 0⟩ 8 =
          (true, (initTable true ⟨none, 0, 0⟩ 8).2) from rfl)
  rcases holds.serveAll_eq ((manyFlows (2 ^ 31)).map (.insert true)) with
    ⟨final, served, kept⟩
  have keys :
      (answerAll ∅
          ((manyFlows (2 ^ 31)).map (.insert true))).2.keys.card =
        2 ^ 31 := by
    have absent :
        ∀ flow ∈ manyFlows (2 ^ 31), key flow ∉ (∅ : FlowMap) := by
      intro flow _
      exact Finmap.notMem_empty
    rw [card_answerAll_insert (manyFlows_nodup (by decide)) absent,
      manyFlows_length, Finmap.keys_empty, Finset.card_empty, Nat.zero_add]
  refine ⟨final, served, keys, ?_⟩
  rw [kept.numFlows_eq, keys]
  rfl

end CodingExamples.FlowTracker.TableMap
