import CodingExamples.FlowTracker.BytesSent
import CodingExamples.FlowTracker.Module

/-!
# The memory of the flow table

The life of the module is modelled with the memory of the table only, and the
table with what its lists store.  This module relates the two: the memory
follows every operation of the table, so that whatever the hook for outgoing
packets makes of the table between a load and an unload is a run of the
module.  A loaded module then holds one block for the array of lists and one
for each entry that is linked.
-/

namespace CodingExamples.FlowTracker.ModuleTable

open CodingExamples.Library
open CodingExamples.Library.Execution
open CodingExamples.FlowTracker.BytesSent
open CodingExamples.FlowTracker.Hook
open CodingExamples.FlowTracker.Module (Accounted Kernel TableMemory blocks)
open CodingExamples.FlowTracker.Table
open CodingExamples.FlowTracker.TableMap

/-- The memory has a block for each entry of each list of the table. -/
structure Stores (memory : TableMemory) (table : FlowTable) : Prop where
  allocated : memory.lists.isSome = table.lists.isSome
  lengths :
    ∀ lists, table.lists = some lists →
      memory.heads.map List.length = lists.map List.length
  bits_eq : memory.bits = table.bits
  numFlows_eq : memory.numFlows = table.numFlows

/-- The static data of an image. -/
theorem stores_zeroTable : Stores Module.zeroTable ⟨none, 0, 0⟩ where
  allocated := rfl
  lengths := by
    intro lists impossible
    cases impossible
  bits_eq := rfl
  numFlows_eq := rfl

/-! ## The operations of the table -/

section Operations

variable {table result : FlowTable} {flow : FlowEntry} {answer : Bool}

/-- `insert_table` changes nothing, or links the entry and counts it. -/
theorem insertTable_cases
    {kmalloc : Bool}
    (returned : insertTable kmalloc table flow = some (answer, result)) :
    answer = false ∧ result = table ∨
      answer = true ∧ ∃ list, bucket table flow = some list ∧
        result = addNumFlows (setBucket table flow (flow :: list)) 1 := by
  rw [insertTable] at returned
  split at returned
  · cases returned
    exact Or.inl ⟨rfl, rfl⟩
  · rw [Option.bind_eq_bind, Option.bind_eq_some_iff] at returned
    rcases returned with ⟨duplicate, _, returned⟩
    split at returned
    · cases returned
      exact Or.inl ⟨rfl, rfl⟩
    · split at returned
      · cases returned
        exact Or.inl ⟨rfl, rfl⟩
      · rw [Option.bind_eq_bind, Option.bind_eq_some_iff] at returned
        rcases returned with ⟨added, grown, same⟩
        cases same
        rw [addHead, Option.bind_eq_bind, Option.bind_eq_some_iff] at grown
        rcases grown with ⟨list, found, same⟩
        cases same
        exact Or.inr ⟨rfl, list, found, rfl⟩

/-- `delete_table` changes nothing, or unlinks the first entry of the flow. -/
theorem deleteTable_cases
    (returned : deleteTable table flow = some (answer, result)) :
    answer = false ∧ result = table ∨
      answer = true ∧ ∃ list, bucket table flow = some list ∧
        (∃ obj ∈ list, sameFlow obj flow) ∧
        result =
          addNumFlows
            (setBucket table flow
              (list.eraseP fun obj => sameFlow obj flow))
            (-1) := by
  rw [deleteTable] at returned
  split at returned
  · cases returned
    exact Or.inl ⟨rfl, rfl⟩
  · rw [Option.bind_eq_bind, Option.bind_eq_some_iff] at returned
    rcases returned with ⟨⟨deleted, rest⟩, scanned, returned⟩
    rw [findAndDelete, Option.bind_eq_bind, Option.bind_eq_some_iff]
      at scanned
    rcases scanned with ⟨list, found, scanned⟩
    split at scanned
    · case isTrue present =>
        cases scanned
        cases returned
        rw [List.any_eq_true] at present
        exact Or.inr ⟨rfl, list, found, present, rfl⟩
    · cases scanned
      cases returned
      exact Or.inl ⟨rfl, rfl⟩

theorem guarded_cases
    {flag : Bool} {operation : Option (Bool × FlowTable)}
    (returned : guarded flag table operation = some (answer, result)) :
    answer = false ∧ result = table ∨ operation = some (answer, result) := by
  rw [guarded] at returned
  split at returned
  · exact Or.inr returned
  · cases returned
    exact Or.inl ⟨rfl, rfl⟩

/-- A call that returns false leaves the table as it was. -/
theorem eq_of_guarded_false
    {flag : Bool} {operation : Option (Bool × FlowTable)}
    (failed :
      ∀ rest, operation = some (false, rest) → rest = table)
    (returned : guarded flag table operation = some (false, result)) :
    result = table := by
  rcases guarded_cases returned with ⟨_, same⟩ | ran
  · exact same
  · exact failed result ran

/-- A packet leaves the table, or makes one of three changes. -/
theorem trackFlow_cases
    {kmalloc : Bool} {tcph : TcpHeader} {len verdict : BitVec 32}
    (handled : trackFlow kmalloc table tcph len flow = some (verdict, result)) :
    result = table ∨
      insertTable kmalloc table flow = some (true, result) ∨
      deleteTable table flow = some (true, result) ∨
      ∃ change, writeEntry table flow change = some result := by
  rw [trackFlow, Option.bind_eq_bind, Option.bind_eq_some_iff] at handled
  rcases handled with ⟨⟨inserted, first⟩, insertion, handled⟩
  cases inserted with
  | true =>
      cases handled
      rcases guarded_cases insertion with ⟨impossible, _⟩ | ran
      · cases impossible
      · exact Or.inr (Or.inl ran)
  | false =>
      have unchanged : first = table := by
        apply eq_of_guarded_false _ insertion
        intro rest ran
        rcases insertTable_cases ran with ⟨_, same⟩ | ⟨impossible, _⟩
        · exact same
        · cases impossible
      rw [unchanged] at handled
      simp only [Bool.false_eq_true, if_false] at handled
      rw [Option.bind_eq_bind, Option.bind_eq_some_iff] at handled
      rcases handled with ⟨⟨deleted, second⟩, deletion, handled⟩
      cases deleted with
      | true =>
          cases handled
          rcases guarded_cases deletion with ⟨impossible, _⟩ | ran
          · cases impossible
          · exact Or.inr (Or.inr (Or.inl ran))
      | false =>
          have unchanged : second = table := by
            apply eq_of_guarded_false _ deletion
            intro rest ran
            rcases deleteTable_cases ran with ⟨_, same⟩ | ⟨impossible, _⟩
            · exact same
            · cases impossible
          rw [unchanged] at handled
          simp only [Bool.false_eq_true, if_false] at handled
          rw [Option.bind_eq_bind, Option.bind_eq_some_iff] at handled
          rcases handled with ⟨entry, searched, handled⟩
          cases entry with
          | none =>
              cases handled
              exact Or.inl rfl
          | some entry =>
              dsimp only at handled
              rw [Option.bind_eq_some_iff] at handled
              rcases handled with ⟨rest, written, same⟩
              cases same
              exact Or.inr (Or.inr (Or.inr ⟨_, written⟩))

end Operations

/-! ## Memory -/

section Memory

variable {kernel : Kernel} {memory : TableMemory} {table : FlowTable}

theorem Stores.initTable
    (stores : Stores kernel.table table) (vmalloc : Bool) (bits : Nat) :
    (Module.initTable vmalloc kernel bits).1 =
        (Table.initTable vmalloc table bits).1 ∧
      Stores (Module.initTable vmalloc kernel bits).2.table
        (Table.initTable vmalloc table bits).2 := by
  rw [Module.initTable, Table.initTable]
  split_ifs with large
  · exact ⟨rfl, stores⟩
  · refine ⟨rfl, rfl, ?_, rfl, rfl⟩
    intro lists same
    cases same
    rw [Nat.one_shiftLeft, List.map_replicate, List.map_replicate]
    rfl
  · refine ⟨rfl, rfl, ?_, stores.bits_eq, stores.numFlows_eq⟩
    intro lists impossible
    cases impossible

/-- Both have the list that a flow belongs to. -/
theorem Stores.heads_eq
    (stores : Stores memory table)
    {flow : FlowEntry} {list : List FlowEntry}
    (found : bucket table flow = some list) :
    ∃ addresses,
      memory.heads[index table.bits flow]? = some addresses ∧
        addresses.length = list.length := by
  rw [bucket, Option.bind_eq_bind, Option.bind_eq_some_iff] at found
  rcases found with ⟨lists, stored, at_index⟩
  have same :
      (memory.heads.map List.length)[index table.bits flow]? =
        some list.length := by
    rw [stores.lengths lists stored, List.getElem?_map, at_index]
    rfl
  rw [List.getElem?_map, Option.map_eq_some_iff] at same
  exact same

/-- A list is replaced by one with as many entries. -/
theorem Stores.setBucket
    (stores : Stores memory table)
    {list : List FlowEntry} {addresses : List Nat}
    (length : addresses.length = list.length) (flow : FlowEntry) :
    Stores
      { memory with
        heads := memory.heads.set (index table.bits flow) addresses }
      (setBucket table flow list) where
  allocated := by
    rw [stores.allocated]
    exact (Option.isSome_map).symm
  lengths := by
    intro lists stored
    rcases Option.map_eq_some_iff.mp stored with ⟨before, same, rfl⟩
    rw [List.map_set, List.map_set, stores.lengths before same, length]
  bits_eq := stores.bits_eq
  numFlows_eq := stores.numFlows_eq

theorem Stores.addNumFlows
    (stores : Stores memory table) (change : BitVec 32) :
    Stores { memory with numFlows := memory.numFlows + change }
      (addNumFlows table change) where
  allocated := stores.allocated
  lengths := stores.lengths
  bits_eq := stores.bits_eq
  numFlows_eq := congrArg (· + change) stores.numFlows_eq

/-- An entry that is inserted gets a block in the list of its flow. -/
theorem Stores.insertEntry
    (stores : Stores kernel.table table)
    {flow : FlowEntry} {list : List FlowEntry}
    (found : bucket table flow = some list) :
    ∃ inserted,
      Module.insertEntry kernel (index table.bits flow) = some inserted ∧
        Stores inserted.table
          (Table.addNumFlows
            (Table.setBucket table flow (flow :: list)) 1) := by
  rcases stores.heads_eq found with ⟨addresses, at_index, length⟩
  refine ⟨_, by rw [Module.insertEntry, at_index]; rfl, ?_⟩
  have longer :
      (kernel.nextAddress :: addresses).length = (flow :: list).length := by
    rw [List.length_cons, List.length_cons, length]
  exact (stores.setBucket longer flow).addNumFlows 1

/-- The block of an entry that is deleted is at the position of the entry. -/
theorem Stores.deleteEntry
    (stores : Stores kernel.table table)
    {flow : FlowEntry} {list : List FlowEntry}
    (found : bucket table flow = some list)
    (present : ∃ obj ∈ list, sameFlow obj flow) :
    ∃ deleted,
      Module.deleteEntry kernel (index table.bits flow)
          (list.findIdx fun obj => sameFlow obj flow) =
          some deleted ∧
        Stores deleted.table
          (Table.addNumFlows
            (Table.setBucket table flow
              (list.eraseP fun obj => sameFlow obj flow))
            (-1)) := by
  rcases stores.heads_eq found with ⟨addresses, at_index, length⟩
  have inside :
      (list.findIdx fun obj => sameFlow obj flow) < addresses.length := by
    rw [length]
    exact List.findIdx_lt_length_of_exists present
  rcases present with ⟨obj, member, same⟩
  refine
    ⟨_,
      by
        rw [Module.deleteEntry, at_index, Option.bind_eq_bind,
          Option.bind_some, List.getElem?_eq_getElem inside]
        rfl,
      ?_⟩
  have shorter :
      (addresses.eraseIdx
          (list.findIdx fun obj => sameFlow obj flow)).length =
        (list.eraseP fun obj => sameFlow obj flow).length := by
    rw [List.length_eraseIdx_of_lt inside,
      List.length_eraseP_of_mem member same, length]
  have kept := (stores.setBucket shorter flow).addNumFlows (-1)
  rw [← BitVec.sub_eq_add_neg] at kept
  exact kept

/-- A write through a pointer into the table moves no block. -/
theorem Stores.writeEntry
    (stores : Stores memory table)
    {flow : FlowEntry} {change : FlowEntry → FlowEntry} {result : FlowTable}
    (written : writeEntry table flow change = some result) :
    Stores memory result := by
  rw [Table.writeEntry, Option.bind_eq_bind, Option.bind_eq_some_iff]
    at written
  rcases written with ⟨list, found, same⟩
  cases same
  rcases stores.heads_eq found with ⟨addresses, at_index, length⟩
  have written :
      addresses.length =
        (BucketTable.updateFirst (fun obj => sameFlow obj flow) change
          list).length := by
    rw [BucketTable.length_updateFirst, length]
  have kept := stores.setBucket written flow
  rcases List.getElem?_eq_some_iff.mp at_index with ⟨inside, rfl⟩
  rw [List.set_getElem_self] at kept
  exact kept

end Memory

/-! ## Runs -/

/-- The module is loaded, and its memory holds what the table links. -/
structure Tracks (table : FlowTable) (kernel : Kernel) : Prop where
  accounted : Accounted kernel
  loaded : kernel.phase = .loaded
  stores : Stores kernel.table table

section Runs

variable {kernel : Kernel} {table : FlowTable}

/-- The hook for outgoing packets of a loaded module can run. -/
theorem Tracks.enabled (tracks : Tracks table kernel) :
    kernel.phase ≠ .unloaded ∧ Module.outHooked kernel := by
  constructor
  · rw [tracks.loaded]
    intro impossible
    cases impossible
  · rw [Module.outHooked, tracks.accounted.hooks, tracks.loaded]
    simp [Module.hooksAt]

/-- A loaded module holds the array of lists and a block for each entry. -/
theorem Tracks.length_heap (tracks : Tracks table kernel) :
    kernel.heap.length = (entries table).length + 1 := by
  rcases tracks.accounted.held tracks.enabled.1 with ⟨allocated, _, owned⟩
  have initialised := tracks.stores.allocated.symm.trans allocated
  rcases Option.isSome_iff_exists.mp allocated with ⟨address, array⟩
  rcases Option.isSome_iff_exists.mp initialised with ⟨lists, stored⟩
  rw [owned.length_eq, blocks, array, entries, stored]
  simp [List.length_flatten, tracks.stores.lengths lists stored]

/-- An entry is linked by a step of the module. -/
theorem Tracks.insertEntry
    (tracks : Tracks table kernel)
    {flow : FlowEntry} {list : List FlowEntry}
    (found : bucket table flow = some list) :
    ∃ after, Reachable Module.next kernel after ∧
      Tracks
        (Table.addNumFlows (setBucket table flow (flow :: list)) 1) after := by
  rcases tracks.stores.insertEntry found with ⟨after, inserted, stores⟩
  have step :
      Module.next kernel (.insert (index table.bits flow)) = some after := by
    rw [Module.next, if_pos tracks.enabled]
    exact inserted
  refine ⟨after, Reachable.single step, ?_, ?_, stores⟩
  · apply Module.next_accounted tracks.accounted _ step
    trivial
  · rw [Module.phase_of_insertEntry inserted, tracks.loaded]

/-- An entry is unlinked by a step of the module. -/
theorem Tracks.deleteEntry
    (tracks : Tracks table kernel)
    {flow : FlowEntry} {list : List FlowEntry}
    (found : bucket table flow = some list)
    (present : ∃ obj ∈ list, sameFlow obj flow) :
    ∃ after, Reachable Module.next kernel after ∧
      Tracks
        (Table.addNumFlows
          (setBucket table flow (list.eraseP fun obj => sameFlow obj flow))
          (-1))
        after := by
  rcases tracks.stores.deleteEntry found present with
    ⟨after, deleted, stores⟩
  have step :
      Module.next kernel
          (.delete (index table.bits flow)
            (list.findIdx fun obj => sameFlow obj flow)) =
        some after := by
    rw [Module.next, if_pos tracks.enabled]
    exact deleted
  refine ⟨after, Reachable.single step, ?_, ?_, stores⟩
  · apply Module.next_accounted tracks.accounted _ step
    trivial
  · rw [Module.phase_of_deleteEntry deleted, tracks.loaded]

theorem Tracks.trackFlow
    (tracks : Tracks table kernel)
    {kmalloc : Bool} {tcph : TcpHeader} {len verdict : BitVec 32}
    {flow : FlowEntry} {result : FlowTable}
    (handled :
      trackFlow kmalloc table tcph len flow = some (verdict, result)) :
    ∃ after, Reachable Module.next kernel after ∧ Tracks result after := by
  rcases trackFlow_cases handled with
    rfl | inserted | deleted | ⟨change, written⟩
  · exact ⟨kernel, Reachable.refl kernel, tracks⟩
  · rcases insertTable_cases inserted with
      ⟨impossible, _⟩ | ⟨_, list, found, rfl⟩
    · cases impossible
    · exact tracks.insertEntry found
  · rcases deleteTable_cases deleted with
      ⟨impossible, _⟩ | ⟨_, list, found, present, rfl⟩
    · cases impossible
    · exact tracks.deleteEntry found present
  · exact
      ⟨kernel, Reachable.refl kernel, tracks.accounted, tracks.loaded,
        tracks.stores.writeEntry written⟩

/-- The memory of the module follows the table over a packet. -/
theorem Tracks.handle
    (tracks : Tracks table kernel)
    {params : Parameters} {sent : Sent} {result : FlowTable}
    (step : handle params table sent = some result) :
    ∃ after, Reachable Module.next kernel after ∧ Tracks result after := by
  rw [BytesSent.handle, Option.map_eq_some_iff] at step
  rcases step with ⟨⟨verdict, rest⟩, handled, rfl⟩
  cases accepted : acceptedKey params sent.packet with
  | none =>
      rw [hookFuncOut_of_filtered accepted] at handled
      cases handled
      exact ⟨kernel, Reachable.refl kernel, tracks⟩
  | some flowKey =>
      rw [hookFuncOut_of_accepted accepted] at handled
      exact tracks.trackFlow handled

/-- After a load the module tracks the table that `init_table` leaves. -/
theorem exists_tracks_of_load
    (accounted : Accounted kernel) (unloaded : kernel.phase = .unloaded)
    (paramDev : Option (List (BitVec 8))) :
    ∃ loaded, Reachable Module.next kernel loaded ∧
      Tracks (initTable true ⟨none, 0, 0⟩ 8).2 loaded := by
  have stores :
      Stores (Module.flowTrackerInit paramDev true kernel).table
        (initTable true ⟨none, 0, 0⟩ 8).2 := by
    have zero :
        Stores
          { kernel with
            image := kernel.image + 1
            paramDev := paramDev.map Module.trim
            table := Module.zeroTable : Kernel }.table
          ⟨none, 0, 0⟩ :=
      stores_zeroTable
    exact (zero.initTable true 8).2
  have initialised :
      Module.next kernel (.init paramDev true) =
        some (Module.flowTrackerInit paramDev true kernel) := by
    rw [Module.next, if_pos unloaded]
  have accountedFirst :
      Accounted (Module.flowTrackerInit paramDev true kernel) := by
    apply Module.next_accounted accounted _ initialised
    trivial
  have registeredOut :
      Module.next (Module.flowTrackerInit paramDev true kernel)
          (.registerOut false) =
        some
          (Module.registerStep false .nfHookOut .registeringIn
            (Module.flowTrackerInit paramDev true kernel)) :=
    rfl
  have accountedOut :
      Accounted
        (Module.registerStep false .nfHookOut .registeringIn
          (Module.flowTrackerInit paramDev true kernel)) := by
    apply Module.next_accounted accountedFirst _ registeredOut
    rfl
  have registeredIn :
      Module.next
          (Module.registerStep false .nfHookOut .registeringIn
            (Module.flowTrackerInit paramDev true kernel))
          (.registerIn false) =
        some
          (Module.registerStep false .nfHookIn .loaded
            (Module.registerStep false .nfHookOut .registeringIn
              (Module.flowTrackerInit paramDev true kernel))) :=
    rfl
  have accountedIn :
      Accounted
        (Module.registerStep false .nfHookIn .loaded
          (Module.registerStep false .nfHookOut .registeringIn
            (Module.flowTrackerInit paramDev true kernel))) := by
    apply Module.next_accounted accountedOut _ registeredIn
    rfl
  have reached :=
    ((Reachable.single initialised).trans
      (Reachable.single registeredOut)).trans (Reachable.single registeredIn)
  exact ⟨_, reached, accountedIn, rfl, stores⟩

/--
Whatever packets the hook handles after a load, a run of the module leads to
where its memory stores the table that they leave: it holds one block for the
array of lists and one for each linked entry.
-/
theorem exists_reachable_stores
    (accounted : Accounted kernel) (unloaded : kernel.phase = .unloaded)
    {params : Parameters} {packets : List Sent} {final : FlowTable}
    (ran :
      run (handle params) (initTable true ⟨none, 0, 0⟩ 8).2 packets =
        some final) :
    ∃ after,
      Reachable Module.next kernel after ∧
        after.phase = .loaded ∧
        Stores after.table final ∧
        after.heap.length = (entries final).length + 1 := by
  rcases exists_tracks_of_load accounted unloaded params.paramDev with
    ⟨loaded, reached, tracks⟩
  have simulated
      (table : FlowTable) (sent : Sent) (result : FlowTable)
      (kernel : Kernel) (tracks : Tracks table kernel)
      (step : handle params table sent = some result) :
      ∃ after, Reachable Module.next kernel after ∧ Tracks result after :=
    tracks.handle step
  rcases Reachable.simulated simulated tracks ⟨packets, ran⟩ with
    ⟨after, reachedAfter, tracksAfter⟩
  exact
    ⟨after, reached.trans reachedAfter, tracksAfter.loaded,
      tracksAfter.stores, tracksAfter.length_heap⟩

end Runs

end CodingExamples.FlowTracker.ModuleTable
