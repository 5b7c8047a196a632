import CodingExamples.FlowTracker.Hook
import CodingExamples.Library.Execution

/-!
# The counter of a flow

`bytes_sent` has 32 bits, and a flow may stay in the table for any number of
packets.  The counter is the number of bytes since the entry was inserted,
modulo `2 ^ 32`, and it falls back as soon as that number does not fit.

In a run any packet may find that there is no memory for an entry.
-/

namespace CodingExamples.FlowTracker.BytesSent

open CodingExamples.FlowTracker.Hook
open CodingExamples.FlowTracker.Table
open CodingExamples.FlowTracker.TableMap
open CodingExamples.Library.Execution

/-- A packet, and whether an entry can be allocated for it. -/
structure Sent where
  kmalloc : Bool
  packet : Outgoing
deriving DecidableEq, Repr

/-- The table after a packet has been handled. -/
def handle (params : Parameters) (table : FlowTable) (sent : Sent) :
    Option FlowTable :=
  (hookFuncOut params sent.kmalloc table sent.packet).map Prod.snd

/-- If the packet leaves the flow in the table, its counter does not fall. -/
def Grows (params : Parameters) (flowKey : FlowKey) (table : FlowTable)
    (sent : Sent) : Prop :=
  ∀ result first second,
    handle params table sent = some result →
      searchTable table (flowKey.entry 0) = some (some first) →
        searchTable result (flowKey.entry 0) = some (some second) →
          first.bytesSent ≤ second.bytesSent

/-- The counter of a flow never decreases while its entry stays. -/
def NeverDecreases (params : Parameters) (table : FlowTable)
    (flowKey : FlowKey) (packets : List Sent) : Prop :=
  Along (handle params) (Grows params flowKey) table packets

/-! ## The number of bytes -/

/-- The bytes since the entry was inserted, with a packet of the flow. -/
def addBytes : Option Nat → Sent → Option Nat
  | none, sent =>
      if sent.kmalloc && sent.packet.skb.tcpHdr.syn then
        some sent.packet.skb.len.toNat
      else
        none
  | some total, sent =>
      if sent.packet.skb.tcpHdr.fin || sent.packet.skb.tcpHdr.rst then
        none
      else
        some (total + sent.packet.skb.len.toNat)

/-- Only the accepted packets of the flow count. -/
def countPacket (params : Parameters) (flowKey : FlowKey)
    (total : Option Nat) (sent : Sent) : Option Nat :=
  if acceptedKey params sent.packet = some flowKey then
    addBytes total sent
  else
    total

/-- The number of bytes fits into the counter. -/
def Fits (total : Option Nat) : Prop :=
  ∀ count, total = some count → count < 4294967296

/-- What the packets of a run amount to fits into the counter at all times. -/
def AlwaysFits (params : Parameters) (flowKey : FlowKey)
    (total : Option Nat) (packets : List Sent) : Prop :=
  ∀ before after,
    packets = before ++ after →
      Fits (before.foldl (countPacket params flowKey) total)

/-! ## One packet -/

section Packet

variable {bits : Nat} {table : FlowTable} {map : FlowMap}

/-- Without memory a new flow is not inserted. -/
theorem trackFlow_of_exhausted
    (holds : Holds bits table map) (packet : Outgoing)
    {flowKey : FlowKey} (absent : flowKey ∉ map) :
    trackFlow false table packet.skb.tcpHdr packet.skb.len
        (flowKey.entry packet.skb.len) =
      some (nfAccept, table) := by
  have unknown : key (flowKey.entry packet.skb.len) ∉ map := absent
  have insertion :
      insertTable false table (flowKey.entry packet.skb.len) =
        some (false, table) :=
    holds.insertTable_of_failed fun fresh => Bool.false_ne_true fresh.2
  have deletion (close : Bool) :
      guarded close table (deleteTable table (flowKey.entry packet.skb.len)) =
        some (false, table) := by
    rw [holds.deleteTable_of_notMem unknown, guarded_false]
  have search :
      searchTable table (flowKey.entry packet.skb.len) = some none := by
    rw [holds.searchTable_eq]
    exact congrArg some (Finmap.lookup_eq_none.mpr absent)
  rw [trackFlow, insertion, guarded_false]
  simp only [Option.bind_eq_bind, Option.bind_some, deletion, search]
  rfl

/-- The counter is the number of bytes, as far as it goes. -/
def Counts (map : FlowMap) (flowKey : FlowKey) (total : Option Nat) : Prop :=
  bytesOf map flowKey = total.map (BitVec.ofNat 32)

/-- The automaton of a flow counts, if it gets the memory that it needs. -/
theorem automaton_eq
    {sent : Sent} {total : Option Nat}
    (memory : total = none → sent.kmalloc = true) :
    automaton (total.map (BitVec.ofNat 32)) sent.packet =
      (addBytes total sent).map (BitVec.ofNat 32) := by
  cases total with
  | none =>
      rw [Option.map_none, automaton, addBytes, memory rfl, Bool.true_and]
      split
      · rw [Option.map_some, BitVec.ofNat_toNat, BitVec.setWidth_eq]
      · rfl
  | some total =>
      rw [Option.map_some, automaton, addBytes]
      split
      · rfl
      · rw [Option.map_some, BitVec.ofNat_add, BitVec.ofNat_toNat,
          BitVec.setWidth_eq]

/-- A flow that is not in the map has no counter. -/
theorem Counts.eq_none
    {flowKey : FlowKey} {total : Option Nat}
    (counts : Counts map flowKey total) (absent : flowKey ∉ map) :
    total = none := by
  rw [Counts, bytesOf, Finmap.lookup_eq_none.mpr absent] at counts
  exact Option.map_eq_none_iff.mp counts.symm

/-- A flow without a counter is not in the map. -/
theorem Counts.notMem
    {flowKey : FlowKey} (counts : Counts map flowKey none) :
    flowKey ∉ map := by
  intro present
  rcases Finmap.mem_iff.mp present with ⟨obj, stored⟩
  rw [Counts, bytesOf, stored] at counts
  cases counts

/-- Packets of other flows do not count. -/
theorem countPacket_of_ne
    {params : Parameters} {sent : Sent} {own flowKey : FlowKey}
    (accepted : acceptedKey params sent.packet = some own)
    (different : own ≠ flowKey) (total : Option Nat) :
    countPacket params flowKey total sent = total := by
  rw [countPacket]
  apply if_neg
  rw [accepted, Option.some.injEq]
  exact different

/-- A packet whose flow is in the table, or can be inserted. -/
theorem exists_trackFlow
    (holds : Holds bits table map) (sent : Sent) {flowKey : FlowKey}
    (memory : flowKey ∉ map → sent.kmalloc = true) :
    ∃ result,
      trackFlow sent.kmalloc table sent.packet.skb.tcpHdr
          sent.packet.skb.len (flowKey.entry sent.packet.skb.len) =
        some (nfAccept, result) ∧
      Holds bits result (trackMap map sent.packet flowKey) := by
  by_cases present : flowKey ∈ map
  · exact trackFlow_of_mem holds sent.packet present sent.kmalloc
  · rw [memory present]
    exact trackFlow_of_notMem holds sent.packet present

/-- A packet keeps the counter up to date. -/
theorem exists_handle
    (holds : Holds bits table map) (params : Parameters) (sent : Sent)
    {flowKey : FlowKey} {total : Option Nat}
    (counts : Counts map flowKey total) :
    ∃ result changed,
      handle params table sent = some result ∧
        Holds bits result changed ∧
        Counts changed flowKey (countPacket params flowKey total sent) := by
  cases accepted : acceptedKey params sent.packet with
  | none =>
      refine ⟨table, map, ?_, holds, ?_⟩
      · rw [handle, hookFuncOut_of_filtered accepted]
        rfl
      · rw [countPacket, accepted, if_neg (Option.some_ne_none _).symm]
        exact counts
  | some own =>
      by_cases exhausted : own ∉ map ∧ sent.kmalloc = false
      · refine ⟨table, map, ?_, holds, ?_⟩
        · rw [handle, hookFuncOut_of_accepted accepted, exhausted.2,
            trackFlow_of_exhausted holds sent.packet exhausted.1]
          rfl
        · by_cases same : own = flowKey
          · subst same
            have idle := counts.eq_none exhausted.1
            rw [idle] at counts ⊢
            rw [countPacket, if_pos accepted, addBytes, exhausted.2]
            exact counts
          · rw [countPacket_of_ne accepted same]
            exact counts
      · have memory (absent : own ∉ map) : sent.kmalloc = true := by
          rw [← Bool.not_eq_false]
          exact fun failed => exhausted ⟨absent, failed⟩
        rcases exists_trackFlow holds sent memory with ⟨result, ran, kept⟩
        refine ⟨result, trackMap map sent.packet own, ?_, kept, ?_⟩
        · rw [handle, hookFuncOut_of_accepted accepted, ran]
          rfl
        · rw [Counts, bytesOf_trackMap]
          by_cases same : own = flowKey
          · subst same
            rw [if_pos rfl, counts, countPacket, if_pos accepted]
            apply automaton_eq
            rintro rfl
            exact memory counts.notMem
          · rw [if_neg same, countPacket_of_ne accepted same]
            exact counts

/-- What `search_table` finds is the counter. -/
theorem searchTable_eq_of_counts
    (holds : Holds bits table map) {flowKey : FlowKey} {total : Option Nat}
    (counts : Counts map flowKey total) :
    searchTable table (flowKey.entry 0) =
      some (total.map fun count => flowKey.entry (BitVec.ofNat 32 count)) := by
  have stored := lookup_eq_map_bytesOf holds.toLinked flowKey
  rw [counts, Option.map_map] at stored
  rw [holds.searchTable_eq]
  exact congrArg some stored

/-- The counter falls exactly if the number does not fit any more. -/
theorem ofNat_le_ofNat_add_iff
    {count more : Nat} (small : count < 4294967296)
    (short : more < 4294967296) :
    BitVec.ofNat 32 count ≤ BitVec.ofNat 32 (count + more) ↔
      count + more < 4294967296 := by
  rw [BitVec.le_def, BitVec.toNat_ofNat, BitVec.toNat_ofNat]
  omega

/-- A packet adds less than `2 ^ 32` bytes to the counter of its flow. -/
theorem exists_add_of_countPacket
    {params : Parameters} {flowKey : FlowKey} {sent : Sent}
    {first second : Nat}
    (counted :
      countPacket params flowKey (some first) sent = some second) :
    ∃ more, more < 4294967296 ∧ second = first + more := by
  rw [countPacket] at counted
  split at counted
  · rw [addBytes] at counted
    split at counted
    · cases counted
    · cases counted
      exact ⟨sent.packet.skb.len.toNat, sent.packet.skb.len.isLt, rfl⟩
  · cases counted
    exact ⟨0, by decide, rfl⟩

/-- The packet that inserts an entry fits into its counter. -/
theorem fits_countPacket_none
    (params : Parameters) (flowKey : FlowKey) (sent : Sent) :
    Fits (countPacket params flowKey none sent) := by
  intro count counted
  rw [countPacket] at counted
  split at counted
  · rw [addBytes] at counted
    split at counted
    · cases counted
      exact sent.packet.skb.len.isLt
    · cases counted
  · cases counted

/-- One packet: the counter grows exactly if the number still fits. -/
theorem grows_iff
    (holds : Holds bits table map) (params : Parameters) (sent : Sent)
    {flowKey : FlowKey} {total : Option Nat}
    (counts : Counts map flowKey total) (small : Fits total) :
    Grows params flowKey table sent ↔
      Fits (countPacket params flowKey total sent) := by
  rcases exists_handle holds params sent counts with
    ⟨result, changed, handled, kept, countsAfter⟩
  have before := searchTable_eq_of_counts holds counts
  have after := searchTable_eq_of_counts kept countsAfter
  cases total with
  | none =>
      apply iff_of_true
      · intro other old new handledAgain oldFound
        rw [before] at oldFound
        cases oldFound
      · exact fits_countPacket_none params flowKey sent
  | some first =>
      cases counted : countPacket params flowKey (some first) sent with
      | none =>
          rw [counted] at after
          apply iff_of_true
          · intro other old new handledAgain oldFound newFound
            rw [handled, Option.some.injEq] at handledAgain
            rw [← handledAgain, after] at newFound
            cases newFound
          · intro count impossible
            cases impossible
      | some second =>
          rw [counted] at after
          rcases exists_add_of_countPacket counted with
            ⟨more, short, rfl⟩
          have ordered := ofNat_le_ofNat_add_iff (small first rfl) short
          constructor
          · intro grows count same
            cases same
            rw [← ordered]
            exact grows result _ _ handled before after
          · intro fits other old new handledAgain oldFound newFound
            rw [handled, Option.some.injEq] at handledAgain
            rw [← handledAgain, after] at newFound
            rw [before] at oldFound
            cases oldFound
            cases newFound
            exact ordered.mpr (fits _ rfl)

end Packet

/-! ## All packets -/

theorem alwaysFits_cons
    {params : Parameters} {flowKey : FlowKey} {total : Option Nat}
    {sent : Sent} {rest : List Sent} (small : Fits total) :
    AlwaysFits params flowKey total (sent :: rest) ↔
      AlwaysFits params flowKey (countPacket params flowKey total sent)
        rest := by
  constructor
  · intro fits before after split
    exact fits (sent :: before) after (by rw [split]; rfl)
  · intro fits before after split
    cases before with
    | nil => exact small
    | cons first before =>
        cases split
        exact fits before after rfl

theorem AlwaysFits.head
    {params : Parameters} {flowKey : FlowKey} {total : Option Nat}
    {packets : List Sent}
    (fits : AlwaysFits params flowKey total packets) :
    Fits total :=
  fits [] packets rfl

/-- The counter of a flow in any table that counts its bytes. -/
theorem neverDecreases_of_counts
    {bits : Nat} {table : FlowTable} {map : FlowMap}
    (holds : Holds bits table map)
    (params : Parameters) {flowKey : FlowKey} {total : Option Nat}
    (counts : Counts map flowKey total) (small : Fits total)
    (packets : List Sent) :
    NeverDecreases params table flowKey packets ↔
      AlwaysFits params flowKey total packets := by
  induction packets generalizing table map total with
  | nil =>
      apply iff_of_true (Along.nil table)
      intro before after split
      cases before with
      | nil => exact small
      | cons first before => cases split
  | cons sent rest ih =>
      rcases exists_handle holds params sent counts with
        ⟨result, changed, handled, kept, countsAfter⟩
      have grows := grows_iff holds params sent counts small
      rw [alwaysFits_cons small]
      constructor
      · intro along
        have fits := grows.mp along.head
        exact (ih kept countsAfter fits).mp (along.tail handled)
      · intro fits
        apply Along.cons (grows.mpr fits.head)
        intro middle step
        rw [handled, Option.some.injEq] at step
        rw [← step]
        exact (ih kept countsAfter fits.head).mpr fits

/-- At first no flow has been counted. -/
theorem counts_empty (flowKey : FlowKey) : Counts ∅ flowKey none := by
  rw [Counts, bytesOf, Finmap.lookup_empty]
  rfl

theorem fits_none : Fits none := by
  intro count impossible
  cases impossible

/--
From an initialised table the counter of a flow never falls while its entry
stays, exactly if the bytes of the accepted packets of the flow, counted from
the packet that inserted the entry, amount to less than `2 ^ 32` at all times.
-/
theorem neverDecreases_iff
    {vmalloc : Bool} {table initialised : FlowTable} {bits : Nat}
    (success : initTable vmalloc table bits = (true, initialised))
    (params : Parameters) (flowKey : FlowKey) (packets : List Sent) :
    NeverDecreases params initialised flowKey packets ↔
      AlwaysFits params flowKey none packets :=
  neverDecreases_of_counts (holds_initTable success) params
    (counts_empty flowKey) fits_none packets

/-- The flow from port 5001 of one host to port 1024 of another. -/
def longLived : FlowKey := ⟨1, 2, 0x8913, 4⟩

/-- A packet of this flow. -/
def ofLength (syn : Bool) (len : BitVec 32) : Sent :=
  ⟨true, ⟨none, some ⟨6, 1, 2⟩, ⟨0x8913, 4, syn, false, false⟩, len⟩⟩

/-- A connection request and two segments. -/
theorem neverDecreases_iff_segments :
    initTable true ⟨none, 0, 0⟩ 8 =
        (true, (initTable true ⟨none, 0, 0⟩ 8).2) ∧
      (NeverDecreases ⟨none, 5001⟩ (initTable true ⟨none, 0, 0⟩ 8).2
          longLived
          [ofLength true 60, ofLength false 1500,
            ofLength false 1500] ↔
        AlwaysFits ⟨none, 5001⟩ longLived none
          [ofLength true 60, ofLength false 1500,
            ofLength false 1500]) := by
  have success :
      initTable true ⟨none, 0, 0⟩ 8 =
        (true, (initTable true ⟨none, 0, 0⟩ 8).2) :=
    rfl
  exact ⟨success, neverDecreases_iff success _ _ _⟩

/-- The largest IP packets of a connection add up. -/
theorem foldl_countPacket_replicate (count total : Nat) :
    (List.replicate count (ofLength false 65535)).foldl
        (countPacket ⟨none, 5001⟩ longLived) (some total) =
      some (total + 65535 * count) := by
  induction count generalizing total with
  | zero => rfl
  | succ count ih =>
      have step :
          countPacket ⟨none, 5001⟩ longLived (some total)
              (ofLength false 65535) =
            some (total + 65535) := by
        rw [countPacket, if_pos (by decide)]
        rfl
      rw [List.replicate_succ, List.foldl_cons, step, ih,
        Option.some.injEq]
      omega

/-- After 65537 such packets the number of bytes does not fit. -/
theorem exists_not_neverDecreases :
    ¬ NeverDecreases ⟨none, 5001⟩ (initTable true ⟨none, 0, 0⟩ 8).2
        longLived
        (ofLength true 60 ::
          List.replicate 65537 (ofLength false 65535)) := by
  intro never
  have success :
      initTable true ⟨none, 0, 0⟩ 8 =
        (true, (initTable true ⟨none, 0, 0⟩ 8).2) :=
    rfl
  rw [neverDecreases_of_counts (holds_initTable success) _
    (counts_empty longLived) fits_none, alwaysFits_cons fits_none] at never
  have opened :
      countPacket ⟨none, 5001⟩ longLived none (ofLength true 60) =
        some 60 := by
    rw [countPacket, if_pos (by decide)]
    rfl
  have total := foldl_countPacket_replicate 65537 60
  rw [opened] at never
  have small := never _ [] (List.append_nil _).symm _ total
  omega

end CodingExamples.FlowTracker.BytesSent
