import CodingExamples.FlowTracker.TableMap

/-!
# The hook for outgoing packets

`hook_func_out` keeps the flow table up to date: it looks at the TCP packets
that pass the filter of the module parameters.  Its specification is an
automaton for one flow.  The main theorem states that after any packets the
table holds, for each flow, the state that the automaton reaches on the
accepted packets of that flow alone.

Packets are handled one after another.  The messages to the kernel log are
left out.
-/

namespace CodingExamples.FlowTracker.Hook

open CodingExamples.Library.BucketTable
open CodingExamples.FlowTracker.Table
open CodingExamples.FlowTracker.TableMap

/-- The fields of `struct iphdr` that the hook reads. -/
structure IpHeader where
  protocol : BitVec 8
  saddr : BitVec 32
  daddr : BitVec 32
deriving DecidableEq, Repr

/-- The fields of `struct tcphdr` that the hook reads, in network order. -/
structure TcpHeader where
  source : BitVec 16
  dest : BitVec 16
  syn : Bool
  fin : Bool
  rst : Bool
deriving DecidableEq, Repr

/-- `struct sk_buff`; `ip_hdr` may be NULL. -/
structure SkBuff where
  ipHdr : Option IpHeader
  tcpHdr : TcpHeader
  len : BitVec 32
deriving DecidableEq, Repr

/-- A packet and the name of the device it leaves through, if there is one. -/
structure Outgoing where
  out : Option (List (BitVec 8))
  skb : SkBuff
deriving DecidableEq, Repr

/-- The module parameters; a NULL `param_dev` is `none`. -/
structure Parameters where
  paramDev : Option (List (BitVec 8))
  paramPort : Int
deriving DecidableEq, Repr

/-- `NF_ACCEPT`. -/
def nfAccept : BitVec 32 := 1

/-- `IPPROTO_TCP`. -/
def ipprotoTcp : BitVec 8 := 6

/-- `IFNAMSIZ`. -/
def ifnamsiz : Nat := 16

/-- `strncmp` on strings without their terminators. -/
def strncmp : List (BitVec 8) → List (BitVec 8) → Nat → Int
  | _, _, 0 => 0
  | [], [], _ + 1 => 0
  | [], right :: _, _ + 1 => -right.toNat
  | left :: _, [], _ + 1 => left.toNat
  | left :: leftRest, right :: rightRest, count + 1 =>
      if left = right then
        strncmp leftRest rightRest count
      else
        left.toNat - right.toNat

/-- `ntohs` on a little-endian host. -/
def ntohs (net : BitVec 16) : BitVec 16 :=
  (net <<< 8) ||| (net >>> 8)

/-- The packet leaves through a device other than `param_dev`. -/
def otherDevice (params : Parameters)
    (out : Option (List (BitVec 8))) : Bool :=
  match out, params.paramDev with
  | some name, some paramDev => strncmp name paramDev ifnamsiz != 0
  | _, _ => false

/-- The packet uses ports other than `param_port`. -/
def otherPort (params : Parameters) (tcph : TcpHeader) : Bool :=
  params.paramPort != 0 &&
    ((ntohs tcph.source).toNat : Int) != params.paramPort &&
    ((ntohs tcph.dest).toNat : Int) != params.paramPort

/-- `flag && operation(table, f)`: the operation only runs under the flag. -/
def guarded (flag : Bool) (table : FlowTable)
    (operation : Option (Bool × FlowTable)) : Option (Bool × FlowTable) :=
  if flag then operation else some (false, table)

/-- `hook_func_out` behind its filters, for the flow `f` of the packet. -/
def trackFlow (kmalloc : Bool) (table : FlowTable)
    (tcph : TcpHeader) (len : BitVec 32) (f : FlowEntry) :
    Option (BitVec 32 × FlowTable) := do
  let (inserted, table) ←
    guarded tcph.syn table (insertTable kmalloc table f)
  if inserted then
    pure (nfAccept, table)
  else
    let (deleted, table) ←
      guarded (tcph.fin || tcph.rst) table (deleteTable table f)
    if deleted then
      pure (nfAccept, table)
    else
      match ← searchTable table f with
      | none => pure (nfAccept, table)
      | some _ =>
          let table ←
            writeEntry table f fun entry =>
              { entry with bytesSent := entry.bytesSent + len }
          pure (nfAccept, table)

/-- `hook_func_out(ops, skb, in, out, okfn)`. -/
def hookFuncOut (params : Parameters) (kmalloc : Bool)
    (table : FlowTable) (packet : Outgoing) :
    Option (BitVec 32 × FlowTable) :=
  if otherDevice params packet.out then
    some (nfAccept, table)
  else
    match packet.skb.ipHdr with
    | none => some (nfAccept, table)
    | some iph =>
        if iph.protocol != ipprotoTcp then
          some (nfAccept, table)
        else
          let tcph := packet.skb.tcpHdr
          if otherPort params tcph then
            some (nfAccept, table)
          else
            trackFlow kmalloc table tcph packet.skb.len
              { localIp := iph.saddr
                remoteIp := iph.daddr
                localPort := tcph.source
                remotePort := tcph.dest
                bytesSent := packet.skb.len }

/-- The hook on a sequence of packets, with all allocations succeeding. -/
def hookAll (params : Parameters) (table : FlowTable) :
    List Outgoing → Option FlowTable
  | [] => some table
  | packet :: rest => do
      let (_, table) ← hookFuncOut params true table packet
      hookAll params table rest

/-! ## Specification -/

/-- The flow of a packet that the filter accepts. -/
def acceptedKey (params : Parameters) (packet : Outgoing) :
    Option FlowKey :=
  match packet.skb.ipHdr with
  | none => none
  | some iph =>
      if otherDevice params packet.out = false ∧
          iph.protocol = ipprotoTcp ∧
          otherPort params packet.skb.tcpHdr = false then
        some
          ⟨iph.saddr, iph.daddr, packet.skb.tcpHdr.source,
            packet.skb.tcpHdr.dest⟩
      else
        none

/-- The automaton of one flow: the bytes sent, if it is in the table. -/
def automaton : Option (BitVec 32) → Outgoing → Option (BitVec 32)
  | none, packet =>
      if packet.skb.tcpHdr.syn then some packet.skb.len else none
  | some bytesSent, packet =>
      if packet.skb.tcpHdr.fin || packet.skb.tcpHdr.rst then
        none
      else
        some (bytesSent + packet.skb.len)

/-- What the packets of a flow make of it. -/
def tracked (params : Parameters) (packets : List Outgoing)
    (flowKey : FlowKey) : Option (BitVec 32) :=
  (packets.filter fun packet =>
    acceptedKey params packet = some flowKey).foldl automaton none

/-! ## One packet -/

/-- An operation that would fail changes nothing under any flag. -/
theorem guarded_false (flag : Bool) (table : FlowTable) :
    guarded flag table (some (false, table)) = some (false, table) := by
  rw [guarded, ite_self]

/-- The bytes that a flow has sent, if it is in the map. -/
def bytesOf (map : FlowMap) (flowKey : FlowKey) : Option (BitVec 32) :=
  (map.lookup flowKey).map FlowEntry.bytesSent

/-- What an accepted packet of the flow does to the map. -/
def trackMap (map : FlowMap) (packet : Outgoing) (flowKey : FlowKey) :
    FlowMap :=
  match automaton (bytesOf map flowKey) packet with
  | none => map.erase flowKey
  | some bytesSent => map.insert flowKey (flowKey.entry bytesSent)

/-- A packet runs the automaton of its own flow only. -/
theorem bytesOf_trackMap
    (map : FlowMap) (packet : Outgoing) (flowKey other : FlowKey) :
    bytesOf (trackMap map packet flowKey) other =
      if flowKey = other then
        automaton (bytesOf map other) packet
      else
        bytesOf map other := by
  rw [trackMap]
  by_cases same : flowKey = other
  · subst same
    rw [if_pos rfl]
    cases automaton (bytesOf map flowKey) packet with
    | none => simp [bytesOf]
    | some bytesSent =>
        simp only [bytesOf, Finmap.lookup_insert, Option.map_some]
        rfl
  · rw [if_neg same]
    cases automaton (bytesOf map flowKey) packet with
    | none =>
        simp only [bytesOf, Finmap.lookup_erase_ne (Ne.symm same)]
    | some bytesSent =>
        simp only [bytesOf, Finmap.lookup_insert_of_ne _ (Ne.symm same)]

section Hook

variable {bits : Nat} {table : FlowTable} {map : FlowMap}

/-- A packet of a flow that is not in the table. -/
theorem trackFlow_of_notMem
    (holds : Holds bits table map) (packet : Outgoing)
    {flowKey : FlowKey} (absent : flowKey ∉ map) :
    ∃ result,
      trackFlow true table packet.skb.tcpHdr packet.skb.len
          (flowKey.entry packet.skb.len) =
        some (nfAccept, result) ∧
      Holds bits result (trackMap map packet flowKey) := by
  have unknown : key (flowKey.entry packet.skb.len) ∉ map := absent
  have missing : map.lookup flowKey = none :=
    Finmap.lookup_eq_none.mpr absent
  have idle : bytesOf map flowKey = none := by
    rw [bytesOf, missing]
    rfl
  rw [trackMap, idle, automaton]
  cases syn : packet.skb.tcpHdr.syn with
  | true =>
      rcases holds.insertTable_of_notMem unknown with
        ⟨result, inserted, kept⟩
      refine ⟨result, ?_, kept⟩
      rw [trackFlow, syn, guarded, if_pos rfl, inserted]
      rfl
  | false =>
      have deletion (close : Bool) :
          guarded close table
              (deleteTable table (flowKey.entry packet.skb.len)) =
            some (false, table) := by
        rw [holds.deleteTable_of_notMem unknown, guarded_false]
      have search :
          searchTable table (flowKey.entry packet.skb.len) = some none := by
        rw [holds.searchTable_eq]
        exact congrArg some missing
      refine ⟨table, ?_, ?_⟩
      · rw [trackFlow, syn, guarded, if_neg Bool.false_ne_true]
        simp only [Option.bind_eq_bind, Option.bind_some, deletion, search]
        rfl
      · show Holds bits table (map.erase flowKey)
        rw [erase_of_notMem absent]
        exact holds

/-- A packet of a flow that is in the table. -/
theorem trackFlow_of_mem
    (holds : Holds bits table map) (packet : Outgoing)
    {flowKey : FlowKey} (present : flowKey ∈ map) (kmalloc : Bool) :
    ∃ result,
      trackFlow kmalloc table packet.skb.tcpHdr packet.skb.len
          (flowKey.entry packet.skb.len) =
        some (nfAccept, result) ∧
      Holds bits result (trackMap map packet flowKey) := by
  have known : key (flowKey.entry packet.skb.len) ∈ map := present
  rcases Finmap.mem_iff.mp present with ⟨obj, stored⟩
  have busy : bytesOf map flowKey = some obj.bytesSent := by
    rw [bytesOf, stored]
    rfl
  have duplicate :
      insertTable kmalloc table (flowKey.entry packet.skb.len) =
        some (false, table) :=
    holds.insertTable_of_failed fun fresh => fresh.1 known
  rw [trackMap, busy, automaton]
  cases close : packet.skb.tcpHdr.fin || packet.skb.tcpHdr.rst with
  | true =>
      rcases holds.deleteTable_of_mem known with ⟨result, deleted, kept⟩
      refine ⟨result, ?_, kept⟩
      rw [trackFlow, duplicate, guarded_false, close]
      simp only [Option.bind_eq_bind, Option.bind_some, guarded, deleted]
      rfl
  | false =>
      have search :
          searchTable table (flowKey.entry packet.skb.len) =
            some (some obj) := by
        rw [holds.searchTable_eq]
        exact congrArg some stored
      have sameKey (entry : FlowEntry) :
          key
              { entry with
                bytesSent := entry.bytesSent + packet.skb.len } =
            key entry :=
        rfl
      have storedKey :
          map.lookup (key (flowKey.entry packet.skb.len)) = some obj :=
        stored
      rcases holds.writeEntry_eq storedKey sameKey with
        ⟨result, written, kept⟩
      refine ⟨result, ?_, ?_⟩
      · rw [trackFlow, duplicate, guarded_false, close]
        simp only [Option.bind_eq_bind, Option.bind_some, guarded,
          Bool.false_eq_true, if_false, search, written]
        rfl
      · rw [holds.eq_entry_of_lookup stored] at kept
        exact kept

end Hook

/-! ## The filter -/

/-- A packet that the filter rejects changes nothing. -/
theorem hookFuncOut_of_filtered
    {params : Parameters} {packet : Outgoing}
    (filtered : acceptedKey params packet = none)
    (kmalloc : Bool) (table : FlowTable) :
    hookFuncOut params kmalloc table packet = some (nfAccept, table) := by
  rw [acceptedKey] at filtered
  rw [hookFuncOut]
  split_ifs with device
  · rfl
  · cases header : packet.skb.ipHdr with
    | none => rfl
    | some iph =>
        rw [header] at filtered
        by_cases protocol : iph.protocol = ipprotoTcp
        · by_cases port : otherPort params packet.skb.tcpHdr
          · simp [protocol, port]
          · simp [device, protocol, port] at filtered
        · simp [protocol]

theorem hookFuncOut_of_accepted
    {params : Parameters} {packet : Outgoing} {flowKey : FlowKey}
    (accepted : acceptedKey params packet = some flowKey)
    (kmalloc : Bool) (table : FlowTable) :
    hookFuncOut params kmalloc table packet =
      trackFlow kmalloc table packet.skb.tcpHdr packet.skb.len
        (flowKey.entry packet.skb.len) := by
  rw [acceptedKey] at accepted
  cases header : packet.skb.ipHdr with
  | none =>
      rw [header] at accepted
      cases accepted
  | some iph =>
      rw [header] at accepted
      simp only [Option.ite_none_right_eq_some] at accepted
      rcases accepted with ⟨⟨device, protocol, port⟩, same⟩
      cases same
      simp [hookFuncOut, header, device, protocol, port, FlowKey.entry]

/-! ## All packets -/

/-- One packet runs the automaton of its flow, if the filter accepts it. -/
theorem hookFuncOut_eq
    {bits : Nat} {table : FlowTable} {map : FlowMap}
    (holds : Holds bits table map)
    (params : Parameters) (packet : Outgoing) :
    ∃ result changed,
      hookFuncOut params true table packet = some (nfAccept, result) ∧
        Holds bits result changed ∧
        ∀ flowKey,
          bytesOf changed flowKey =
            if acceptedKey params packet = some flowKey then
              automaton (bytesOf map flowKey) packet
            else
              bytesOf map flowKey := by
  cases accepted : acceptedKey params packet with
  | none =>
      refine
        ⟨table, map, hookFuncOut_of_filtered accepted true table, holds, ?_⟩
      intro flowKey
      rfl
  | some own =>
      have handled :
          ∃ result,
            trackFlow true table packet.skb.tcpHdr packet.skb.len
                (own.entry packet.skb.len) =
              some (nfAccept, result) ∧
            Holds bits result (trackMap map packet own) := by
        by_cases present : own ∈ map
        · exact trackFlow_of_mem holds packet present true
        · exact trackFlow_of_notMem holds packet present
      rcases handled with ⟨result, ran, kept⟩
      refine ⟨result, trackMap map packet own, ?_, kept, ?_⟩
      · rw [hookFuncOut_of_accepted accepted]
        exact ran
      · intro flowKey
        rw [bytesOf_trackMap]
        simp only [Option.some.injEq]

theorem hookAll_eq
    {bits : Nat} {table : FlowTable} {map : FlowMap}
    (holds : Holds bits table map)
    (params : Parameters) (packets : List Outgoing) :
    ∃ final changed,
      hookAll params table packets = some final ∧
        Holds bits final changed ∧
        ∀ flowKey,
          bytesOf changed flowKey =
            (packets.filter fun packet =>
              acceptedKey params packet = some flowKey).foldl
              automaton (bytesOf map flowKey) := by
  induction packets generalizing table map with
  | nil => exact ⟨table, map, rfl, holds, fun flowKey => rfl⟩
  | cons packet rest ih =>
      rcases hookFuncOut_eq holds params packet with
        ⟨middle, changed, handled, kept, bytes⟩
      rcases ih kept with ⟨final, last, handledRest, keptRest, bytesRest⟩
      refine ⟨final, last, ?_, keptRest, ?_⟩
      · rw [hookAll, handled]
        exact handledRest
      · intro flowKey
        rw [bytesRest, bytes, List.filter_cons]
        by_cases accepted : acceptedKey params packet = some flowKey
        · simp only [accepted, if_true, decide_true, List.foldl_cons]
        · simp only [accepted, if_false, decide_false, Bool.false_eq_true]

/-- An entry is determined by its key and its bytes. -/
theorem lookup_eq_map_bytesOf
    {bits : Nat} {table : FlowTable} {map : FlowMap}
    (linked : Linked bits table map) (flowKey : FlowKey) :
    map.lookup flowKey = (bytesOf map flowKey).map flowKey.entry := by
  cases stored : map.lookup flowKey with
  | none => rw [bytesOf, stored]; rfl
  | some obj =>
      rw [bytesOf, stored, linked.eq_entry_of_lookup stored]
      rfl

/--
After any packets on an initialised table, each flow is stored once or not at
all, as the automaton says that reads the accepted packets of that flow alone.
A packet that is filtered changes nothing.
-/
theorem hookAll_initTable
    {vmalloc : Bool} {table initialised : FlowTable} {bits : Nat}
    (success : initTable vmalloc table bits = (true, initialised))
    (params : Parameters) (packets : List Outgoing) :
    ∃ final,
      hookAll params initialised packets = some final ∧
        ((entries final).map key).Nodup ∧
        (∀ flowKey : FlowKey,
          searchTable final (flowKey.entry 0) =
            some ((tracked params packets flowKey).map flowKey.entry)) ∧
        ∀ packet, acceptedKey params packet = none →
          hookFuncOut params true final packet =
            some (nfAccept, final) := by
  rcases hookAll_eq (holds_initTable success) params packets with
    ⟨final, map, handled, kept, bytes⟩
  refine ⟨final, handled, kept.nodup_entries, ?_, ?_⟩
  · intro flowKey
    rw [kept.searchTable_eq]
    have stored := lookup_eq_map_bytesOf kept.toLinked flowKey
    rw [bytes] at stored
    exact congrArg some stored
  · intro packet filtered
    exact hookFuncOut_of_filtered filtered true final

/-- A SYN, a data packet and a repeated SYN from port 5001. -/
def opening : List Outgoing :=
  [⟨none, some ⟨6, 1, 2⟩, ⟨0x8913, 4, true, false, false⟩, 60⟩,
    ⟨none, some ⟨6, 1, 2⟩, ⟨0x8913, 4, false, false, false⟩, 1500⟩,
    ⟨none, some ⟨6, 1, 2⟩, ⟨0x8913, 4, true, false, false⟩, 60⟩]

/-- The opening packets on the table that the module initialises. -/
theorem hookAll_initTable_opening :
    tracked ⟨none, 5001⟩ opening ⟨1, 2, 0x8913, 4⟩ = some 1620 ∧
      ∃ final,
        hookAll ⟨none, 5001⟩ (initTable true ⟨none, 0, 0⟩ 8).2 opening =
            some final ∧
          ((entries final).map key).Nodup ∧
          (∀ flowKey : FlowKey,
            searchTable final (flowKey.entry 0) =
              some
                ((tracked ⟨none, 5001⟩ opening flowKey).map
                  flowKey.entry)) ∧
          ∀ packet, acceptedKey ⟨none, 5001⟩ packet = none →
            hookFuncOut ⟨none, 5001⟩ true final packet =
              some (nfAccept, final) := by
  have success :
      initTable true ⟨none, 0, 0⟩ 8 =
        (true, (initTable true ⟨none, 0, 0⟩ 8).2) :=
    rfl
  exact ⟨by decide, hookAll_initTable success _ _⟩

end CodingExamples.FlowTracker.Hook
