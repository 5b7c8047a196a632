import CodingExamples.FlowTracker.CrcTable
import CodingExamples.Library.BucketTable
import CodingExamples.Library.ByteOrder

/-!
# The flow table of the kernel module

The table is an array of `2 ^ bits` linked lists; the top bits of a CRC of
the address and port tuple select the list.  A NULL `lists` pointer is `none`,
and an access outside the array makes the operation `none`.  The locked
sections of `insert_table` and `delete_table` are definitions of their own,
because concurrent calls interleave between them.

Entries in a list are their positions in it, so the pointer that
`search_table` returns is the first entry of that flow.  The host is
little-endian, and `num_flows` is an `atomic_t`: 32 bits that wrap.
-/

namespace CodingExamples.FlowTracker.Table

open CodingExamples.Library
open CodingExamples.FlowTracker.CrcTable

/-- `struct flow_entry` without its list node. -/
structure FlowEntry where
  localIp : BitVec 32
  remoteIp : BitVec 32
  localPort : BitVec 16
  remotePort : BitVec 16
  bytesSent : BitVec 32
deriving DecidableEq, Repr

/-- `struct flow_table`; the lock is in the granularity of the operations. -/
structure FlowTable where
  lists : Option (List (List FlowEntry))
  bits : Nat
  numFlows : BitVec 32
deriving DecidableEq, Repr

/-- `crc16(data, len)`; a NULL buffer has the checksum 0. -/
def crc16 : Option (List (BitVec 8)) → BitVec 16
  | none => 0
  | some data =>
      data.foldl
        (fun crc byte =>
          let pos := (crc >>> 8).setWidth 8 ^^^ byte
          (crc <<< 8) ^^^ crcHashTable.get pos.toFin)
        0

/-- `flow_hash(flow)`, over the memory of the array `tuples`. -/
def flowHash (flow : FlowEntry) : BitVec 16 :=
  let tuples : List (BitVec 16) :=
    [(flow.localIp >>> 16).setWidth 16,
      (flow.localIp &&& 0xffff).setWidth 16,
      (flow.remoteIp >>> 16).setWidth 16,
      (flow.remoteIp &&& 0xffff).setWidth 16,
      flow.localPort,
      flow.remotePort]
  crc16
    (some (tuples.flatMap fun tuple => ByteOrder.little.encode 2 tuple.toNat))

/-- The list that a flow belongs to: `flow_hash(flow) >> (16 - bits)`. -/
def index (bits : Nat) (flow : FlowEntry) : Nat :=
  (flowHash flow).toNat >>> (16 - bits)

/-- The comparison in the three list walks. -/
def sameFlow (obj flow : FlowEntry) : Bool :=
  obj.localIp == flow.localIp &&
    obj.remoteIp == flow.remoteIp &&
    obj.localPort == flow.localPort &&
    obj.remotePort == flow.remotePort

/-- `init_table(table, bits)`; `vmalloc` says whether the allocation succeeds. -/
def initTable (vmalloc : Bool) (table : FlowTable) (bits : Nat) :
    Bool × FlowTable :=
  if bits > 16 then
    (false, table)
  else if vmalloc then
    (true,
      { lists := some (List.replicate (2 ^ bits) [])
        bits := bits
        numFlows := 0 })
  else
    (false, { table with lists := none })

/-! ## The locked sections -/

/-- The list of the flow, `none` outside the array. -/
def bucket (table : FlowTable) (flow : FlowEntry) :
    Option (List FlowEntry) := do
  let lists ← table.lists
  lists[index table.bits flow]?

/-- Store a list where the flow belongs. -/
def setBucket (table : FlowTable) (flow : FlowEntry)
    (list : List FlowEntry) : FlowTable :=
  { table with
    lists :=
      table.lists.map fun lists => lists.set (index table.bits flow) list }

/-- The first locked section of `insert_table`: is the flow there already? -/
def scanDuplicate (table : FlowTable) (flow : FlowEntry) : Option Bool := do
  let list ← bucket table flow
  pure (list.any fun obj => sameFlow obj flow)

/-- The second locked section of `insert_table`. -/
def addHead (table : FlowTable) (obj : FlowEntry) : Option FlowTable := do
  let list ← bucket table obj
  pure (setBucket table obj (obj :: list))

/-- The locked section of `delete_table`; the first entry of the flow goes. -/
def findAndDelete (table : FlowTable) (flow : FlowEntry) :
    Option (Bool × FlowTable) := do
  let list ← bucket table flow
  if list.any fun obj => sameFlow obj flow then
    pure
      (true,
        setBucket table flow (list.eraseP fun obj => sameFlow obj flow))
  else
    pure (false, table)

/-- `atomic_inc` and `atomic_dec` of `num_flows`. -/
def addNumFlows (table : FlowTable) (change : BitVec 32) : FlowTable :=
  { table with numFlows := table.numFlows + change }

/-! ## The operations -/

/-- `insert_table(table, flow)`; `kmalloc` says whether the allocation succeeds. -/
def insertTable (kmalloc : Bool) (table : FlowTable) (flow : FlowEntry) :
    Option (Bool × FlowTable) :=
  if table.lists.isNone then
    some (false, table)
  else do
    let duplicate ← scanDuplicate table flow
    if duplicate then
      pure (false, table)
    else if !kmalloc then
      pure (false, table)
    else
      let added ← addHead table flow
      pure (true, addNumFlows added 1)

/-- `search_table(table, flow)`: the entry that is pointed to, if any. -/
def searchTable (table : FlowTable) (flow : FlowEntry) :
    Option (Option FlowEntry) :=
  if table.lists.isNone then
    some none
  else do
    let list ← bucket table flow
    pure (list.find? fun obj => sameFlow obj flow)

/-- `delete_table(table, flow)`. -/
def deleteTable (table : FlowTable) (flow : FlowEntry) :
    Option (Bool × FlowTable) :=
  if table.lists.isNone then
    some (false, table)
  else do
    let (deleted, rest) ← findAndDelete table flow
    if deleted then
      pure (true, addNumFlows rest (-1))
    else
      pure (false, rest)

/-- A write through the pointer that `search_table` returned for the flow. -/
def writeEntry (table : FlowTable) (flow : FlowEntry)
    (change : FlowEntry → FlowEntry) : Option FlowTable := do
  let list ← bucket table flow
  pure
    (setBucket table flow
      (BucketTable.updateFirst (fun obj => sameFlow obj flow) change list))

end CodingExamples.FlowTracker.Table
