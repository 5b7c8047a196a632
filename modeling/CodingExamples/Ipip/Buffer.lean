import CodingExamples.Library.ByteOrder
import CodingExamples.Library.Memory
import CodingExamples.Library.Outcome

/-!
# Socket buffers

A socket buffer is a block of memory with offsets into it: where its data
starts, how long the data is, and where the network and the transport header
are.  A header pointer of the C code is an offset.  Accesses outside the
block are faults.

The data is in one piece.  `skb_push` and `skb_pull` move the start of the
data and leave the headers where they are.
-/

namespace CodingExamples.Ipip.Buffer

open CodingExamples.Library

/-- What can go wrong in the hooks. -/
inductive Fault where
  | outsideBuffer
  /-- `skb_push` without room in front of the data. -/
  | underPanic
  /-- A pointer returned by the kernel is an error code. -/
  | errorPointer
deriving DecidableEq, Repr

/-- `struct sk_buff`; offsets are counted from `skb->head`. -/
structure SkBuff where
  memory : List (BitVec 8)
  data : Nat
  len : Nat
  networkHeader : Nat
  transportHeader : Nat
deriving DecidableEq, Repr

/-- The bytes of the packet. -/
def SkBuff.contents (skb : SkBuff) : List (BitVec 8) :=
  (skb.memory.drop skb.data).take skb.len

/-! ## Memory accesses -/

def SkBuff.loadByte (skb : SkBuff) (position : Nat) :
    Outcome Fault (BitVec 8) :=
  .ofOption .outsideBuffer skb.memory[position]?

def SkBuff.loadBytes (skb : SkBuff) (position count : Nat) :
    Outcome Fault (List (BitVec 8)) :=
  .ofOption .outsideBuffer (Memory.read skb.memory position count)

/-- `ntohs` of the short at a position. -/
def SkBuff.loadShort (skb : SkBuff) (position : Nat) :
    Outcome Fault (BitVec 16) := do
  let bytes ← skb.loadBytes position 2
  pure (.ofNat 16 (ByteOrder.big.decode bytes))

def SkBuff.storeBytes (skb : SkBuff) (position : Nat)
    (bytes : List (BitVec 8)) : Outcome Fault SkBuff := do
  let memory ←
    .ofOption .outsideBuffer (Memory.write skb.memory position bytes)
  pure { skb with memory }

/-- Store `htons(value)`. -/
def SkBuff.storeShort (skb : SkBuff) (position : Nat) (value : BitVec 16) :
    Outcome Fault SkBuff :=
  skb.storeBytes position (ByteOrder.big.encode 2 value.toNat)

/-! ## The kernel's operations -/

/-- `skb_headroom(skb)`. -/
def SkBuff.headroom (skb : SkBuff) : Nat :=
  skb.data

/-- `skb_push(skb, count)`. -/
def SkBuff.push (skb : SkBuff) (count : Nat) : Outcome Fault SkBuff :=
  if skb.data < count then
    .fault .underPanic
  else
    .value { skb with data := skb.data - count, len := skb.len + count }

/-- `skb_pull(skb, count)`; nothing happens if the packet is too short. -/
def SkBuff.pull (skb : SkBuff) (count : Nat) : SkBuff :=
  if skb.len < count then
    skb
  else
    { skb with data := skb.data + count, len := skb.len - count }

/-- `skb_reset_network_header(skb)`. -/
def SkBuff.resetNetworkHeader (skb : SkBuff) : SkBuff :=
  { skb with networkHeader := skb.data }

/--
The buffer after `pskb_expand_head(skb, count, 0, flags)`: a copy with that
much more room in front.
-/
def SkBuff.expandHead (skb : SkBuff) (count : Nat) : SkBuff where
  memory := List.replicate count 0 ++ skb.memory
  data := skb.data + count
  len := skb.len
  networkHeader := skb.networkHeader + count
  transportHeader := skb.transportHeader + count

/-! ## Internet checksums -/

/-- The sum of the 16-bit words of some memory. -/
def csumPartial : List (BitVec 8) → Nat
  | [] => 0
  | [last] => last.toNat * 256
  | high :: low :: rest =>
      high.toNat * 256 + low.toNat + csumPartial rest

/--
`csum_fold`: the complement of the sum with its carries added back in.  A sum
that is not zero never folds to zero.
-/
def csumFold (sum : Nat) : BitVec 16 :=
  ~~~(if sum = 0 then 0 else .ofNat 16 ((sum - 1) % 65535 + 1))

/-- `csum_tcpudp_magic(saddr, daddr, len, proto, sum)`. -/
def csumTcpudpMagic (saddr daddr : List (BitVec 8)) (len proto sum : Nat) :
    BitVec 16 :=
  csumFold (sum + csumPartial saddr + csumPartial daddr + len + proto)

/-- `ip_fast_csum(iph, ihl)` of a header of that length. -/
def ipFastCsum (header : List (BitVec 8)) : BitVec 16 :=
  csumFold (csumPartial header)

/-! ## IP headers -/

/-- `struct iphdr`, the shorts in host order. -/
structure IpHeader where
  version : BitVec 4
  ihl : BitVec 4
  tos : BitVec 8
  totLen : BitVec 16
  id : BitVec 16
  fragOff : BitVec 16
  ttl : BitVec 8
  protocol : BitVec 8
  check : BitVec 16
  saddr : BitVec 32
  daddr : BitVec 32
deriving DecidableEq, Repr

/-- `sizeof(struct iphdr)`. -/
def sizeofIphdr : Nat := 20

/-- The memory of a header without options. -/
def IpHeader.bytes (header : IpHeader) : List (BitVec 8) :=
  [header.version ++ header.ihl, header.tos] ++
    ByteOrder.big.encode 2 header.totLen.toNat ++
    ByteOrder.big.encode 2 header.id.toNat ++
    ByteOrder.big.encode 2 header.fragOff.toNat ++
    [header.ttl, header.protocol] ++
    ByteOrder.big.encode 2 header.check.toNat ++
    ByteOrder.big.encode 4 header.saddr.toNat ++
    ByteOrder.big.encode 4 header.daddr.toNat

/-- `ip_hdr(skb)->ihl` for the header at a position. -/
def SkBuff.loadIhl (skb : SkBuff) (iph : Nat) : Outcome Fault Nat := do
  let byte ← skb.loadByte iph
  pure (byte.toNat % 16)

/-- `ip_hdr(skb)->protocol` for the header at a position. -/
def SkBuff.loadProtocol (skb : SkBuff) (iph : Nat) :
    Outcome Fault (BitVec 8) :=
  skb.loadByte (iph + 9)

/-- The fixed part of the header at a position. -/
def SkBuff.loadIpHeader (skb : SkBuff) (iph : Nat) :
    Outcome Fault IpHeader := do
  let first ← skb.loadByte iph
  let tos ← skb.loadByte (iph + 1)
  let totLen ← skb.loadShort (iph + 2)
  let id ← skb.loadShort (iph + 4)
  let fragOff ← skb.loadShort (iph + 6)
  let ttl ← skb.loadByte (iph + 8)
  let protocol ← skb.loadProtocol iph
  let check ← skb.loadShort (iph + 10)
  let saddr ← skb.loadBytes (iph + 12) 4
  let daddr ← skb.loadBytes (iph + 16) 4
  pure
    { version := first.extractLsb' 4 4
      ihl := first.extractLsb' 0 4
      tos, totLen, id, fragOff, ttl, protocol, check
      saddr := .ofNat 32 (ByteOrder.big.decode saddr)
      daddr := .ofNat 32 (ByteOrder.big.decode daddr) }

/-! ## Stores -/

/-- A store changes the memory alone. -/
theorem SkBuff.storeBytes_eq_value_iff
    {skb stored : SkBuff} {position : Nat} {bytes : List (BitVec 8)} :
    skb.storeBytes position bytes = .value stored ↔
      ∃ memory, Memory.write skb.memory position bytes = some memory ∧
        stored = { skb with memory } := by
  rw [SkBuff.storeBytes]
  cases Memory.write skb.memory position bytes with
  | none => simp
  | some memory =>
      rw [Outcome.ofOption_some, Outcome.value_bind]
      constructor
      · intro same
        cases same
        exact ⟨memory, rfl, rfl⟩
      · rintro ⟨_, same, rfl⟩
        cases same
        rfl

/-- Both buffers have the same layout and the same memory up to a position. -/
structure SameUpTo (bound : Nat) (before after : SkBuff) : Prop where
  data : after.data = before.data
  len : after.len = before.len
  networkHeader : after.networkHeader = before.networkHeader
  transportHeader : after.transportHeader = before.transportHeader
  length : after.memory.length = before.memory.length
  take : after.memory.take bound = before.memory.take bound

theorem SameUpTo.refl (bound : Nat) (skb : SkBuff) :
    SameUpTo bound skb skb :=
  ⟨rfl, rfl, rfl, rfl, rfl, rfl⟩

theorem SameUpTo.trans
    {bound : Nat} {first second third : SkBuff}
    (left : SameUpTo bound first second)
    (right : SameUpTo bound second third) :
    SameUpTo bound first third where
  data := right.data.trans left.data
  len := right.len.trans left.len
  networkHeader := right.networkHeader.trans left.networkHeader
  transportHeader := right.transportHeader.trans left.transportHeader
  length := right.length.trans left.length
  take := right.take.trans left.take

/-- A store after the bound. -/
theorem SkBuff.sameUpTo_of_storeBytes
    {skb stored : SkBuff} {bound position : Nat} {bytes : List (BitVec 8)}
    (store : skb.storeBytes position bytes = .value stored)
    (ordered : bound ≤ position) :
    SameUpTo bound skb stored := by
  rcases SkBuff.storeBytes_eq_value_iff.mp store with ⟨memory, write, rfl⟩
  exact
    ⟨rfl, rfl, rfl, rfl, Memory.length_of_write write,
      Memory.take_of_write write ordered⟩

theorem SameUpTo.loadByte_eq
    {bound position : Nat} {before after : SkBuff}
    (same : SameUpTo bound before after) (ordered : position < bound) :
    after.loadByte position = before.loadByte position := by
  rw [SkBuff.loadByte, Memory.getElem?_eq_of_take same.take ordered]
  rfl

end CodingExamples.Ipip.Buffer
