import CodingExamples.Ipip.OptionWalk

/-!
# The checksums of the tunnel

A receiver adds up a header or a segment with the checksum that is stored in
it, and accepts it if the folded sum is 0.  Whatever the sum was when the
checksum was computed, it is accepted: also when the old IP header is read
from freed memory, the outer header is sound.
-/

namespace CodingExamples.Ipip.Checksums

open CodingExamples.Library
open CodingExamples.Library.Outcome
open CodingExamples.FlowTracker.Hook (nfAccept ipprotoTcp)
open CodingExamples.Ipip.Buffer
open CodingExamples.Ipip.ReduceTcpMss
open CodingExamples.Ipip.Tunnel
open CodingExamples.Ipip.OptionWalk (SynPacket)

/-! ## Sums of words -/

/-- A sum is accepted if it is a multiple of `2 ^ 16 - 1` other than 0. -/
theorem csumFold_eq_zero
    {sum : Nat} (positive : sum ≠ 0) (multiple : 65535 ∣ sum) :
    csumFold sum = 0 := by
  rcases multiple with ⟨factor, rfl⟩
  have folded : (65535 * factor - 1) % 65535 + 1 = 65535 := by
    omega
  rw [csumFold, if_neg positive, folded]
  decide

theorem toNat_csumFold (sum : Nat) :
    (csumFold sum).toNat =
      65535 - if sum = 0 then 0 else (sum - 1) % 65535 + 1 := by
  rw [csumFold, BitVec.toNat_not]
  split
  · rfl
  · have small : (sum - 1) % 65535 + 1 < 2 ^ 16 := by
      omega
    rw [BitVec.toNat_ofNat, Nat.mod_eq_of_lt small]

/-- The sum with its own checksum is accepted. -/
theorem csumFold_add_csumFold (sum : Nat) :
    csumFold (sum + (csumFold sum).toNat) = 0 := by
  rw [toNat_csumFold]
  split
  · apply csumFold_eq_zero <;> omega
  · apply csumFold_eq_zero
    · omega
    · have carried := Nat.div_add_mod (sum - 1) 65535
      refine ⟨(sum - 1) / 65535 + 1, ?_⟩
      omega

/-- Words do not straddle the end of an even number of bytes. -/
theorem csumPartial_append
    (front back : List (BitVec 8)) (even : front.length % 2 = 0) :
    csumPartial (front ++ back) = csumPartial front + csumPartial back := by
  induction front using csumPartial.induct with
  | case1 => rw [List.nil_append, csumPartial, Nat.zero_add]
  | case2 last => cases even
  | case3 high low rest ih =>
      have shorter : rest.length % 2 = 0 := by
        rw [List.length_cons, List.length_cons] at even
        omega
      rw [List.cons_append, List.cons_append, csumPartial, csumPartial,
        ih shorter]
      simp only [Nat.add_assoc]

theorem csumPartial_short (value : BitVec 16) :
    csumPartial (ByteOrder.big.encode 2 value.toNat) = value.toNat := by
  have bound := value.isLt
  show csumPartial
    [BitVec.ofNat 8 (value.toNat / 256), BitVec.ofNat 8 value.toNat] = _
  simp only [csumPartial, BitVec.toNat_ofNat]
  omega

/-- A sum with a short in the middle. -/
theorem csumPartial_around
    (before after : List (BitVec 8)) (even : before.length % 2 = 0)
    (value : BitVec 16) :
    csumPartial
        (before ++ (ByteOrder.big.encode 2 value.toNat ++ after)) =
      csumPartial (before ++ (ByteOrder.big.encode 2 0 ++ after)) +
        value.toNat := by
  have zero :
      csumPartial (ByteOrder.big.encode 2 (0 : BitVec 16).toNat) = 0 :=
    csumPartial_short 0
  have two (number : Nat) :
      (ByteOrder.big.encode 2 number).length % 2 = 0 := by
    rw [ByteOrder.length_encode]
  rw [csumPartial_append before _ even, csumPartial_append before _ even,
    csumPartial_append _ after (two _), csumPartial_append _ after (two _),
    csumPartial_short]
  change csumPartial (ByteOrder.big.encode 2 0) = 0 at zero
  rw [zero]
  omega

/-! ## The outer header -/

/-- What the header holds before its checksum. -/
def front (header : IpHeader) : List (BitVec 8) :=
  [header.version ++ header.ihl, header.tos] ++
    ByteOrder.big.encode 2 header.totLen.toNat ++
    ByteOrder.big.encode 2 header.id.toNat ++
    ByteOrder.big.encode 2 header.fragOff.toNat ++
    [header.ttl, header.protocol]

/-- What the header holds behind its checksum. -/
def back (header : IpHeader) : List (BitVec 8) :=
  ByteOrder.big.encode 4 header.saddr.toNat ++
    ByteOrder.big.encode 4 header.daddr.toNat

theorem bytes_eq (header : IpHeader) :
    header.bytes =
      front header ++
        (ByteOrder.big.encode 2 header.check.toNat ++
          back header) := by
  simp only [IpHeader.bytes, front, back,
    List.append_assoc]

/-- A header with the checksum of the same header without one. -/
theorem ipFastCsum_with_check (header : IpHeader) (zero : header.check = 0) :
    ipFastCsum { header with check := ipFastCsum header.bytes }.bytes = 0 := by
  have even : (front header).length % 2 = 0 := by
    simp [front]
  have cleared :
      header.bytes =
        front header ++
          (ByteOrder.big.encode 2 0 ++ back header) := by
    rw [bytes_eq, zero]
    rfl
  have checked :
      { header with check := ipFastCsum header.bytes }.bytes =
        front header ++
          (ByteOrder.big.encode 2 (ipFastCsum header.bytes).toNat ++
            back header) :=
    bytes_eq _
  rw [ipFastCsum, checked, csumPartial_around _ _ even, ← cleared]
  exact csumFold_add_csumFold _

theorem ipFastCsum_outerHeader
    (old : IpHeader) (originalTotLen : BitVec 16) :
    ipFastCsum (outerHeader old originalTotLen).bytes = 0 :=
  ipFastCsum_with_check _ rfl

/-! ## The segment -/

/-- What a receiver computes from a TCP packet with that header length. -/
def tcpCheck (packet : List (BitVec 8)) (ihl : Nat) : BitVec 16 :=
  csumTcpudpMagic ((packet.drop 12).take 4) ((packet.drop 16).take 4)
    (packet.length - 4 * ihl) ipprotoTcp.toNat
    (csumPartial (packet.drop (4 * ihl)))

theorem csumTcpudpMagic_accepted
    (saddr daddr : List (BitVec 8)) (len proto sum : Nat) :
    csumFold
        (sum + (csumTcpudpMagic saddr daddr len proto sum).toNat +
          csumPartial saddr + csumPartial daddr + len + proto) = 0 := by
  have accepted :=
    csumFold_add_csumFold
      (sum + csumPartial saddr + csumPartial daddr + len + proto)
  rw [csumTcpudpMagic]
  refine Eq.trans (congrArg csumFold ?_) accepted
  omega

/-- A store of a short in the middle of a stretch. -/
theorem stretch_of_storeShort
    {skb stored : SkBuff} {position start count : Nat} {value : BitVec 16}
    (store : skb.storeShort position value = .value stored)
    (ordered : start ≤ position) (fits : position + 2 ≤ start + count) :
    (stored.memory.drop start).take count =
      (skb.memory.drop start).take (position - start) ++
        (ByteOrder.big.encode 2 value.toNat ++
          (skb.memory.drop (position + 2)).take
            (start + count - (position + 2))) := by
  rcases SkBuff.storeBytes_eq_value_iff.mp store with ⟨memory, write, rfl⟩
  have size := ByteOrder.length_encode .big 2 value.toNat
  have stretch :=
    Memory.stretch_of_write write ordered (by rw [size]; exact fits)
  rw [size] at stretch
  exact stretch

theorem eq_of_loadBytes
    {skb : SkBuff} {position count : Nat} {bytes : List (BitVec 8)}
    (load : skb.loadBytes position count = .value bytes) :
    position + count ≤ skb.memory.length ∧
      bytes = (skb.memory.drop position).take count := by
  rw [SkBuff.loadBytes, Memory.read] at load
  split at load
  case isTrue inside =>
    cases load
    exact ⟨inside, rfl⟩
  case isFalse =>
    cases load

/-- What lies before a store is read as before. -/
theorem stretch_before_storeShort
    {skb stored : SkBuff} {position start count : Nat} {value : BitVec 16}
    (store : skb.storeShort position value = .value stored)
    (before : start + count ≤ position) :
    (stored.memory.drop start).take count =
      (skb.memory.drop start).take count := by
  rcases SkBuff.storeBytes_eq_value_iff.mp store with ⟨memory, write, rfl⟩
  have same :=
    congrArg (List.drop start) (Memory.take_of_write write before)
  rw [List.drop_take, List.drop_take, Nat.add_sub_cancel_left] at same
  exact same

theorem drop_behind_storeShort
    {skb stored : SkBuff} {position : Nat} {value : BitVec 16}
    (store : skb.storeShort position value = .value stored) :
    stored.memory.drop (position + 2) = skb.memory.drop (position + 2) := by
  rcases SkBuff.storeBytes_eq_value_iff.mp store with ⟨memory, write, rfl⟩
  have size := ByteOrder.length_encode .big 2 value.toNat
  have behind := congrArg (List.drop 2) (Memory.drop_of_write write)
  rw [size, List.drop_drop, List.drop_left' size] at behind
  exact behind

/-- A second store leaves around it what was there before the first. -/
theorem stretch_of_storeShort_again
    {skb once twice : SkBuff} {position start count : Nat}
    {value again : BitVec 16}
    (first : skb.storeShort position value = .value once)
    (second : once.storeShort position again = .value twice)
    (ordered : start ≤ position) (fits : position + 2 ≤ start + count) :
    (twice.memory.drop start).take count =
      (skb.memory.drop start).take (position - start) ++
        (ByteOrder.big.encode 2 again.toNat ++
          (skb.memory.drop (position + 2)).take
            (start + count - (position + 2))) := by
  have stretch := stretch_of_storeShort second ordered fits
  have before :
      (once.memory.drop start).take (position - start) =
        (skb.memory.drop start).take (position - start) :=
    stretch_before_storeShort first (by omega)
  rw [before, drop_behind_storeShort first] at stretch
  exact stretch

/-- A stretch whose checksum was cleared and then stored. -/
theorem csumPartial_of_storeShort_again
    {skb zeroed stored : SkBuff} {position start count : Nat}
    {check : BitVec 16}
    (zero : skb.storeShort position 0 = .value zeroed)
    (checked : zeroed.storeShort position check = .value stored)
    (ordered : start ≤ position) (fits : position + 2 ≤ start + count)
    (inside : start + count ≤ skb.memory.length)
    (even : (position - start) % 2 = 0) :
    csumPartial ((stored.memory.drop start).take count) =
      csumPartial ((zeroed.memory.drop start).take count) +
        check.toNat := by
  have evenFront :
      ((skb.memory.drop start).take (position - start)).length % 2 = 0 := by
    rw [List.length_take, List.length_drop, Nat.min_eq_left (by omega)]
    exact even
  rw [stretch_of_storeShort zero ordered fits,
    stretch_of_storeShort_again zero checked ordered fits,
    csumPartial_around _ _ evenFront]
  rfl

/-- A stretch of the packet is one of the memory. -/
theorem stretch_contents
    (skb : SkBuff) {start count : Nat} (fits : start + count ≤ skb.len) :
    (skb.contents.drop start).take count =
      (skb.memory.drop (skb.data + start)).take count := by
  rw [SkBuff.contents, List.drop_take, List.drop_drop, List.take_take,
    Nat.min_eq_left (by omega)]

theorem drop_contents (skb : SkBuff) (start : Nat) :
    skb.contents.drop start =
      (skb.memory.drop (skb.data + start)).take (skb.len - start) := by
  rw [SkBuff.contents, List.drop_take, List.drop_drop]

theorem length_contents
    {skb : SkBuff} (inside : skb.data + skb.len ≤ skb.memory.length) :
    skb.contents.length = skb.len := by
  rw [SkBuff.contents, List.length_take, List.length_drop]
  omega

/-- The segment is accepted with the checksum that has been stored. -/
theorem tcpCheck_of_storeChecksum
    {walked stored : SkBuff} {ihl : Nat} (legal : 5 ≤ ihl)
    (whole : 4 * ihl + sizeofTcphdr ≤ walked.len)
    (short : walked.len < 2 ^ 32)
    (header : walked.loadIhl walked.data = .value ihl)
    (tcp : walked.loadProtocol walked.data = .value ipprotoTcp)
    (store :
      storeChecksum walked walked.data (walked.data + 4 * ihl) =
        .value stored) :
    tcpCheck stored.contents ihl = 0 := by
  rw [sizeofTcphdr] at whole
  simp only [storeChecksum, bind_eq_value_iff] at store
  rcases store with
    ⟨ihlRead, headerRead, zeroed, zero, saddr, saddrRead, daddr, daddrRead,
      protocol, protocolRead, segment, segmentRead, checked⟩
  rw [header] at headerRead
  cases headerRead
  have tcpLen :
      (walked.len + (2 ^ 32 - ihl * 4)) % 2 ^ 32 = walked.len - 4 * ihl := by
    omega
  rw [tcpLen] at segmentRead checked
  have untouched := SkBuff.sameUpTo_of_storeBytes zero (Nat.le_refl _)
  have final := SkBuff.sameUpTo_of_storeBytes checked (Nat.le_refl _)
  have data : stored.data = walked.data := final.data.trans untouched.data
  have len : stored.len = walked.len := final.len.trans untouched.len
  rw [SkBuff.loadProtocol, untouched.loadByte_eq (by omega)] at protocolRead
  rw [SkBuff.loadProtocol, protocolRead] at tcp
  cases tcp
  rcases eq_of_loadBytes saddrRead with ⟨_, source⟩
  rcases eq_of_loadBytes daddrRead with ⟨_, target⟩
  rcases eq_of_loadBytes segmentRead with ⟨inside, bytes⟩
  have length := untouched.length
  have size : stored.contents.length = walked.len := by
    rw [length_contents, len]
    rw [final.length, data, len]
    omega
  have sum :=
    csumPartial_of_storeShort_again zero checked
      (Nat.le_add_right (walked.data + 4 * ihl) 16)
      (by omega : walked.data + 4 * ihl + 16 + 2 ≤
        walked.data + 4 * ihl + (walked.len - 4 * ihl))
      (by omega) (by omega)
  rw [← bytes] at sum
  rw [tcpCheck, stretch_contents stored (by omega),
    stretch_contents stored (by omega), drop_contents, size, data, len,
    stretch_before_storeShort checked (by omega),
    stretch_before_storeShort checked (by omega), ← source, ← target, sum,
    csumTcpudpMagic]
  exact csumTcpudpMagic_accepted saddr daddr _ _ _

/-! ## The packet that is sent -/

/-- The MSS step leaves a sound segment behind if it has rewritten it. -/
theorem tcpCheck_of_reduceTcpMss
    (packet : TcpPacket) (short : packet.skb.len < 2 ^ 32)
    {fuel : Nat} {reduceSize : BitVec 16} {reduced : SkBuff}
    (syn : loadSyn packet.skb packet.skb.transportHeader = .value true)
    (reduce :
      reduceTcpMss true fuel packet.skb reduceSize = .value reduced) :
    tcpCheck reduced.contents packet.ihl = 0 := by
  rw [reduceTcpMss, syn] at reduce
  simp only [value_bind, Bool.not_true, Bool.false_eq_true, if_false,
    bind_eq_value_iff] at reduce
  rcases reduce with ⟨doff, _, walked, walk, checked⟩
  have same := sameUpTo_of_walkOptions (Nat.le_add_right _ _) walk
  have legal := packet.legal
  have transport := packet.transport
  have network := packet.atNetworkHeader
  have header := packet.header
  have tcp := packet.tcp
  rw [network, SkBuff.loadIhl] at header
  rw [network, SkBuff.loadProtocol] at tcp
  rw [network] at transport checked
  have data := same.data
  rw [transport] at checked same
  apply tcpCheck_of_storeChecksum legal
  case whole =>
    rw [same.len]
    exact packet.whole
  case short =>
    rw [same.len]
    exact short
  case header =>
    rw [data, SkBuff.loadIhl, same.loadByte_eq (by omega)]
    exact header
  case tcp =>
    rw [data, SkBuff.loadProtocol, same.loadByte_eq (by omega)]
    exact tcp
  case store =>
    rw [data]
    exact checked

/--
A packet in one piece that the hook for outgoing packets has encapsulated: its
outer header is accepted, whatever memory the old header was read from, and so
is the TCP segment if it was rewritten.  Any other packet is inside as it was.
-/
theorem hookFuncOut_checksums
    (packet : TcpPacket) (short : packet.skb.len < 2 ^ 32)
    (env : Environment) (fuel : Nat) (out : List (BitVec 8))
    (sent : SkBuff) (selected : Selected out packet.skb)
    (encapsulated :
      hookFuncOut env fuel out packet.skb = .value (nfAccept, sent)) :
    ipFastCsum (sent.contents.take sizeofIphdr) = 0 ∧
      (loadSyn packet.skb packet.skb.transportHeader = .value true →
        env.linear = true →
          tcpCheck (sent.contents.drop sizeofIphdr) packet.ihl = 0) ∧
      (loadSyn packet.skb packet.skb.transportHeader = .value false ∨
          env.linear = false →
        sent.contents.drop sizeofIphdr = packet.skb.contents) := by
  rw [hookFuncOut_of_selected selected, bind_eq_value_iff] at encapsulated
  rcases encapsulated with ⟨rewritten, rewrite, encapsulated⟩
  rcases contents_of_encapsulate encapsulated with
    ⟨old, originalTotLen, contents⟩
  have size := length_bytes (outerHeader old originalTotLen)
  rw [contents, List.take_left' size, List.drop_left' size]
  rw [rewriteMss, bind_eq_value_iff] at rewrite
  rcases rewrite with ⟨syn, synRead, rewrite⟩
  refine ⟨ipFastCsum_outerHeader old originalTotLen, ?_, ?_⟩
  · intro isSyn linear
    rw [synRead] at isSyn
    cases isSyn
    rw [if_pos rfl, linear] at rewrite
    exact tcpCheck_of_reduceTcpMss packet short synRead rewrite
  · rintro (other | fragmented)
    · rw [synRead] at other
      cases other
      cases rewrite
      rfl
    · cases syn with
      | false =>
          cases rewrite
          rfl
      | true =>
          rw [if_pos rfl, fragmented, reduceTcpMss, synRead] at rewrite
          cases rewrite
          rfl

/-- A SYN to port 80 from port 5001 with an MSS of 1460. -/
def connecting : SynPacket :=
  SynPacket.ofMemory
    [0x45, 0, 0, 44, 0, 1, 0x40, 0, 64, 6, 0, 0, 10, 0, 0, 1, 10, 0, 0, 2,
      0x13, 0x89, 0, 80, 0, 0, 0, 1, 0, 0, 0, 0, 0x60, 2, 1, 0, 0, 0, 0, 0,
      2, 4, 5, 0xb4]
    6 (by decide) (by decide) (by decide) (by decide) (by decide)

/-- A sender whose buffers have no room, and whose freed memory is cleared. -/
def moving : Environment :=
  { quiet with
    expandHead :=
      some
        { version := 0
          ihl := 0
          tos := 0
          totLen := 0
          id := 0
          fragOff := 0
          ttl := 0
          protocol := 0
          check := 0
          saddr := 0
          daddr := 0 } }

theorem connecting_selected : Selected eth1 connecting.skb where
  device := by decide
  ports := ⟨5001, 80, by decide, by decide, Or.inl rfl⟩

theorem hookFuncOut_checksums_connecting :
    ∃ sent,
      hookFuncOut moving 1 eth1 connecting.skb = .value (nfAccept, sent) ∧
        ipFastCsum (sent.contents.take sizeofIphdr) = 0 ∧
        tcpCheck (sent.contents.drop sizeofIphdr) 5 = 0 := by
  have encapsulated :
      ∃ sent,
        hookFuncOut moving 1 eth1 connecting.skb =
          .value (nfAccept, sent) :=
    ⟨_, rfl⟩
  rcases encapsulated with ⟨sent, encapsulated⟩
  have checks :=
    hookFuncOut_checksums connecting.toTcpPacket (by decide) moving 1 eth1
      sent connecting_selected encapsulated
  exact ⟨sent, encapsulated, checks.1, checks.2.1 (by decide) rfl⟩

end CodingExamples.Ipip.Checksums
