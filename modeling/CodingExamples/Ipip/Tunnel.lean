import CodingExamples.FlowTracker.Hook
import CodingExamples.Ipip.ReduceTcpMss

/-!
# The two hooks of the tunnel

`hook_func_out` puts a second IP header in front of the TCP packets of one
port, and `hook_func_in` takes it off again.  The header that goes on has no
options; the one below it may have.

The kernel functions that may move a buffer are choices of the environment.
When one of them has moved it, `old_iph` points to freed memory, and what is
read there is a choice as well.  Packets are in one piece, for which
`skb_linearize` returns 0 and moves nothing.

`hook_func_in` reads the header length through a pointer to the header that
it has just removed.  The main theorem states when that gives the transport
header of the inner packet.
-/

namespace CodingExamples.Ipip.Tunnel

open CodingExamples.Library
open CodingExamples.Library.Outcome
open CodingExamples.FlowTracker.Hook (strncmp ifnamsiz nfAccept ipprotoTcp)
open CodingExamples.Ipip.Buffer
open CodingExamples.Ipip.ReduceTcpMss

/-- `NF_DROP`. -/
def nfDrop : BitVec 32 := 0

/-- `IPPROTO_IPIP`. -/
def ipprotoIpip : BitVec 8 := 4

/-- The device name `eth1`. -/
def eth1 : List (BitVec 8) := [101, 116, 104, 49]

/-- The TCP port that is tunnelled. -/
def port : BitVec 16 := 5001

/-- What a kernel function does that may have to copy the buffer. -/
inductive Reallocation where
  | failed
  | inPlace
  /-- The old memory is freed and later read as this header. -/
  | moved (freed : IpHeader)
deriving DecidableEq, Repr

/-- The answers of the kernel during one call of `hook_func_out`. -/
structure Environment where
  /-- `skb_linearize(skb) == 0`; it moves nothing. -/
  linear : Bool
  /-- `LL_RESERVED_SPACE(out)`. -/
  reservedSpace : Nat
  /-- `pskb_expand_head`, which always moves the buffer if it succeeds. -/
  expandHead : Option IpHeader
  /-- `iptunnel_handle_offloads`. -/
  handleOffloads : Reallocation
  /-- `skb_make_writable`. -/
  makeWritable : Reallocation
deriving DecidableEq, Repr

/-- Where `old_iph` points to. -/
inductive OldHeader where
  | inBuffer (position : Nat)
  | dangling (freed : IpHeader)
deriving DecidableEq, Repr

/-- The pointer after the buffer may have been moved. -/
def OldHeader.after (old : OldHeader) : Reallocation → OldHeader
  | .moved freed =>
      match old with
      | .inBuffer _ => .dangling freed
      | .dangling header => .dangling header
  | _ => old

/-- The fields that are read through the pointer. -/
def OldHeader.load (old : OldHeader) (skb : SkBuff) :
    Outcome Fault IpHeader :=
  match old with
  | .inBuffer position => skb.loadIpHeader position
  | .dangling freed => .value freed

/-! ## The hook for outgoing packets -/

/-- The header that is pushed in front of the old one. -/
def outerHeader (old : IpHeader) (originalTotLen : BitVec 16) : IpHeader :=
  let iph : IpHeader :=
    { version := 4
      ihl := 5
      totLen := originalTotLen + 20
      id := old.id
      fragOff := old.fragOff
      protocol := ipprotoIpip
      tos := old.tos
      daddr := old.daddr
      saddr := old.saddr
      ttl := old.ttl
      check := 0 }
  { iph with check := ipFastCsum iph.bytes }

/-- The MSS step: only SYN segments are rewritten. -/
def rewriteMss (env : Environment) (fuel : Nat) (skb : SkBuff) :
    Outcome Fault SkBuff := do
  let syn ← loadSyn skb skb.transportHeader
  if syn then
    reduceTcpMss env.linear fuel skb 20
  else
    pure skb

/-- Make room for the header; `none` if the buffer cannot be expanded. -/
def makeRoom (env : Environment) (skb : SkBuff) :
    Option (SkBuff × OldHeader) :=
  let maxHeadroom := sizeofIphdr + env.reservedSpace
  if skb.headroom < maxHeadroom then
    match env.expandHead with
    | none => none
    | some freed =>
        some
          (skb.expandHead (maxHeadroom - skb.headroom), .dangling freed)
  else
    some (skb, .inBuffer skb.networkHeader)

/-- Push the header and fill it in. -/
def pushHeader (env : Environment) (originalTotLen : BitVec 16)
    (skb : SkBuff) (oldIph : OldHeader) :
    Outcome Fault (BitVec 32 × SkBuff) := do
  let pushed ← skb.push sizeofIphdr
  let skb := pushed.resetNetworkHeader
  if env.makeWritable = .failed then
    pure (nfDrop, skb)
  else
    let old ← (oldIph.after env.makeWritable).load skb
    let skb ←
      skb.storeBytes skb.networkHeader
        (outerHeader old originalTotLen).bytes
    pure (nfAccept, skb)

/-- `hook_func_out` behind its filters and the MSS step. -/
def encapsulate (env : Environment) (skb : SkBuff) :
    Outcome Fault (BitVec 32 × SkBuff) := do
  let originalTotLen ← skb.loadShort (skb.networkHeader + 2)
  match makeRoom env skb with
  | none => pure (nfDrop, skb)
  | some (skb, oldIph) =>
      if env.handleOffloads = .failed then
        .fault .errorPointer
      else
        pushHeader env originalTotLen skb (oldIph.after env.handleOffloads)

/-- `hook_func_out(hooknum, skb, in, out, okfn)`. -/
def hookFuncOut (env : Environment) (fuel : Nat) (out : List (BitVec 8))
    (skb : SkBuff) : Outcome Fault (BitVec 32 × SkBuff) := do
  if strncmp out eth1 ifnamsiz = 0 then
    let protocol ← skb.loadProtocol skb.networkHeader
    if protocol = ipprotoTcp then
      let source ← skb.loadShort skb.transportHeader
      let dest ← skb.loadShort (skb.transportHeader + 2)
      if source ≠ port ∧ dest ≠ port then
        pure (nfAccept, skb)
      else
        let skb ← rewriteMss env fuel skb
        encapsulate env skb
    else
      pure (nfAccept, skb)
  else
    pure (nfAccept, skb)

/-! ## The hook for incoming packets -/

/-- `hook_func_in(hooknum, skb, in, out, okfn)`. -/
def hookFuncIn (device : List (BitVec 8)) (skb : SkBuff) :
    Outcome Fault (BitVec 32 × SkBuff) := do
  let iph := skb.networkHeader
  if strncmp device eth1 ifnamsiz = 0 then
    let protocol ← skb.loadProtocol iph
    if protocol = ipprotoIpip then
      let pulled ← skb.loadIhl iph
      let skb := (skb.pull (pulled * 4)).resetNetworkHeader
      -- `iph` still points to the header that was pulled.
      let ihl ← skb.loadIhl iph
      pure
        (nfAccept,
          { skb with transportHeader := skb.networkHeader + ihl * 4 })
    else
      pure (nfAccept, skb)
  else
    pure (nfAccept, skb)

/-! ## Packets -/

/-- A TCP packet, in one piece, as the hook for outgoing packets gets it. -/
structure TcpPacket where
  skb : SkBuff
  ihl : Nat
  inside : skb.data + skb.len ≤ skb.memory.length
  atNetworkHeader : skb.networkHeader = skb.data
  header : skb.loadIhl skb.networkHeader = .value ihl
  legal : 5 ≤ ihl
  tcp : skb.loadProtocol skb.networkHeader = .value ipprotoTcp
  transport : skb.transportHeader = skb.networkHeader + 4 * ihl
  whole : 4 * ihl + sizeofTcphdr ≤ skb.len

/-- The packet passes the filters of the hook for outgoing packets. -/
structure Selected (out : List (BitVec 8)) (skb : SkBuff) : Prop where
  device : strncmp out eth1 ifnamsiz = 0
  ports :
    ∃ source dest,
      skb.loadShort skb.transportHeader = .value source ∧
        skb.loadShort (skb.transportHeader + 2) = .value dest ∧
          (source = port ∨ dest = port)

/-- The buffer in which the receiver finds the bytes of a packet. -/
structure Delivered (sent received : SkBuff) : Prop where
  contents : received.contents = sent.contents
  inside : received.data + received.len ≤ received.memory.length
  atNetworkHeader : received.networkHeader = received.data

/-! ## Encapsulation -/

@[simp]
theorem length_bytes (header : IpHeader) :
    header.bytes.length = sizeofIphdr := by
  simp [IpHeader.bytes, sizeofIphdr]

theorem contents_expandHead (skb : SkBuff) (count : Nat) :
    (skb.expandHead count).contents = skb.contents := by
  rw [SkBuff.contents, SkBuff.contents]
  show ((List.replicate count 0 ++ skb.memory).drop
      (skb.data + count)).take skb.len = _
  rw [Nat.add_comm skb.data count, ← List.drop_drop]
  have room : (List.replicate count (0 : BitVec 8)).length = count :=
    List.length_replicate
  rw [List.drop_left' room]

/-- Making room leaves the packet as it is. -/
theorem contents_of_makeRoom
    {env : Environment} {skb roomy : SkBuff} {oldIph : OldHeader}
    (room : makeRoom env skb = some (roomy, oldIph)) :
    roomy.contents = skb.contents ∧ roomy.len = skb.len := by
  simp only [makeRoom] at room
  split at room
  · split at room
    · cases room
    · cases room
      exact ⟨contents_expandHead skb _, rfl⟩
  · cases room
    exact ⟨rfl, rfl⟩

/-- An accepted packet has an outer header and then the bytes it had before. -/
theorem contents_of_pushHeader
    {env : Environment} {originalTotLen : BitVec 16} {skb sent : SkBuff}
    {oldIph : OldHeader}
    (push :
      pushHeader env originalTotLen skb oldIph = .value (nfAccept, sent)) :
    ∃ old,
      sent.contents =
        (outerHeader old originalTotLen).bytes ++ skb.contents := by
  rw [pushHeader, bind_eq_value_iff] at push
  rcases push with ⟨pushed, room, push⟩
  rw [SkBuff.push] at room
  split at room
  · cases room
  · case isFalse enough =>
      cases room
      split at push
      · cases push
      · rw [bind_eq_value_iff] at push
        rcases push with ⟨old, _, push⟩
        rw [bind_eq_value_iff] at push
        rcases push with ⟨stored, store, same⟩
        cases same
        refine ⟨old, ?_⟩
        rcases SkBuff.storeBytes_eq_value_iff.mp store with
          ⟨memory, write, rfl⟩
        have behind := Memory.drop_of_write write
        rw [length_bytes] at behind
        show (memory.drop (skb.data - sizeofIphdr)).take
          (skb.len + sizeofIphdr) = _
        have start : skb.data - sizeofIphdr + sizeofIphdr = skb.data :=
          Nat.sub_add_cancel (Nat.le_of_not_lt enough)
        change memory.drop (skb.data - sizeofIphdr) =
          (outerHeader old originalTotLen).bytes ++
            skb.memory.drop (skb.data - sizeofIphdr + sizeofIphdr)
          at behind
        rw [start] at behind
        rw [behind, Nat.add_comm skb.len,
          ← length_bytes (outerHeader old originalTotLen),
          List.take_length_add_append]
        rfl

theorem contents_of_encapsulate
    {env : Environment} {skb sent : SkBuff}
    (encapsulated : encapsulate env skb = .value (nfAccept, sent)) :
    ∃ old originalTotLen,
      sent.contents =
        (outerHeader old originalTotLen).bytes ++ skb.contents := by
  rw [encapsulate, bind_eq_value_iff] at encapsulated
  rcases encapsulated with ⟨originalTotLen, _, encapsulated⟩
  split at encapsulated
  · cases encapsulated
  · case h_2 roomy oldIph room =>
      split at encapsulated
      · cases encapsulated
      · rcases contents_of_pushHeader encapsulated with ⟨old, contents⟩
        rw [(contents_of_makeRoom room).1] at contents
        exact ⟨old, originalTotLen, contents⟩

/-- A selected packet goes through the MSS step and is then encapsulated. -/
theorem hookFuncOut_of_selected
    {packet : TcpPacket} {out : List (BitVec 8)}
    (selected : Selected out packet.skb) (env : Environment) (fuel : Nat) :
    hookFuncOut env fuel out packet.skb =
      (rewriteMss env fuel packet.skb >>= encapsulate env) := by
  rcases selected with ⟨device, source, dest, sourceRead, destRead, matching⟩
  have notOther : ¬ (source ≠ port ∧ dest ≠ port) := by
    rintro ⟨otherSource, otherDest⟩
    exact matching.elim otherSource otherDest
  rw [hookFuncOut, if_pos device, packet.tcp, value_bind, if_pos rfl,
    sourceRead, value_bind, destRead, value_bind, if_neg notOther]

/-! ## Decapsulation -/

/-- The bytes of the packet are read from its buffer. -/
theorem loadByte_contents
    {skb : SkBuff} {index : Nat} {byte : BitVec 8}
    (found : skb.contents[index]? = some byte) :
    skb.loadByte (skb.data + index) = .value byte := by
  rw [SkBuff.contents, List.getElem?_take] at found
  split at found
  · rw [List.getElem?_drop] at found
    rw [SkBuff.loadByte, found]
    rfl
  · cases found

theorem bytes_first (header : IpHeader) :
    header.bytes[0]? = some (header.version ++ header.ihl) :=
  rfl

theorem bytes_protocol (header : IpHeader) :
    header.bytes[9]? = some header.protocol :=
  rfl

section OuterHeader

variable {received : SkBuff} {old : IpHeader} {originalTotLen : BitVec 16}
  {inner : List (BitVec 8)}

theorem getElem?_of_outerHeader
    (contents :
      received.contents =
        (outerHeader old originalTotLen).bytes ++ inner)
    {index : Nat} (below : index < sizeofIphdr) :
    received.contents[index]? =
      (outerHeader old originalTotLen).bytes[index]? := by
  rw [contents, List.getElem?_append_left]
  rwa [length_bytes]

/-- The outer header has no options. -/
theorem loadIhl_of_outerHeader
    (contents :
      received.contents =
        (outerHeader old originalTotLen).bytes ++ inner) :
    received.loadIhl received.data = .value 5 := by
  have first : received.loadByte (received.data + 0) = .value 0x45 := by
    apply loadByte_contents
    rw [getElem?_of_outerHeader contents (by decide), bytes_first]
    show some ((4 : BitVec 4) ++ (5 : BitVec 4)) = some (0x45 : BitVec 8)
    decide
  rw [Nat.add_zero] at first
  rw [SkBuff.loadIhl, first]
  rfl

theorem loadProtocol_of_outerHeader
    (contents :
      received.contents =
        (outerHeader old originalTotLen).bytes ++ inner) :
    received.loadProtocol received.data = .value ipprotoIpip := by
  apply loadByte_contents
  rw [getElem?_of_outerHeader contents (by decide), bytes_protocol]
  rfl

theorem len_of_outerHeader
    (inside : received.data + received.len ≤ received.memory.length)
    (contents :
      received.contents =
        (outerHeader old originalTotLen).bytes ++ inner) :
    received.len = sizeofIphdr + inner.length := by
  have count : received.contents.length = received.len := by
    rw [SkBuff.contents, List.length_take, List.length_drop]
    omega
  rw [← count, contents, List.length_append, length_bytes]

end OuterHeader

/--
The hook for incoming packets removes an outer header and places the
transport header 20 bytes after the new start of the packet.
-/
theorem hookFuncIn_of_outerHeader
    {received : SkBuff} {old : IpHeader} {originalTotLen : BitVec 16}
    {inner device : List (BitVec 8)}
    (listens : strncmp device eth1 ifnamsiz = 0)
    (inside : received.data + received.len ≤ received.memory.length)
    (atNetworkHeader : received.networkHeader = received.data)
    (contents :
      received.contents =
        (outerHeader old originalTotLen).bytes ++ inner) :
    ∃ decapsulated,
      hookFuncIn device received = .value (nfAccept, decapsulated) ∧
        decapsulated.contents = inner ∧
        decapsulated.networkHeader = decapsulated.data ∧
        decapsulated.transportHeader = decapsulated.networkHeader + 20 := by
  have ihl := loadIhl_of_outerHeader contents
  have protocol := loadProtocol_of_outerHeader contents
  have length := len_of_outerHeader inside contents
  have pulled :
      (received.pull 20) =
        { received with
          data := received.data + 20
          len := received.len - 20 } := by
    rw [SkBuff.pull, if_neg]
    rw [length, sizeofIphdr]
    omega
  refine
    ⟨{ received with
        data := received.data + 20
        len := received.len - 20
        networkHeader := received.data + 20
        transportHeader := received.data + 20 + 20 }, ?_, ?_, rfl, rfl⟩
  · rw [hookFuncIn, if_pos listens, atNetworkHeader, protocol, value_bind,
      if_pos rfl, ihl, value_bind, pulled]
    -- The memory has not changed, so the old pointer reads the same length.
    show (received.loadIhl received.data >>= _) = _
    rw [ihl]
    rfl
  · show (received.memory.drop (received.data + 20)).take
      (received.len - 20) = inner
    have tail := congrArg (List.drop sizeofIphdr) contents
    rw [SkBuff.contents, List.drop_take, List.drop_drop,
      List.drop_left' (length_bytes _)] at tail
    exact tail

/-! ## The round trip -/

/-- The MSS step keeps the header length of the packet. -/
theorem loadIhl_of_rewriteMss
    {packet : TcpPacket} {env : Environment} {fuel : Nat}
    {rewritten : SkBuff}
    (rewrite : rewriteMss env fuel packet.skb = .value rewritten) :
    rewritten.loadIhl rewritten.networkHeader = .value packet.ihl := by
  have same :
      SameUpTo packet.skb.transportHeader packet.skb rewritten := by
    rw [rewriteMss, bind_eq_value_iff] at rewrite
    rcases rewrite with ⟨syn, _, rewrite⟩
    split at rewrite
    · exact sameUpTo_of_reduceTcpMss rewrite
    · cases rewrite
      exact SameUpTo.refl _ _
  have before :
      packet.skb.networkHeader < packet.skb.transportHeader := by
    have transport := packet.transport
    have legal := packet.legal
    omega
  rw [SkBuff.loadIhl, same.networkHeader, same.loadByte_eq before]
  exact packet.header

/--
A packet that `hook_func_out` has encapsulated and that reaches `hook_func_in`
of a receiver: the receiver finds the inner packet as it was after the MSS
step, its network header at the inner IP header, and its transport header at
the inner TCP header, exactly if the inner IP header has no options.
-/
theorem decapsulated_iff
    (packet : TcpPacket) (env : Environment) (fuel : Nat)
    (out device : List (BitVec 8)) (sent received : SkBuff)
    (selected : Selected out packet.skb)
    (encapsulated :
      hookFuncOut env fuel out packet.skb = .value (nfAccept, sent))
    (delivered : Delivered sent received)
    (listens : strncmp device eth1 ifnamsiz = 0) :
    ∃ rewritten decapsulated,
      rewriteMss env fuel packet.skb = .value rewritten ∧
        rewritten.loadIhl rewritten.networkHeader = .value packet.ihl ∧
        hookFuncIn device received = .value (nfAccept, decapsulated) ∧
        ((decapsulated.contents = rewritten.contents ∧
            decapsulated.networkHeader = decapsulated.data ∧
            decapsulated.transportHeader =
              decapsulated.networkHeader + 4 * packet.ihl) ↔
          packet.ihl = 5) := by
  rw [hookFuncOut_of_selected selected, bind_eq_value_iff] at encapsulated
  rcases encapsulated with ⟨rewritten, rewrite, encapsulated⟩
  rcases contents_of_encapsulate encapsulated with
    ⟨old, originalTotLen, contents⟩
  rw [← delivered.contents] at contents
  rcases hookFuncIn_of_outerHeader listens delivered.inside
      delivered.atNetworkHeader contents with
    ⟨decapsulated, accepted, inner, network, transport⟩
  refine
    ⟨rewritten, decapsulated, rewrite, loadIhl_of_rewriteMss rewrite,
      accepted, ?_⟩
  constructor
  · rintro ⟨_, _, placed⟩
    omega
  · intro noOptions
    refine ⟨inner, network, ?_⟩
    rw [transport, noOptions]

/-! ## A packet with IP options -/

/-- A segment to port 80 from port 5001 below an IP header of 24 bytes. -/
def sixWords : TcpPacket where
  skb :=
    { memory :=
        List.replicate 20 0 ++
          [0x46, 0, 0, 44, 0, 1, 0x40, 0, 64, 6, 0, 0, 10, 0, 0, 1, 10, 0, 0,
            2, 1, 1, 1, 0] ++
          [0x13, 0x89, 0, 80, 0, 0, 0, 1, 0, 0, 0, 1, 0x50, 0x10, 1, 0, 0, 0,
            0, 0]
      data := 20
      len := 44
      networkHeader := 20
      transportHeader := 44 }
  ihl := 6
  inside := by decide
  atNetworkHeader := rfl
  header := by decide
  legal := by decide
  tcp := by decide
  transport := rfl
  whole := by decide

/-- A sender whose buffers have room and need not be moved. -/
def quiet : Environment where
  linear := true
  reservedSpace := 0
  expandHead := none
  handleOffloads := .inPlace
  makeWritable := .inPlace

/-- The buffer after the header was pushed. -/
def sixWordsSent : SkBuff where
  memory :=
    [0x45, 0, 0, 64, 0, 1, 0x40, 0, 64, 4, 0x26, 0xb7, 10, 0, 0, 1, 10, 0, 0,
      2] ++
      sixWords.skb.memory.drop 20
  data := 0
  len := 64
  networkHeader := 0
  transportHeader := 44

theorem sixWords_selected : Selected eth1 sixWords.skb where
  device := by decide
  ports := ⟨5001, 80, by decide, by decide, Or.inl rfl⟩

theorem hookFuncOut_sixWords :
    hookFuncOut quiet 0 eth1 sixWords.skb =
      .value (nfAccept, sixWordsSent) := by
  decide +kernel

/-- The receiver may find the packet in the same layout. -/
theorem sixWordsSent_delivered : Delivered sixWordsSent sixWordsSent where
  contents := rfl
  inside := by decide
  atNetworkHeader := rfl

theorem decapsulated_iff_sixWords :
    ∃ rewritten decapsulated,
      rewriteMss quiet 0 sixWords.skb = .value rewritten ∧
        rewritten.loadIhl rewritten.networkHeader = .value 6 ∧
        hookFuncIn eth1 sixWordsSent = .value (nfAccept, decapsulated) ∧
        ((decapsulated.contents = rewritten.contents ∧
            decapsulated.networkHeader = decapsulated.data ∧
            decapsulated.transportHeader =
              decapsulated.networkHeader + 4 * 6) ↔
          6 = 5) :=
  decapsulated_iff sixWords quiet 0 eth1 eth1 sixWordsSent sixWordsSent
    sixWords_selected hookFuncOut_sixWords sixWordsSent_delivered (by decide)

/-- The transport header of that packet is found inside its IP options. -/
theorem exists_transportHeader_misplaced :
    ¬ ∀ (packet : TcpPacket) (env : Environment) (fuel : Nat)
        (out device : List (BitVec 8))
        (sent received decapsulated : SkBuff),
        Selected out packet.skb →
          hookFuncOut env fuel out packet.skb = .value (nfAccept, sent) →
          Delivered sent received →
          strncmp device eth1 ifnamsiz = 0 →
          hookFuncIn device received = .value (nfAccept, decapsulated) →
            decapsulated.transportHeader =
              decapsulated.networkHeader + 4 * packet.ihl := by
  intro placed
  have received :
      hookFuncIn eth1 sixWordsSent =
        .value
          (nfAccept,
            { sixWordsSent with
              data := 20
              len := 44
              networkHeader := 20
              transportHeader := 40 }) := by
    decide +kernel
  have wrong :=
    placed sixWords quiet 0 eth1 eth1 sixWordsSent sixWordsSent _
      sixWords_selected hookFuncOut_sixWords sixWordsSent_delivered
      (by decide) received
  revert wrong
  decide

end CodingExamples.Ipip.Tunnel
