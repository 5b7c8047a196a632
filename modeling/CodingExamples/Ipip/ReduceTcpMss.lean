import CodingExamples.Ipip.Buffer

/-!
# The rewrite of the maximum segment size

`reduce_tcp_mss` walks over the options of a SYN segment, lowers the value of
the first option of kind 2 and computes the TCP checksum anew.  The walk
trusts the lengths that it reads, so it has fuel for its passes.

Packets are in one piece, so that `skb_linearize` moves nothing when it
returns 0, and the pointers to the headers stay valid.

Whatever the walk does, it only stores behind the start of the TCP header.
-/

namespace CodingExamples.Ipip.ReduceTcpMss

open CodingExamples.Library
open CodingExamples.Library.Outcome
open CodingExamples.Ipip.Buffer

/-- `sizeof(struct tcphdr)`. -/
def sizeofTcphdr : Nat := 20

/-- `tcph->syn`. -/
def loadSyn (skb : SkBuff) (tcph : Nat) : Outcome Fault Bool := do
  let flags ← skb.loadByte (tcph + 13)
  pure (flags.getLsbD 1)

/-- `tcph->doff`. -/
def loadDoff (skb : SkBuff) (tcph : Nat) : Outcome Fault Nat := do
  let byte ← skb.loadByte (tcph + 12)
  pure (byte.toNat / 16)

/-- The size of the option at `ptr`, which is not of kind 2. -/
def optionOffset (skb : SkBuff) (ptr : Nat) (kind : BitVec 8) :
    Outcome Fault Nat :=
  if kind = 1 then
    pure 1
  else do
    let length ← skb.loadByte (ptr + 1)
    pure length.toNat

/-- The `while (1)` loop over the options, at `ptr`. -/
def walkOptions (reduceSize : BitVec 16) (tcph tcphLen : Nat) :
    Nat → SkBuff → Nat → Outcome Fault SkBuff
  | 0, _, _ => .timeout
  | fuel + 1, skb, ptr => do
      let kind ← skb.loadByte ptr
      if kind = 2 then
        let mss ← skb.loadShort (ptr + 2)
        skb.storeShort (ptr + 2) (mss - reduceSize)
      else
        let offset ← optionOffset skb ptr kind
        if ptr - tcph + offset ≥ tcphLen then
          pure skb
        else
          walkOptions reduceSize tcph tcphLen fuel skb (ptr + offset)

/-- `tcph->check` is zeroed and then computed over the segment. -/
def storeChecksum (skb : SkBuff) (iph tcph : Nat) : Outcome Fault SkBuff := do
  let ihl ← skb.loadIhl iph
  -- `unsigned int`: a header longer than the packet wraps around.
  let tcpLen := (skb.len + (2 ^ 32 - ihl * 4)) % 2 ^ 32
  let skb ← skb.storeShort (tcph + 16) 0
  let saddr ← skb.loadBytes (iph + 12) 4
  let daddr ← skb.loadBytes (iph + 16) 4
  let protocol ← skb.loadProtocol iph
  let segment ← skb.loadBytes tcph tcpLen
  skb.storeShort (tcph + 16)
    (csumTcpudpMagic saddr daddr tcpLen protocol.toNat
      (csumPartial segment))

/--
`reduce_tcp_mss(skb, reduce_size)`; `linear` is `skb_linearize(skb) == 0`,
which is so for a packet in one piece.
-/
def reduceTcpMss (linear : Bool) (fuel : Nat) (skb : SkBuff)
    (reduceSize : BitVec 16) : Outcome Fault SkBuff := do
  let iph := skb.networkHeader
  let tcph := skb.transportHeader
  let syn ← loadSyn skb tcph
  if !syn then
    pure skb
  else if !linear then
    pure skb
  else
    let doff ← loadDoff skb tcph
    let skb ←
      walkOptions reduceSize tcph (doff * 4) fuel skb (tcph + sizeofTcphdr)
    storeChecksum skb iph tcph

/-! ## What is left unchanged -/

/-- The walk stores behind the start of the header. -/
theorem sameUpTo_of_walkOptions
    {reduceSize : BitVec 16} {tcph tcphLen fuel ptr : Nat}
    {skb walked : SkBuff} (behind : tcph ≤ ptr)
    (walk :
      walkOptions reduceSize tcph tcphLen fuel skb ptr = .value walked) :
    SameUpTo tcph skb walked := by
  induction fuel generalizing ptr with
  | zero => cases walk
  | succ fuel ih =>
      rw [walkOptions, bind_eq_value_iff] at walk
      rcases walk with ⟨kind, _, walk⟩
      split at walk
      · rw [bind_eq_value_iff] at walk
        rcases walk with ⟨mss, _, store⟩
        exact SkBuff.sameUpTo_of_storeBytes store (by omega)
      · rw [bind_eq_value_iff] at walk
        rcases walk with ⟨offset, _, walk⟩
        split at walk
        · cases walk
          exact SameUpTo.refl tcph skb
        · exact ih (by omega) walk

theorem sameUpTo_of_storeChecksum
    {iph tcph : Nat} {skb stored : SkBuff}
    (store : storeChecksum skb iph tcph = .value stored) :
    SameUpTo tcph skb stored := by
  simp only [storeChecksum, bind_eq_value_iff] at store
  rcases store with
    ⟨_, _, zeroed, zero, _, _, _, _, _, _, _, _, checked⟩
  exact
    (SkBuff.sameUpTo_of_storeBytes zero (by omega)).trans
      (SkBuff.sameUpTo_of_storeBytes checked (by omega))

/-- The IP header and the layout of the buffer survive the rewrite. -/
theorem sameUpTo_of_reduceTcpMss
    {linear : Bool} {fuel : Nat} {skb reduced : SkBuff}
    {reduceSize : BitVec 16}
    (reduce : reduceTcpMss linear fuel skb reduceSize = .value reduced) :
    SameUpTo skb.transportHeader skb reduced := by
  rw [reduceTcpMss, bind_eq_value_iff] at reduce
  rcases reduce with ⟨syn, _, reduce⟩
  split at reduce
  · cases reduce
    exact SameUpTo.refl _ skb
  · split at reduce
    · cases reduce
      exact SameUpTo.refl _ skb
    · simp only [bind_eq_value_iff] at reduce
      rcases reduce with ⟨doff, _, walked, walk, checked⟩
      exact
        (sameUpTo_of_walkOptions (by omega) walk).trans
          (sameUpTo_of_storeChecksum checked)

end CodingExamples.Ipip.ReduceTcpMss
