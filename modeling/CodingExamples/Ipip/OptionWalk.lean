import CodingExamples.Ipip.Tunnel
import Mathlib.Logic.Relation

/-!
# The walk over the options of a SYN segment

`reduce_tcp_mss` goes from option to option by the lengths that it reads in
the packet.  One pass of its loop faults, rewrites the value of an option of
kind 2, stops at the end of the header, or advances.  The positions that the
walk visits are therefore a chain which the bytes of the packet determine.

The walk ends exactly if it visits no option whose length byte is zero: only
there does a pass that advances stay where it is.
-/

namespace CodingExamples.Ipip.OptionWalk

open CodingExamples.Library
open CodingExamples.Library.Outcome
open CodingExamples.Ipip.Buffer
open CodingExamples.Ipip.ReduceTcpMss
open CodingExamples.Ipip.Tunnel (TcpPacket)
open Relation (ReflTransGen)

/--
A SYN segment as it is handed to `reduce_tcp_mss`.  It is in one piece:
`skb_linearize` returns 0 and moves nothing.
-/
structure SynPacket extends TcpPacket where
  doff : Nat
  syn : loadSyn skb skb.transportHeader = .value true
  offset : loadDoff skb skb.transportHeader = .value doff

/-- Where the TCP header starts. -/
abbrev SynPacket.tcph (packet : SynPacket) : Nat :=
  packet.skb.transportHeader

/-- `tcph_len`. -/
abbrev SynPacket.tcphLen (packet : SynPacket) : Nat :=
  packet.doff * 4

/-! ## One pass of the loop -/

/-- The rewrite of the value of the option at `ptr`. -/
def rewriteValue (reduceSize : BitVec 16) (skb : SkBuff) (ptr : Nat) :
    Outcome Fault SkBuff := do
  let mss ← skb.loadShort (ptr + 2)
  skb.storeShort (ptr + 2) (mss - reduceSize)

/-- A pass at `ptr` goes on at `next`. -/
def Advances (skb : SkBuff) (tcph tcphLen ptr next : Nat) : Prop :=
  ∃ kind offset,
    skb.loadByte ptr = .value kind ∧
      kind ≠ 2 ∧
      optionOffset skb ptr kind = .value offset ∧
      ptr - tcph + offset < tcphLen ∧
      next = ptr + offset

/-- What a pass of the loop at `ptr` does. -/
inductive Pass (reduceSize : BitVec 16) (tcph tcphLen : Nat) (skb : SkBuff)
    (ptr : Nat) : Prop where
  | faults (reason : Fault)
      (run : ∀ fuel,
        walkOptions reduceSize tcph tcphLen (fuel + 1) skb ptr =
          .fault reason)
  | rewrites (kind : skb.loadByte ptr = .value 2)
      (run : ∀ fuel,
        walkOptions reduceSize tcph tcphLen (fuel + 1) skb ptr =
          rewriteValue reduceSize skb ptr)
  | stops (kind : skb.loadByte ptr ≠ .value 2)
      (run : ∀ fuel,
        walkOptions reduceSize tcph tcphLen (fuel + 1) skb ptr =
          .value skb)
  | advances (next : Nat) (step : Advances skb tcph tcphLen ptr next)
      (run : ∀ fuel,
        walkOptions reduceSize tcph tcphLen (fuel + 1) skb ptr =
          walkOptions reduceSize tcph tcphLen fuel skb next)

variable {reduceSize : BitVec 16} {tcph tcphLen : Nat} {skb : SkBuff}

/-- A memory access does not need fuel. -/
theorem loadByte_eq_fault_or_value (skb : SkBuff) (ptr : Nat) :
    skb.loadByte ptr = .fault .outsideBuffer ∨
      ∃ byte, skb.loadByte ptr = .value byte := by
  rw [SkBuff.loadByte]
  cases skb.memory[ptr]? with
  | none => exact Or.inl rfl
  | some byte => exact Or.inr ⟨byte, rfl⟩

theorem optionOffset_eq_fault_or_value
    (skb : SkBuff) (ptr : Nat) (kind : BitVec 8) :
    optionOffset skb ptr kind = .fault .outsideBuffer ∨
      ∃ offset, optionOffset skb ptr kind = .value offset := by
  rw [optionOffset]
  split
  · exact Or.inr ⟨1, rfl⟩
  · rcases loadByte_eq_fault_or_value skb (ptr + 1) with
      fault | ⟨length, read⟩
    · rw [fault]
      exact Or.inl rfl
    · rw [read]
      exact Or.inr ⟨length.toNat, rfl⟩

theorem pass (reduceSize : BitVec 16) (tcph tcphLen : Nat) (skb : SkBuff)
    (ptr : Nat) : Pass reduceSize tcph tcphLen skb ptr := by
  rcases loadByte_eq_fault_or_value skb ptr with fault | ⟨kind, read⟩
  · apply Pass.faults .outsideBuffer
    intro fuel
    rw [walkOptions, fault]
    rfl
  by_cases isMss : kind = 2
  · apply Pass.rewrites (isMss ▸ read)
    intro fuel
    rw [walkOptions, read, value_bind, if_pos isMss]
    rfl
  have other (fuel : Nat) :
      walkOptions reduceSize tcph tcphLen (fuel + 1) skb ptr =
        (do
          let offset ← optionOffset skb ptr kind
          if ptr - tcph + offset ≥ tcphLen then
            pure skb
          else
            walkOptions reduceSize tcph tcphLen fuel skb (ptr + offset)) := by
    rw [walkOptions, read, value_bind, if_neg isMss]
  rcases optionOffset_eq_fault_or_value skb ptr kind with
    fault | ⟨offset, length⟩
  · apply Pass.faults .outsideBuffer
    intro fuel
    rw [other, fault]
    rfl
  by_cases ends : ptr - tcph + offset ≥ tcphLen
  · apply Pass.stops
    · rw [read]
      intro same
      cases same
      exact isMss rfl
    · intro fuel
      rw [other, length, value_bind, if_pos ends]
      rfl
  · apply Pass.advances (ptr + offset)
      ⟨kind, offset, read, isMss, length, Nat.lt_of_not_le ends, rfl⟩
    intro fuel
    rw [other, length, value_bind, if_neg ends]

/-- A pass that can advance does so. -/
theorem walkOptions_of_advances
    {ptr next : Nat} (step : Advances skb tcph tcphLen ptr next)
    (reduceSize : BitVec 16) (fuel : Nat) :
    walkOptions reduceSize tcph tcphLen (fuel + 1) skb ptr =
      walkOptions reduceSize tcph tcphLen fuel skb next := by
  rcases step with ⟨kind, offset, read, isOther, length, inside, rfl⟩
  rw [walkOptions, read, value_bind, if_neg isOther, length, value_bind,
    if_neg (Nat.not_le_of_lt inside)]

/-! ## The positions that the walk visits -/

theorem advances_rightUnique :
    Relator.RightUnique (Advances skb tcph tcphLen) := by
  rintro ptr first second
    ⟨kind, offset, read, _, length, _, rfl⟩
    ⟨otherKind, otherOffset, otherRead, _, otherLength, _, rfl⟩
  rw [read] at otherRead
  cases otherRead
  rw [length] at otherLength
  cases otherLength
  rfl

theorem not_advances_of_kind
    {ptr next : Nat} (kind : skb.loadByte ptr = .value 2) :
    ¬ Advances skb tcph tcphLen ptr next := by
  rintro ⟨other, _, read, isOther, _⟩
  rw [kind] at read
  cases read
  exact isOther rfl

/-- A chain of passes costs fuel, and nothing else. -/
theorem walkOptions_of_reflTransGen
    {ptr visited : Nat}
    (chain : ReflTransGen (Advances skb tcph tcphLen) ptr visited)
    (reduceSize : BitVec 16) :
    ∃ passes, ∀ fuel,
      walkOptions reduceSize tcph tcphLen (fuel + passes) skb ptr =
        walkOptions reduceSize tcph tcphLen fuel skb visited := by
  induction chain using ReflTransGen.head_induction_on with
  | refl => exact ⟨0, fun _ => rfl⟩
  | head step _ ih =>
      rcases ih with ⟨passes, run⟩
      refine ⟨passes + 1, fun fuel => ?_⟩
      rw [← Nat.add_assoc, walkOptions_of_advances step, run]

/-- At most one of the visited positions holds an option of kind 2. -/
theorem eq_of_visited_of_kind
    {ptr left right : Nat}
    (leftChain : ReflTransGen (Advances skb tcph tcphLen) ptr left)
    (rightChain : ReflTransGen (Advances skb tcph tcphLen) ptr right)
    (leftKind : skb.loadByte left = .value 2)
    (rightKind : skb.loadByte right = .value 2) :
    left = right := by
  rcases ReflTransGen.total_of_right_unique advances_rightUnique leftChain
      rightChain with onward | onward
  · rcases onward.cases_head with equal | ⟨next, step, _⟩
    · exact equal
    · exact absurd step (not_advances_of_kind leftKind)
  · rcases onward.cases_head with equal | ⟨next, step, _⟩
    · exact equal.symm
    · exact absurd step (not_advances_of_kind rightKind)

/-- A walk that returns has rewritten a visited option of kind 2, or nothing. -/
theorem walkOptions_eq_value
    {fuel ptr : Nat} {walked : SkBuff}
    (run :
      walkOptions reduceSize tcph tcphLen fuel skb ptr = .value walked) :
    walked = skb ∨
      ∃ stop,
        ReflTransGen (Advances skb tcph tcphLen) ptr stop ∧
          skb.loadByte stop = .value 2 ∧
          rewriteValue reduceSize skb stop = .value walked := by
  induction fuel generalizing ptr with
  | zero => cases run
  | succ fuel ih =>
      cases pass reduceSize tcph tcphLen skb ptr with
      | faults reason result =>
          rw [result] at run
          cases run
      | rewrites kind result =>
          rw [result] at run
          exact Or.inr ⟨ptr, ReflTransGen.refl, kind, run⟩
      | stops _ result =>
          rw [result] at run
          cases run
          exact Or.inl rfl
      | advances next step result =>
          rw [result] at run
          rcases ih run with same | ⟨stop, chain, kind, rewritten⟩
          · exact Or.inl same
          · exact Or.inr ⟨stop, chain.head step, kind, rewritten⟩

/-- What the walk returns is what it does at a visited option of kind 2. -/
theorem rewriteValue_of_walkOptions
    {fuel ptr stop : Nat} {walked : SkBuff}
    (run :
      walkOptions reduceSize tcph tcphLen fuel skb ptr = .value walked)
    (chain : ReflTransGen (Advances skb tcph tcphLen) ptr stop)
    (kind : skb.loadByte stop = .value 2) :
    rewriteValue reduceSize skb stop = .value walked := by
  induction fuel generalizing ptr with
  | zero => cases run
  | succ fuel ih =>
      rcases chain.cases_head with equal | ⟨next, step, rest⟩
      · subst equal
        rw [walkOptions, kind, value_bind, if_pos rfl] at run
        exact run
      · rw [walkOptions_of_advances step] at run
        exact ih run rest

/-! ## When the walk ends -/

/-- An option with a length byte, which is zero. -/
def ZeroLength (skb : SkBuff) (ptr : Nat) : Prop :=
  ∃ kind,
    skb.loadByte ptr = .value kind ∧
      kind ≠ 1 ∧
      kind ≠ 2 ∧
      skb.loadByte (ptr + 1) = .value 0

/-- Inside of the header, such an option holds the walk up. -/
theorem advances_self_iff {ptr : Nat} (behind : tcph ≤ ptr) :
    Advances skb tcph tcphLen ptr ptr ↔
      ptr < tcph + tcphLen ∧ ZeroLength skb ptr := by
  constructor
  · rintro ⟨kind, offset, read, isOther, length, inside, same⟩
    have zero : offset = 0 := by
      omega
    refine ⟨by omega, kind, read, ?_, isOther, ?_⟩
    · intro isNop
      rw [optionOffset, if_pos isNop, zero] at length
      cases length
    · rw [optionOffset] at length
      split at length
      · rw [zero] at length
        cases length
      · rcases bind_eq_value_iff.mp length with ⟨byte, lengthRead, number⟩
        rw [pure_eq_value] at number
        have toNat : byte.toNat = 0 := by
          cases number
          exact zero
        rw [lengthRead, BitVec.eq_of_toNat_eq (y := 0) toNat]
  · rintro ⟨inside, kind, read, notNop, isOther, lengthRead⟩
    refine ⟨kind, 0, read, isOther, ?_, by omega, rfl⟩
    rw [optionOffset, if_neg notNop, lengthRead]
    rfl

theorem walkOptions_eq_timeout
    {ptr : Nat} (loop : Advances skb tcph tcphLen ptr ptr)
    (reduceSize : BitVec 16) (fuel : Nat) :
    walkOptions reduceSize tcph tcphLen fuel skb ptr = .timeout := by
  induction fuel with
  | zero => rfl
  | succ fuel ih => rw [walkOptions_of_advances loop, ih]

/-- A position that the walk holds up at is never left. -/
theorem walkOptions_eq_timeout_of_chain
    {ptr stuck : Nat}
    (chain : ReflTransGen (Advances skb tcph tcphLen) ptr stuck)
    (loop : Advances skb tcph tcphLen stuck stuck)
    (reduceSize : BitVec 16) (fuel : Nat) :
    walkOptions reduceSize tcph tcphLen fuel skb ptr = .timeout := by
  induction fuel generalizing ptr with
  | zero => rfl
  | succ fuel ih =>
      rcases chain.cases_head with equal | ⟨next, step, rest⟩
      · rw [equal]
        exact walkOptions_eq_timeout loop reduceSize (fuel + 1)
      · rw [walkOptions_of_advances step, ih rest]

theorem loadShort_eq_fault_or_value (skb : SkBuff) (ptr : Nat) :
    skb.loadShort ptr = .fault .outsideBuffer ∨
      ∃ short, skb.loadShort ptr = .value short := by
  rw [SkBuff.loadShort, SkBuff.loadBytes]
  cases Memory.read skb.memory ptr 2 with
  | none => exact Or.inl rfl
  | some bytes => exact Or.inr ⟨_, rfl⟩

theorem rewriteValue_ne_timeout
    (reduceSize : BitVec 16) (skb : SkBuff) (ptr : Nat) :
    rewriteValue reduceSize skb ptr ≠ .timeout := by
  rw [rewriteValue]
  rcases loadShort_eq_fault_or_value skb (ptr + 2) with fault | ⟨mss, read⟩
  · rw [fault]
    intro impossible
    cases impossible
  · rw [read, value_bind, SkBuff.storeShort, SkBuff.storeBytes]
    cases Memory.write skb.memory (ptr + 2) _ <;> intro impossible <;>
      cases impossible

/-- Every pass that moves on brings the walk closer to the end of the header. -/
theorem walkOptions_ne_timeout
    {fuel ptr : Nat} (behind : tcph ≤ ptr)
    (enough : tcph + tcphLen - ptr < fuel)
    (moves :
      ∀ visited, ReflTransGen (Advances skb tcph tcphLen) ptr visited →
        ¬ Advances skb tcph tcphLen visited visited) :
    walkOptions reduceSize tcph tcphLen fuel skb ptr ≠ .timeout := by
  induction fuel generalizing ptr with
  | zero => omega
  | succ fuel ih =>
      cases pass reduceSize tcph tcphLen skb ptr with
      | faults reason run =>
          rw [run]
          intro impossible
          cases impossible
      | rewrites _ run =>
          rw [run]
          exact rewriteValue_ne_timeout reduceSize skb ptr
      | stops _ run =>
          rw [run]
          intro impossible
          cases impossible
      | advances next step run =>
          rw [run]
          have here := moves ptr ReflTransGen.refl
          rcases id step with ⟨kind, offset, _, _, _, inside, rfl⟩
          have forward : 0 < offset := by
            by_contra still
            have zero : offset = 0 := by
              omega
            rw [zero] at step
            exact here step
          apply ih (by omega) (by omega)
          intro visited chain
          exact moves visited (chain.head step)

/-- The walk ends unless it comes to an option of length zero. -/
theorem exists_walkOptions_ne_timeout_iff
    {ptr : Nat} (behind : tcph ≤ ptr) :
    (∃ fuel,
        walkOptions reduceSize tcph tcphLen fuel skb ptr ≠ .timeout) ↔
      ∀ visited, ReflTransGen (Advances skb tcph tcphLen) ptr visited →
        ¬ Advances skb tcph tcphLen visited visited := by
  constructor
  · rintro ⟨fuel, ended⟩ visited chain loop
    exact ended (walkOptions_eq_timeout_of_chain chain loop reduceSize fuel)
  · intro moves
    exact
      ⟨_, walkOptions_ne_timeout behind (Nat.lt_succ_self _) moves⟩

/-! ## The whole function -/

/-- The walk comes to a position in the packet. -/
def SynPacket.Visits (packet : SynPacket) (position : Nat) : Prop :=
  ReflTransGen (Advances packet.skb packet.tcph packet.tcphLen)
    (packet.tcph + sizeofTcphdr) position

theorem SynPacket.Visits.behind
    {packet : SynPacket} {position : Nat} (visited : packet.Visits position) :
    packet.tcph + sizeofTcphdr ≤ position := by
  induction visited with
  | refl => exact Nat.le_refl _
  | tail _ step ih =>
      rcases step with ⟨_, offset, _, _, _, _, rfl⟩
      omega

theorem reduceTcpMss_eq (packet : SynPacket) (fuel : Nat)
    (reduceSize : BitVec 16) :
    reduceTcpMss true fuel packet.skb reduceSize =
      (walkOptions reduceSize packet.tcph packet.tcphLen fuel packet.skb
          (packet.tcph + sizeofTcphdr) >>= fun walked =>
        storeChecksum walked packet.skb.networkHeader packet.tcph) := by
  rw [reduceTcpMss, packet.syn, value_bind, if_neg (by simp),
    if_neg (by simp), packet.offset, value_bind]

theorem exists_loadByte
    (skb : SkBuff) (position : Nat) (inside : position < skb.memory.length) :
    ∃ byte, skb.loadByte position = .value byte := by
  rw [SkBuff.loadByte, List.getElem?_eq_getElem inside]
  exact ⟨_, rfl⟩

theorem exists_loadBytes
    (skb : SkBuff) (position count : Nat)
    (inside : position + count ≤ skb.memory.length) :
    ∃ bytes, skb.loadBytes position count = .value bytes := by
  rw [SkBuff.loadBytes, Memory.read_eq inside]
  exact ⟨_, rfl⟩

theorem exists_storeShort
    (skb : SkBuff) (position : Nat) (value : BitVec 16)
    (inside : position + 2 ≤ skb.memory.length) :
    ∃ stored, skb.storeShort position value = .value stored := by
  have fits :
      position + (ByteOrder.big.encode 2 value.toNat).length ≤
        skb.memory.length := by
    rwa [ByteOrder.length_encode]
  have write := Memory.write_eq_some_iff.mpr ⟨fits, rfl⟩
  exact ⟨_, SkBuff.storeBytes_eq_value_iff.mpr ⟨_, write, rfl⟩⟩

/-- What a store of two bytes leaves behind. -/
structure ShortStored (skb : SkBuff) (position : Nat) (value : BitVec 16)
    (stored : SkBuff) : Prop where
  same : SameUpTo position skb stored
  outside :
    ∀ index, index ≠ position → index ≠ position + 1 →
      stored.memory[index]? = skb.memory[index]?
  inside :
    ∀ index < 2,
      stored.memory[position + index]? =
        (ByteOrder.big.encode 2 value.toNat)[index]?

theorem shortStored_of_storeShort
    {skb stored : SkBuff} {position : Nat} {value : BitVec 16}
    (store : skb.storeShort position value = .value stored) :
    ShortStored skb position value stored := by
  have same := SkBuff.sameUpTo_of_storeBytes store (Nat.le_refl position)
  rcases SkBuff.storeBytes_eq_value_iff.mp store with ⟨memory, write, rfl⟩
  have length : (ByteOrder.big.encode 2 value.toNat).length = 2 :=
    ByteOrder.length_encode _ _ _
  refine ⟨same, ?_, ?_⟩
  · intro index notFirst notSecond
    exact Memory.getElem?_of_write_outside write (by omega)
  · intro index below
    exact Memory.getElem?_of_write_inside write (by omega)

theorem ihl_lt (packet : TcpPacket) : packet.ihl < 16 := by
  have read := packet.header
  rw [SkBuff.loadIhl, bind_eq_value_iff] at read
  rcases read with ⟨byte, _, number⟩
  rw [pure_eq_value, value.injEq] at number
  rw [← number]
  exact Nat.mod_lt _ (by decide)

/-- The length of the segment that is summed is at most its real length. -/
theorem tcpLen_le {len headerLen : Nat} (fits : headerLen ≤ len)
    (small : headerLen ≤ 2 ^ 32) :
    (len + (2 ^ 32 - headerLen)) % 2 ^ 32 ≤ len - headerLen := by
  have regrouped :
      len + (2 ^ 32 - headerLen) = len - headerLen + 2 ^ 32 := by
    omega
  rw [regrouped, Nat.add_mod_right]
  exact Nat.mod_le _ _

/-- The checksum step of a packet stores the checksum, and nothing else. -/
theorem exists_storeChecksum
    (packet : SynPacket) {walked : SkBuff}
    (same : SameUpTo packet.tcph packet.skb walked) :
    ∃ stored,
      storeChecksum walked packet.skb.networkHeader packet.tcph =
          .value stored ∧
        ∀ index,
          index ≠ packet.tcph + 16 → index ≠ packet.tcph + 17 →
            stored.memory[index]? = walked.memory[index]? := by
  have inside := packet.inside
  have start := packet.atNetworkHeader
  have legal := packet.legal
  have transport : packet.tcph = _ := packet.transport
  have whole := packet.whole
  have small := ihl_lt packet.toTcpPacket
  have length := same.length
  have len := same.len
  rw [sizeofTcphdr] at whole
  have ihl :
      walked.loadIhl packet.skb.networkHeader = .value packet.ihl := by
    rw [← packet.header, SkBuff.loadIhl, SkBuff.loadIhl,
      same.loadByte_eq (by omega)]
  rcases exists_storeShort walked (packet.tcph + 16) 0 (by omega) with
    ⟨zeroed, zero⟩
  have zeroStored := shortStored_of_storeShort zero
  have zeroLength := zeroStored.same.length
  rcases exists_loadBytes zeroed (packet.skb.networkHeader + 12) 4
      (by omega) with
    ⟨saddr, saddrRead⟩
  rcases exists_loadBytes zeroed (packet.skb.networkHeader + 16) 4
      (by omega) with
    ⟨daddr, daddrRead⟩
  rcases exists_loadByte zeroed (packet.skb.networkHeader + 9)
      (by omega) with
    ⟨protocol, protocolRead⟩
  have segmentLength :
      (walked.len + (2 ^ 32 - packet.ihl * 4)) % 2 ^ 32 ≤
        walked.len - packet.ihl * 4 :=
    tcpLen_le (by omega) (by omega)
  rcases exists_loadBytes zeroed packet.tcph
      ((walked.len + (2 ^ 32 - packet.ihl * 4)) % 2 ^ 32) (by omega) with
    ⟨segment, segmentRead⟩
  rcases exists_storeShort zeroed (packet.tcph + 16)
      (csumTcpudpMagic saddr daddr
        ((walked.len + (2 ^ 32 - packet.ihl * 4)) % 2 ^ 32) protocol.toNat
        (csumPartial segment))
      (by omega) with
    ⟨stored, store⟩
  refine ⟨stored, ?_, ?_⟩
  · rw [storeChecksum, ihl, value_bind, zero, value_bind, saddrRead,
      value_bind, daddrRead, value_bind, SkBuff.loadProtocol, protocolRead,
      value_bind, segmentRead, value_bind, store]
  · intro index notFirst notSecond
    rw [(shortStored_of_storeShort store).outside index notFirst notSecond,
      zeroStored.outside index notFirst notSecond]

/-- The function needs as much fuel as its walk. -/
theorem reduceTcpMss_eq_timeout_iff
    (packet : SynPacket) (fuel : Nat) (reduceSize : BitVec 16) :
    reduceTcpMss true fuel packet.skb reduceSize = .timeout ↔
      walkOptions reduceSize packet.tcph packet.tcphLen fuel packet.skb
        (packet.tcph + sizeofTcphdr) = .timeout := by
  rw [reduceTcpMss_eq]
  cases walk :
    walkOptions reduceSize packet.tcph packet.tcphLen fuel packet.skb
      (packet.tcph + sizeofTcphdr) with
  | timeout => exact ⟨fun _ => rfl, fun _ => rfl⟩
  | fault reason => rw [fault_bind]
  | value walked =>
      have same := sameUpTo_of_walkOptions (Nat.le_add_right _ _) walk
      rcases exists_storeChecksum packet same with ⟨stored, checksum, _⟩
      rw [value_bind, checksum]
      simp

/--
The loop over the options of a SYN segment ends exactly if the walk comes to
no option inside of the header whose length byte is zero.
-/
theorem terminates_iff (packet : SynPacket) (reduceSize : BitVec 16) :
    (∃ fuel, reduceTcpMss true fuel packet.skb reduceSize ≠ .timeout) ↔
      ∀ position, packet.Visits position →
        position < packet.tcph + packet.tcphLen →
          ¬ ZeroLength packet.skb position := by
  have walk :
      (∃ fuel,
          walkOptions reduceSize packet.tcph packet.tcphLen fuel packet.skb
            (packet.tcph + sizeofTcphdr) ≠ .timeout) ↔
        ∀ position, packet.Visits position →
          ¬ Advances packet.skb packet.tcph packet.tcphLen position position :=
    exists_walkOptions_ne_timeout_iff (Nat.le_add_right _ _)
  simp only [ne_eq, reduceTcpMss_eq_timeout_iff]
  rw [show (∃ fuel, ¬ _ = _) ↔ _ from walk]
  constructor
  · intro moves position visited inside zero
    have behind : packet.tcph ≤ position :=
      Nat.le_of_add_right_le visited.behind
    apply moves position visited
    exact (advances_self_iff behind).mpr ⟨inside, zero⟩
  · intro nonzero position visited loop
    have behind : packet.tcph ≤ position :=
      Nat.le_of_add_right_le visited.behind
    rcases (advances_self_iff behind).mp loop with ⟨inside, zero⟩
    exact nonzero position visited inside zero

/-! ## A segment whose options end early -/

/-- A buffer that holds an IP header of five words and what follows it. -/
def bufferOf (memory : List (BitVec 8)) : SkBuff where
  memory
  data := 0
  len := memory.length
  networkHeader := 0
  transportHeader := 20

/-- The segment in such a buffer. -/
def SynPacket.ofMemory (memory : List (BitVec 8)) (doff : Nat)
    (header : (bufferOf memory).loadIhl 0 = .value 5)
    (tcp :
      (bufferOf memory).loadProtocol 0 =
        .value FlowTracker.Hook.ipprotoTcp)
    (whole : 40 ≤ memory.length)
    (syn : loadSyn (bufferOf memory) 20 = .value true)
    (offset : loadDoff (bufferOf memory) 20 = .value doff) :
    SynPacket where
  skb := bufferOf memory
  ihl := 5
  inside := Nat.le_of_eq (Nat.zero_add _)
  atNetworkHeader := rfl
  header
  legal := by decide
  tcp
  transport := rfl
  whole
  doff
  syn
  offset

/-- A SYN to port 5001 with four bytes of options, all of them zero. -/
def endOfList : SynPacket :=
  SynPacket.ofMemory
    [0x45, 0, 0, 44, 0, 1, 0x40, 0, 64, 6, 0, 0, 10, 0, 0, 1, 10, 0, 0, 2,
      0, 80, 0x13, 0x89, 0, 0, 0, 1, 0, 0, 0, 0, 0x60, 2, 1, 0, 0, 0, 0, 0,
      0, 0, 0, 0]
    6 (by decide) (by decide) (by decide) (by decide) (by decide)

/-- The loop does not end at the end of the list. -/
theorem exists_syn_not_terminating :
    ¬ ∀ (packet : SynPacket) (reduceSize : BitVec 16),
        ∃ fuel,
          reduceTcpMss true fuel packet.skb reduceSize ≠ .timeout := by
  intro always
  rcases always endOfList 20 with ⟨fuel, ended⟩
  apply ended
  rw [reduceTcpMss_eq_timeout_iff]
  apply walkOptions_eq_timeout
  exact ⟨0, 0, by decide, by decide, by decide, by decide, rfl⟩

end CodingExamples.Ipip.OptionWalk
