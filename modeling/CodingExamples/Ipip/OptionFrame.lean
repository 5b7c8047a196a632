import CodingExamples.Ipip.OptionWalk
import CodingExamples.Library.OptionList

/-!
# The bytes that the rewrite changes

An MSS option is what the format of option lists says it is: it stands behind
options that have a legal length, its kind is 2, its length is 4, and it ends
inside of the TCP header.  The walk of `reduce_tcp_mss` checks only the kind,
and checks for the end of the header only behind an option that it has not
rewritten.

Besides the checksum, the function therefore changes nothing but the value of
an MSS option exactly if the byte of kind 2 at which its walk ends begins one,
or if the two bytes that it takes for the value keep what they hold.
-/

namespace CodingExamples.Ipip.OptionFrame

open CodingExamples.Library
open CodingExamples.Library.OptionList
open CodingExamples.Library.Outcome
open CodingExamples.Ipip.Buffer
open CodingExamples.Ipip.ReduceTcpMss
open CodingExamples.Ipip.OptionWalk
open Relation (ReflTransGen)

/-- Where the data of the packet ends. -/
def SegmentEnd (packet : SynPacket) : Nat :=
  packet.skb.data + packet.skb.len

/-- An MSS option that lies wholly inside of the TCP header. -/
def MssAt (packet : SynPacket) (start : Nat) : Prop :=
  ∃ before,
    start = packet.tcph + sizeofTcphdr + (bytes before).length ∧
      bytes before ++ [2, 4] <+:
        packet.skb.memory.drop (packet.tcph + sizeofTcphdr) ∧
      start + 4 ≤ packet.tcph + packet.tcphLen

/-- The bytes of the segment that change are the checksum and MSS values. -/
def OnlyMssChanged (packet : SynPacket) (reduced : SkBuff) : Prop :=
  ∀ index, packet.tcph ≤ index → index < SegmentEnd packet →
    reduced.memory[index]? ≠ packet.skb.memory[index]? →
      index = packet.tcph + 16 ∨ index = packet.tcph + 17 ∨
        ∃ start, MssAt packet start ∧
          (index = start + 2 ∨ index = start + 3)

/--
Rewriting the value at `stop` changes no byte of the segment: nothing is
subtracted, or the value lies behind the end of the segment, or its first byte
alone lies inside and stays as it is.
-/
def Harmless (packet : SynPacket) (reduceSize : BitVec 16) (stop : Nat) :
    Prop :=
  reduceSize = 0 ∨ SegmentEnd packet ≤ stop + 2 ∨
    SegmentEnd packet = stop + 3 ∧
      ∃ mss, packet.skb.loadShort (stop + 2) = .value mss ∧
        (mss - reduceSize) >>> 8 = mss >>> 8

/-! ## The walk follows the options -/

variable {skb : SkBuff} {tcph tcphLen : Nat}

/-- The bytes of memory at a position that begins with known bytes. -/
theorem loadByte_of_prefix
    {ptr : Nat} {cells : List (BitVec 8)}
    (found : cells <+: skb.memory.drop ptr) {index : Nat} {byte : BitVec 8}
    (read : cells[index]? = some byte) :
    skb.loadByte (ptr + index) = .value byte := by
  rcases found with ⟨rest, split⟩
  rw [SkBuff.loadByte, ← List.getElem?_drop, ← split,
    List.getElem?_append_left, read]
  · rfl
  · exact (List.getElem?_eq_some_iff.mp read).1

/-- An option in memory starts with its kind. -/
theorem loadByte_of_item
    {ptr : Nat} {item : Item} (found : item.bytes <+: skb.memory.drop ptr) :
    skb.loadByte ptr = .value item.kind :=
  loadByte_of_prefix found item.head_bytes

theorem prefix_drop
    {ptr : Nat} {first second : List (BitVec 8)}
    (found : first ++ second <+: skb.memory.drop ptr) :
    first <+: skb.memory.drop ptr ∧
      second <+: skb.memory.drop (ptr + first.length) := by
  rcases found with ⟨rest, split⟩
  constructor
  · exact ⟨second ++ rest, by rw [← split, List.append_assoc]⟩
  · refine ⟨rest, ?_⟩
    rw [← List.drop_drop, ← split, List.append_assoc,
      List.drop_left' rfl]

/-- The walk reads the size of an option. -/
theorem optionOffset_of_item
    {ptr : Nat} {item : Item}
    (found : item.bytes <+: skb.memory.drop ptr) :
    optionOffset skb ptr item.kind = .value item.bytes.length := by
  cases item with
  | noOperation => rfl
  | sized kind value hasLength short =>
      have length :
          skb.loadByte (ptr + 1) =
            .value (BitVec.ofNat 8 (value.length + 2)) :=
        loadByte_of_prefix found rfl
      have hasOwn : (Item.sized kind value hasLength short).kind ≠ 1 :=
        hasLength.2
      rw [optionOffset, if_neg hasOwn, length, value_bind,
        Item.length_byte short]
      rfl

/-- A pass over an option that is not of kind 2. -/
theorem advances_of_item
    {ptr : Nat} {item : Item} (behind : tcph ≤ ptr)
    (found : item.bytes <+: skb.memory.drop ptr) (other : item.kind ≠ 2)
    (inside : ptr + item.bytes.length < tcph + tcphLen) :
    Advances skb tcph tcphLen ptr (ptr + item.bytes.length) :=
  ⟨item.kind, item.bytes.length,
    loadByte_of_item found, other,
    optionOffset_of_item found, by omega, rfl⟩

/-- The walk passes a list of options without one of kind 2. -/
theorem reflTransGen_of_items
    {ptr : Nat} {items : List Item} (behind : tcph ≤ ptr)
    (found : bytes items <+: skb.memory.drop ptr)
    (others : ∀ item ∈ items, item.kind ≠ 2)
    (inside : ptr + (bytes items).length < tcph + tcphLen) :
    ReflTransGen (Advances skb tcph tcphLen) ptr
      (ptr + (bytes items).length) := by
  induction items generalizing ptr with
  | nil => exact ReflTransGen.refl
  | cons item items ih =>
      rw [bytes_cons] at found inside ⊢
      rw [List.length_append] at inside ⊢
      rcases prefix_drop found with ⟨first, rest⟩
      have step : Advances skb tcph tcphLen ptr (ptr + item.bytes.length) :=
        advances_of_item behind first (others item List.mem_cons_self)
          (by omega)
      have onward :=
        ih (by omega) rest
          (fun later member => others later (List.mem_cons_of_mem item member))
          (by omega)
      rw [← Nat.add_assoc]
      exact onward.head step

/-! ## Where the rewrite takes place -/

/-- The rewrite stores the reduced value over the one that it reads. -/
theorem exists_shortStored_of_rewriteValue
    {reduceSize : BitVec 16} {stop : Nat} {walked : SkBuff}
    (rewrite : rewriteValue reduceSize skb stop = .value walked) :
    ∃ mss, skb.loadShort (stop + 2) = .value mss ∧
      ShortStored skb (stop + 2) (mss - reduceSize) walked := by
  rw [rewriteValue, bind_eq_value_iff] at rewrite
  rcases rewrite with ⟨mss, read, store⟩
  exact ⟨mss, read, shortStored_of_storeShort store⟩

/-- The two bytes that a number was read from. -/
theorem getElem?_of_loadShort
    {ptr : Nat} {short : BitVec 16}
    (read : skb.loadShort ptr = .value short) {index : Nat}
    (below : index < 2) :
    skb.memory[ptr + index]? =
      (ByteOrder.big.encode 2 short.toNat)[index]? := by
  rw [SkBuff.loadShort, bind_eq_value_iff] at read
  rcases read with ⟨cells, readCells, decoded⟩
  rw [pure_eq_value, value.injEq] at decoded
  rw [SkBuff.loadBytes, Memory.read] at readCells
  split at readCells
  · case isTrue inside =>
      rw [Outcome.ofOption_some, value.injEq] at readCells
      have length : cells.length = 2 := by
        rw [← readCells, List.length_take, List.length_drop]
        omega
      rw [← decoded, ByteOrder.encode_toNat_ofNat_decode .big length rfl,
        ← readCells, List.getElem?_take_of_lt below, List.getElem?_drop]
  · cases readCells

/-- Two numbers of two bytes agree if both of their bytes do. -/
theorem eq_of_encode_eq
    {left right : BitVec 16}
    (same :
      ByteOrder.big.encode 2 left.toNat = ByteOrder.big.encode 2 right.toNat) :
    left = right := by
  have decoded := congrArg ByteOrder.big.decode same
  rw [ByteOrder.decode_encode, ByteOrder.decode_encode] at decoded
  apply BitVec.eq_of_toNat_eq
  have leftBound : left.toNat < 256 ^ 2 := left.isLt
  have rightBound : right.toNat < 256 ^ 2 := right.isLt
  rwa [Nat.mod_eq_of_lt leftBound, Nat.mod_eq_of_lt rightBound] at decoded

/-- The first byte of a number of two bytes is its upper half. -/
theorem encode_first_eq_iff (left right : BitVec 16) :
    (ByteOrder.big.encode 2 left.toNat)[0]? =
        (ByteOrder.big.encode 2 right.toNat)[0]? ↔
      left >>> 8 = right >>> 8 := by
  have leftBound := left.isLt
  have rightBound := right.isLt
  rw [ByteOrder.big_encode_two, ByteOrder.big_encode_two]
  simp only [List.getElem?_cons_zero, Option.some_inj]
  constructor
  · intro same
    have numbers := congrArg BitVec.toNat same
    apply BitVec.eq_of_toNat_eq
    simp only [BitVec.toNat_ofNat] at numbers
    simp only [BitVec.toNat_ushiftRight, Nat.shiftRight_eq_div_pow]
    omega
  · intro same
    have numbers := congrArg BitVec.toNat same
    apply BitVec.eq_of_toNat_eq
    simp only [BitVec.toNat_ushiftRight, Nat.shiftRight_eq_div_pow] at numbers
    simp only [BitVec.toNat_ofNat]
    omega

/-- A rewrite is harmless exactly if it keeps its bytes of the segment. -/
theorem harmless_iff
    (packet : SynPacket) {reduceSize mss : BitVec 16} {stop : Nat}
    {walked : SkBuff}
    (read : packet.skb.loadShort (stop + 2) = .value mss)
    (stored :
      ShortStored packet.skb (stop + 2) (mss - reduceSize) walked) :
    Harmless packet reduceSize stop ↔
      ∀ index < 2, stop + 2 + index < SegmentEnd packet →
        walked.memory[stop + 2 + index]? =
          packet.skb.memory[stop + 2 + index]? := by
  have bytes (index : Nat) (below : index < 2) :
      walked.memory[stop + 2 + index]? =
          packet.skb.memory[stop + 2 + index]? ↔
        (ByteOrder.big.encode 2 (mss - reduceSize).toNat)[index]? =
          (ByteOrder.big.encode 2 mss.toNat)[index]? := by
    rw [stored.inside index below, getElem?_of_loadShort read below]
  constructor
  · rintro (zero | behind | ⟨cut, other, otherRead, upper⟩) index below inside
    · have kept : mss - reduceSize = mss := by
        rw [zero]
        exact BitVec.sub_zero mss
      rw [bytes index below, kept]
    · omega
    · rw [read, value.injEq] at otherRead
      have first : index = 0 := by
        omega
      rw [bytes index below, first, encode_first_eq_iff, otherRead]
      exact upper
  · intro keeps
    by_cases behind : SegmentEnd packet ≤ stop + 2
    · exact Or.inr (Or.inl behind)
    have upper := (bytes 0 (by decide)).mp (keeps 0 (by decide) (by omega))
    by_cases cut : SegmentEnd packet = stop + 3
    · exact
        Or.inr (Or.inr
          ⟨cut, mss, read, (encode_first_eq_iff _ _).mp upper⟩)
    · have lower := (bytes 1 (by decide)).mp (keeps 1 (by decide) (by omega))
      have whole :
          ByteOrder.big.encode 2 (mss - reduceSize).toNat =
            ByteOrder.big.encode 2 mss.toNat := by
        rw [ByteOrder.big_encode_two, ByteOrder.big_encode_two]
          at upper lower ⊢
        simp only [List.getElem?_cons_zero, List.getElem?_cons_succ,
          Option.some_inj] at upper lower
        rw [upper, lower]
      have same := eq_of_encode_eq whole
      left
      bv_omega

/-! ## The frame -/

/-- A list of options is passed, or the walk ends in it. -/
theorem visits_of_bytes
    (packet : SynPacket) (before : List Item)
    (found :
      bytes before <+: packet.skb.memory.drop (packet.tcph + sizeofTcphdr))
    (inside :
      packet.tcph + sizeofTcphdr + (bytes before).length <
        packet.tcph + packet.tcphLen) :
    packet.Visits (packet.tcph + sizeofTcphdr + (bytes before).length) ∨
      ∃ stop, packet.Visits stop ∧
        packet.skb.loadByte stop = .value 2 ∧
        stop + 2 ≤
          packet.tcph + sizeofTcphdr + (bytes before).length := by
  by_cases others : ∀ item ∈ before, item.kind ≠ 2
  · exact Or.inl (reflTransGen_of_items (by omega) found others inside)
  · rcases exists_first_of_kind others with
      ⟨passed, item, after, rfl, kind, noneEarlier⟩
    rw [bytes_append, bytes_cons] at found inside ⊢
    rcases prefix_drop found with ⟨first, rest⟩
    have notNop : item.kind ≠ 1 := by
      rw [kind]
      decide
    have size := Item.two_le_length_bytes notNop
    simp only [List.length_append] at inside ⊢
    right
    refine
      ⟨_, reflTransGen_of_items (by omega) first noneEarlier (by omega), ?_,
        by omega⟩
    have here := loadByte_of_item (prefix_drop rest).1
    rw [kind] at here
    exact here

/-- An MSS option near a byte of kind 2 at which the walk ends is that byte. -/
theorem MssAt.eq_of_near
    {packet : SynPacket} {start stop : Nat} (option : MssAt packet start)
    (visited : packet.Visits stop)
    (kind : packet.skb.loadByte stop = .value 2) (near : start < stop + 2) :
    start = stop := by
  rcases option with ⟨before, rfl, found, inside⟩
  rcases prefix_drop found with ⟨first, rest⟩
  rcases visits_of_bytes packet before first (by omega) with
    reaches | ⟨earlier, visitedEarlier, kindEarlier, ahead⟩
  · have first : ([2, 4] : List (BitVec 8))[0]? = some 2 := rfl
    have kindStart := loadByte_of_prefix rest first
    exact eq_of_visited_of_kind reaches visited kindStart kind
  · have equal :=
      eq_of_visited_of_kind visitedEarlier visited kindEarlier kind
    omega

/-- Outside of the value at a visited option of kind 2 nothing is changed. -/
theorem getElem?_of_walkOptions
    (packet : SynPacket) {fuel : Nat} {reduceSize : BitVec 16}
    {walked : SkBuff}
    (walk :
      walkOptions reduceSize packet.tcph packet.tcphLen fuel packet.skb
        (packet.tcph + sizeofTcphdr) = .value walked) {index : Nat}
    (changed : walked.memory[index]? ≠ packet.skb.memory[index]?) :
    ∃ stop mss,
      packet.Visits stop ∧
        packet.skb.loadByte stop = .value 2 ∧
        packet.skb.loadShort (stop + 2) = .value mss ∧
        ShortStored packet.skb (stop + 2) (mss - reduceSize) walked ∧
        (index = stop + 2 ∨ index = stop + 3) := by
  rcases walkOptions_eq_value walk with
    same | ⟨stop, visited, kind, rewrite⟩
  · exact absurd (by rw [same]) changed
  · rcases exists_shortStored_of_rewriteValue rewrite with
      ⟨mss, read, stored⟩
    refine ⟨stop, mss, visited, kind, read, stored, ?_⟩
    by_contra outside
    rw [not_or] at outside
    exact changed (stored.outside index outside.1 outside.2)

/--
For a SYN segment on which the function returns, the bytes that change are the
checksum and the value of an MSS option inside of the header, exactly if every
byte of kind 2 that the walk comes to begins an MSS option or is harmless.
-/
theorem onlyMssChanged_iff
    (packet : SynPacket) (fuel : Nat) (reduceSize : BitVec 16)
    (reduced : SkBuff)
    (run : reduceTcpMss true fuel packet.skb reduceSize = .value reduced) :
    OnlyMssChanged packet reduced ↔
      ∀ stop, packet.Visits stop → packet.skb.loadByte stop = .value 2 →
        MssAt packet stop ∨ Harmless packet reduceSize stop := by
  rw [reduceTcpMss_eq, bind_eq_value_iff] at run
  rcases run with ⟨walked, walk, checksum⟩
  have same := sameUpTo_of_walkOptions (Nat.le_add_right _ _) walk
  rcases exists_storeChecksum packet same with ⟨stored, store, kept⟩
  rw [checksum, value.injEq] at store
  subst store
  constructor
  · intro only stop visited kind
    have behind := visited.behind
    rcases exists_shortStored_of_rewriteValue
        (rewriteValue_of_walkOptions walk visited kind) with
      ⟨mss, read, rewritten⟩
    have behindChecksum : packet.tcph + 20 ≤ stop := behind
    by_contra neither
    rw [not_or, harmless_iff packet read rewritten] at neither
    apply neither.2
    intro index below inside
    by_contra changed
    rw [← kept _ (by omega) (by omega)] at changed
    rcases only _ (by omega) inside changed with
      first | second | ⟨start, option, place⟩
    · omega
    · omega
    · have equal := option.eq_of_near visited kind (by omega)
      exact neither.1 (equal ▸ option)
  · intro legal index _ inside changed
    by_cases first : index = packet.tcph + 16
    · exact Or.inl first
    by_cases second : index = packet.tcph + 17
    · exact Or.inr (Or.inl second)
    right
    right
    rw [kept index first second] at changed
    rcases getElem?_of_walkOptions packet walk changed with
      ⟨stop, mss, visited, kind, read, rewritten, place⟩
    rcases legal stop visited kind with option | harmless
    · exact ⟨stop, option, place⟩
    · exfalso
      rw [harmless_iff packet read rewritten] at harmless
      apply changed
      rcases place with rfl | rfl
      · exact harmless 0 (by decide) inside
      · exact harmless 1 (by decide) inside

/-! ## A segment without options -/

/-- A SYN to port 5001 with four bytes of payload, which look like an option. -/
def payload : SynPacket :=
  SynPacket.ofMemory
    [0x45, 0, 0, 44, 0, 1, 0x40, 0, 64, 6, 0, 0, 10, 0, 0, 1, 10, 0, 0, 2,
      0, 80, 0x13, 0x89, 0, 0, 0, 1, 0, 0, 0, 0, 0x50, 2, 1, 0, 0, 0, 0, 0,
      2, 4, 5, 0xb4]
    5 (by decide) (by decide) (by decide) (by decide) (by decide)

/-- The buffer after the function has returned. -/
def payloadReduced : SkBuff :=
  { payload.skb with
    memory :=
      payload.skb.memory.take 36 ++ [0x7f, 0x5e, 0, 0, 2, 4, 5, 0xa0] }

theorem reduceTcpMss_payload :
    reduceTcpMss true 1 payload.skb 20 = .value payloadReduced := by
  decide +kernel

theorem onlyMssChanged_iff_payload :
    OnlyMssChanged payload payloadReduced ↔
      ∀ stop, payload.Visits stop → payload.skb.loadByte stop = .value 2 →
        MssAt payload stop ∨ Harmless payload 20 stop :=
  onlyMssChanged_iff payload 1 20 payloadReduced reduceTcpMss_payload

/-- The last byte of the payload is changed. -/
theorem exists_payload_changed :
    ¬ ∀ (packet : SynPacket) (fuel : Nat) (reduceSize : BitVec 16)
        (reduced : SkBuff),
        5 ≤ packet.doff →
          reduceTcpMss true fuel packet.skb reduceSize = .value reduced →
            OnlyMssChanged packet reduced := by
  intro always
  have only :=
    always payload 1 20 payloadReduced (by decide) reduceTcpMss_payload
  rcases only 43 (by decide) (by decide) (by decide) with
    first | second | ⟨start, ⟨before, place, _, inside⟩, _⟩
  · revert first
    decide
  · revert second
    decide
  · change start + 4 ≤ 20 + 5 * 4 at inside
    change start = 20 + 20 + _ at place
    omega

end CodingExamples.Ipip.OptionFrame
