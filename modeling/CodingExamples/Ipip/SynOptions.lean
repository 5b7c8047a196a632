import CodingExamples.Ipip.OptionFrame

/-!
# Well-formed options of a SYN segment

When the options of a SYN segment fill its header exactly, the walk stays
aligned with them.  It rewrites the first option of kind 2 and leaves every
other byte of the options as it is, wherever that option stands.
-/

namespace CodingExamples.Ipip.SynOptions

open CodingExamples.Library
open CodingExamples.Library.OptionList
open CodingExamples.Library.Outcome
open CodingExamples.Ipip.Buffer
open CodingExamples.Ipip.ReduceTcpMss
open CodingExamples.Ipip.OptionWalk
open CodingExamples.Ipip.OptionFrame

/-- The MSS option with a value. -/
def mss (value : BitVec 16) : Item :=
  .sized 2 (ByteOrder.big.encode 2 value.toNat) (by decide) (by simp)

/-- A SYN segment with options that fill its header. -/
structure OptionedSyn extends SynPacket where
  options : List Item
  nonempty : options ≠ []
  found :
    bytes options <+: skb.memory.drop (skb.transportHeader + sizeofTcphdr)
  fills : sizeofTcphdr + (bytes options).length = doff * 4
  /-- An option of kind 2 has the length 4. -/
  mssLength : ∀ item ∈ options, item.kind = 2 → item.bytes.length = 4

/-- The option area of the TCP header in a buffer. -/
def OptionedSyn.area (packet : OptionedSyn) (skb : SkBuff) :
    List (BitVec 8) :=
  (skb.memory.drop (packet.tcph + sizeofTcphdr)).take
    (packet.tcphLen - sizeofTcphdr)

/-- The options that the function leaves behind. -/
inductive Rewritten (packet : OptionedSyn) (reduceSize : BitVec 16)
    (area : List (BitVec 8)) : Prop where
  /-- There is no MSS option, and nothing has changed. -/
  | untouched
      (others : ∀ item ∈ packet.options, item.kind ≠ 2)
      (same : area = bytes packet.options)
  /-- The value of the first MSS option is reduced, and all else has stayed. -/
  | lowered (before after : List Item) (value : BitVec 16)
      (split : packet.options = before ++ mss value :: after)
      (noneEarlier : ∀ item ∈ before, item.kind ≠ 2)
      (rest : area = bytes (before ++ mss (value - reduceSize) :: after))
      (number :
        reduceSize ≤ value →
          (value - reduceSize).toNat = value.toNat - reduceSize.toNat)

/-! ## MSS options -/

/-- Every option of kind 2 and length 4 is an MSS option. -/
theorem exists_eq_mss
    {item : Item} (kind : item.kind = 2) (length : item.bytes.length = 4) :
    ∃ value, item = mss value := by
  cases item with
  | noOperation => cases kind
  | sized itemKind value hasLength short =>
      change itemKind = 2 at kind
      subst kind
      have two : value.length = 2 := by
        rw [Item.bytes, List.length_cons, List.length_cons] at length
        omega
      refine ⟨.ofNat 16 (ByteOrder.big.decode value), ?_⟩
      have restored :
          ByteOrder.big.encode 2
              (BitVec.ofNat 16 (ByteOrder.big.decode value)).toNat =
            value :=
        ByteOrder.encode_toNat_ofNat_decode .big two rfl
      simp only [mss, restored]

theorem bytes_mss (value : BitVec 16) :
    (mss value).bytes =
      [2, 4] ++ ByteOrder.big.encode 2 value.toNat := by
  simp [mss, Item.bytes]

/-- Where the bytes of a list with an MSS option come from. -/
theorem getElem?_bytes_mss
    (before : List Item) (value : BitVec 16) (after : List Item)
    (index : Nat) :
    (bytes (before ++ mss value :: after))[index]? =
      if index < (bytes before).length + 2 then
        (bytes before ++ [2, 4])[index]?
      else if index < (bytes before).length + 4 then
        (ByteOrder.big.encode 2 value.toNat)[
          index - ((bytes before).length + 2)]?
      else
        (bytes after)[index - ((bytes before).length + 4)]? := by
  have grouped :
      bytes (before ++ mss value :: after) =
        (bytes before ++ [2, 4]) ++
          (ByteOrder.big.encode 2 value.toNat ++ bytes after) := by
    simp [bytes_mss]
  have front : (bytes before ++ [2, 4]).length = (bytes before).length + 2 := by
    simp
  have number : (ByteOrder.big.encode 2 value.toNat).length = 2 :=
    ByteOrder.length_encode _ _ _
  rw [grouped]
  split
  · exact List.getElem?_append_left (by omega)
  · rw [List.getElem?_append_right (by omega), front]
    split
    · exact List.getElem?_append_left (by omega)
    · rw [List.getElem?_append_right (by omega), number]
      congr 1

/-! ## The two ways in which the walk ends -/

variable (packet : OptionedSyn)

/-- A byte of the option area of a buffer. -/
theorem OptionedSyn.getElem?_area (skb : SkBuff) (index : Nat) :
    (packet.area skb)[index]? =
      if index < (bytes packet.options).length then
        skb.memory[packet.tcph + sizeofTcphdr + index]?
      else
        none := by
  have fills := packet.fills
  have count :
      packet.tcphLen - sizeofTcphdr = (bytes packet.options).length := by
    show packet.doff * 4 - sizeofTcphdr = _
    omega
  rw [OptionedSyn.area, count, List.getElem?_take, List.getElem?_drop]

/-- The options as they are in the packet. -/
theorem OptionedSyn.getElem?_options {index : Nat}
    (inside : index < (bytes packet.options).length) :
    packet.skb.memory[packet.tcph + sizeofTcphdr + index]? =
      (bytes packet.options)[index]? := by
  rcases packet.found with ⟨rest, split⟩
  rw [← List.getElem?_drop, ← split, List.getElem?_append_left inside]

/-- A number that is found in memory is read back. -/
theorem loadShort_of_prefix
    {skb : SkBuff} {ptr : Nat} {value : BitVec 16}
    (found : ByteOrder.big.encode 2 value.toNat <+: skb.memory.drop ptr) :
    skb.loadShort ptr = .value value ∧ ptr + 2 ≤ skb.memory.length := by
  rcases found with ⟨rest, split⟩
  have lengths := congrArg List.length split
  rw [List.length_append, ByteOrder.length_encode, List.length_drop]
    at lengths
  have inside : ptr + 2 ≤ skb.memory.length := by
    omega
  refine ⟨?_, inside⟩
  have cells :
      (skb.memory.drop ptr).take 2 = ByteOrder.big.encode 2 value.toNat := by
    rw [← split, List.take_left' (ByteOrder.length_encode _ _ _)]
  have small : value.toNat < 256 ^ 2 := value.isLt
  rw [SkBuff.loadShort, SkBuff.loadBytes, Memory.read_eq inside, cells,
    Outcome.ofOption_some, value_bind, ByteOrder.decode_encode,
    Nat.mod_eq_of_lt small, BitVec.ofNat_toNat, BitVec.setWidth_eq]
  rfl

/-- Without an option of kind 2 the walk stops behind the last option. -/
theorem walkOptions_of_others
    (others : ∀ item ∈ packet.options, item.kind ≠ 2)
    (reduceSize : BitVec 16) :
    ∃ fuel,
      walkOptions reduceSize packet.tcph packet.tcphLen fuel packet.skb
        (packet.tcph + sizeofTcphdr) = .value packet.skb := by
  rcases List.eq_nil_or_concat packet.options with
    empty | ⟨front, last, split⟩
  · exact absurd empty packet.nonempty
  rw [List.concat_eq_append] at split
  have found :
      _ <+: packet.skb.memory.drop (packet.tcph + sizeofTcphdr) :=
    packet.found
  have fills : _ = packet.tcphLen := packet.fills
  have lastOther : last.kind ≠ 2 := others last (by simp [split])
  rw [split, bytes_append, bytes_cons, bytes_nil, List.append_nil]
    at found fills
  rw [List.length_append] at fills
  rcases prefix_drop found with ⟨frontFound, lastFound⟩
  have positive := last.length_bytes_pos
  have chain :=
    reflTransGen_of_items (Nat.le_add_right packet.tcph sizeofTcphdr)
      frontFound
      (fun item member => others item (by simp [split, member]))
      (show _ < packet.tcph + packet.tcphLen by omega)
  rcases walkOptions_of_reflTransGen chain reduceSize with ⟨passes, run⟩
  refine ⟨1 + passes, ?_⟩
  rw [run 1, walkOptions, loadByte_of_item lastFound, value_bind,
    if_neg lastOther, optionOffset_of_item lastFound, value_bind,
    if_pos (by omega)]
  rfl

/-- The walk ends at the first option of kind 2. -/
theorem walkOptions_of_mss
    {before after : List Item} {value : BitVec 16}
    (split : packet.options = before ++ mss value :: after)
    (noneEarlier : ∀ item ∈ before, item.kind ≠ 2)
    (reduceSize : BitVec 16) :
    ∃ fuel walked,
      walkOptions reduceSize packet.tcph packet.tcphLen fuel packet.skb
          (packet.tcph + sizeofTcphdr) = .value walked ∧
        ShortStored packet.skb
          (packet.tcph + sizeofTcphdr + (bytes before).length + 2)
          (value - reduceSize) walked := by
  have found :
      _ <+: packet.skb.memory.drop (packet.tcph + sizeofTcphdr) :=
    packet.found
  have fills : _ = packet.tcphLen := packet.fills
  rw [split, bytes_append, bytes_cons] at found fills
  rcases prefix_drop found with ⟨beforeFound, here⟩
  have mssFound := (prefix_drop here).1
  have size : (mss value).bytes.length = 4 := by
    simp [bytes_mss]
  simp only [List.length_append, size] at fills
  have chain :=
    reflTransGen_of_items (Nat.le_add_right packet.tcph sizeofTcphdr)
      beforeFound noneEarlier
      (show _ < packet.tcph + packet.tcphLen by omega)
  have kind : packet.skb.loadByte _ = .value 2 := loadByte_of_item mssFound
  rw [bytes_mss] at mssFound
  have valueFound :
      ByteOrder.big.encode 2 value.toNat <+:
        packet.skb.memory.drop
          (packet.tcph + sizeofTcphdr + (bytes before).length + 2) :=
    (prefix_drop mssFound).2
  rcases loadShort_of_prefix valueFound with ⟨read, inside⟩
  rcases exists_storeShort packet.skb _ (value - reduceSize) inside with
    ⟨walked, store⟩
  rcases walkOptions_of_reflTransGen chain reduceSize with ⟨passes, run⟩
  refine ⟨1 + passes, walked, ?_, shortStored_of_storeShort store⟩
  rw [run 1, walkOptions, kind, value_bind, if_pos rfl, read, value_bind,
    store]

/-! ## The rewritten options -/

/-- The first MSS option of the list has the reduced value. -/
theorem area_of_shortStored
    {before after : List Item} {value : BitVec 16}
    (split : packet.options = before ++ mss value :: after)
    {reduceSize : BitVec 16} {walked stored : SkBuff}
    (rewritten :
      ShortStored packet.skb
        (packet.tcph + sizeofTcphdr + (bytes before).length + 2)
        (value - reduceSize) walked)
    (kept :
      ∀ index, index ≠ packet.tcph + 16 → index ≠ packet.tcph + 17 →
        stored.memory[index]? = walked.memory[index]?) :
    packet.area stored =
      bytes (before ++ mss (value - reduceSize) :: after) := by
  apply List.ext_getElem?
  intro index
  have count :
      (bytes packet.options).length =
        (bytes before).length + 4 + (bytes after).length := by
    simp [split, bytes_mss]
    omega
  have behindChecksum :
      stored.memory[packet.tcph + sizeofTcphdr + index]? =
        walked.memory[packet.tcph + sizeofTcphdr + index]? :=
    kept _ (by rw [sizeofTcphdr]; omega) (by rw [sizeofTcphdr]; omega)
  have original (inside : index < (bytes packet.options).length) :=
    packet.getElem?_options inside
  rw [split, getElem?_bytes_mss] at original
  rw [packet.getElem?_area, getElem?_bytes_mss, behindChecksum]
  by_cases front : index < (bytes before).length + 2
  · have inside : index < (bytes packet.options).length := by
      omega
    have untouched := original (split ▸ inside)
    rw [if_pos front] at untouched ⊢
    rw [if_pos inside, rewritten.outside _ (by omega) (by omega), untouched]
  rw [if_neg front]
  by_cases number : index < (bytes before).length + 4
  · have inside : index < (bytes packet.options).length := by
      omega
    have offset : index - ((bytes before).length + 2) < 2 := by
      omega
    have place :
        packet.tcph + sizeofTcphdr + (bytes before).length + 2 +
            (index - ((bytes before).length + 2)) =
          packet.tcph + sizeofTcphdr + index := by
      omega
    rw [if_pos number, if_pos inside, ← place, rewritten.inside _ offset]
  rw [if_neg number]
  by_cases inside : index < (bytes packet.options).length
  · have untouched := original (split ▸ inside)
    rw [if_neg front, if_neg number] at untouched
    rw [if_pos inside, rewritten.outside _ (by omega) (by omega), untouched]
  · rw [if_neg inside, List.getElem?_eq_none (by omega)]

/--
On a SYN segment with well-formed options the function returns; the value of
the first MSS option is reduced, and all other bytes of the options stay.
-/
theorem reduceTcpMss_options (reduceSize : BitVec 16) :
    ∃ reduced,
      Yields
          (fun fuel => reduceTcpMss true fuel packet.skb reduceSize)
          reduced ∧
        Rewritten packet reduceSize (packet.area reduced) := by
  by_cases others : ∀ item ∈ packet.options, item.kind ≠ 2
  · rcases walkOptions_of_others packet others reduceSize with ⟨fuel, walk⟩
    rcases exists_storeChecksum packet.toSynPacket
        (SameUpTo.refl _ packet.skb) with
      ⟨stored, checksum, kept⟩
    refine ⟨stored, ⟨fuel, ?_⟩, Rewritten.untouched others ?_⟩
    · show reduceTcpMss true fuel packet.skb reduceSize = _
      rw [reduceTcpMss_eq, walk, value_bind, checksum]
    · apply List.ext_getElem?
      intro index
      rw [packet.getElem?_area]
      split
      · case isTrue inside =>
          rw [kept _ (by rw [sizeofTcphdr]; omega)
            (by rw [sizeofTcphdr]; omega), packet.getElem?_options inside]
      · case isFalse outside =>
          rw [List.getElem?_eq_none (not_lt.mp outside)]
  · rcases exists_first_of_kind others with
      ⟨before, item, after, split, kind, noneEarlier⟩
    rcases exists_eq_mss kind
        (packet.mssLength item (by simp [split]) kind) with
      ⟨value, rfl⟩
    rcases walkOptions_of_mss packet split noneEarlier reduceSize with
      ⟨fuel, walked, walk, rewritten⟩
    have same := sameUpTo_of_walkOptions (Nat.le_add_right _ _) walk
    rcases exists_storeChecksum packet.toSynPacket same with
      ⟨stored, checksum, kept⟩
    refine
      ⟨stored, ⟨fuel, ?_⟩,
        Rewritten.lowered before after value split noneEarlier
          (area_of_shortStored packet split rewritten kept) ?_⟩
    · show reduceTcpMss true fuel packet.skb reduceSize = _
      rw [reduceTcpMss_eq, walk, value_bind, checksum]
    · intro fits
      exact BitVec.toNat_sub_of_le fits

/-! ## A segment with three options -/

/-- A SYN to port 5001: window scale, a byte of padding, and an MSS of 1460. -/
def threeOptions : OptionedSyn where
  toSynPacket :=
    SynPacket.ofMemory
      [0x45, 0, 0, 48, 0, 1, 0x40, 0, 64, 6, 0, 0, 10, 0, 0, 1, 10, 0, 0, 2,
        0, 80, 0x13, 0x89, 0, 0, 0, 1, 0, 0, 0, 0, 0x70, 2, 1, 0, 0, 0, 0, 0,
        3, 3, 7, 1, 2, 4, 5, 0xb4]
      7 (by decide) (by decide) (by decide) (by decide) (by decide)
  options := [.sized 3 [7] (by decide) (by decide), .noOperation, mss 1460]
  nonempty := by simp
  found := by decide
  fills := by decide
  mssLength := by
    intro item member kind
    simp only [List.mem_cons, List.not_mem_nil, or_false] at member
    rcases member with rfl | rfl | rfl
    · cases kind
    · cases kind
    · rfl

theorem reduceTcpMss_options_threeOptions :
    ∃ reduced,
      Yields (fun fuel => reduceTcpMss true fuel threeOptions.skb 20)
          reduced ∧
        Rewritten threeOptions 20 (threeOptions.area reduced) :=
  reduceTcpMss_options threeOptions 20

end CodingExamples.Ipip.SynOptions
