import CodingExamples.Library.ErrorPositions

/-!
# The distance of a checksum

Different messages of one length with one checksum collide.  The distances of
the collisions are the numbers of errors in the patterns with empty syndrome
that fit in the length, so that they can be found on registers alone.  No
messages collide that are at most as long as the register is wide, and two
errors suffice just when the length exceeds the period.
-/

namespace CodingExamples.Library.CollisionDistance

open CodingExamples.Library.BurstError
open CodingExamples.Library.ShiftRegister
open CodingExamples.Library.RegisterPeriod
open CodingExamples.Library.ErrorPositions

variable {width : Nat}

/-- The distances between different messages of one length and one checksum. -/
def collisionDistances
    (crc : List (BitVec 8) → BitVec width) (length : Nat) : Set Nat :=
  {distance |
    ∃ left right : List (BitVec 8),
      left.length = length ∧ right.length = length ∧ left ≠ right ∧
        crc left = crc right ∧ Parity.distance left right = distance}

/-! ## Counting positions from the last one -/

theorem nodup_map_sub
    {last : Nat} {positions : List Nat} (nodup : positions.Nodup)
    (bound : ∀ position ∈ positions, position ≤ last) :
    (positions.map fun position => last - position).Nodup := by
  apply nodup.map_on
  intro position member other otherMember same
  have inside := bound position member
  have otherInside := bound other otherMember
  omega

theorem map_sub_map_sub
    {last : Nat} {positions : List Nat}
    (bound : ∀ position ∈ positions, position ≤ last) :
    (positions.map fun position => last - position).map
        (fun offset => last - offset) =
      positions := by
  rw [List.map_map]
  conv_rhs => rw [← List.map_id positions]
  apply List.map_congr_left
  intro position member
  exact Nat.sub_sub_self (bound position member)

/-- A set of positions as the offsets of the others before its last member. -/
theorem exists_offsets
    {positions : Finset Nat} (nonempty : positions.Nonempty) :
    ∃ (last : Nat) (offsets : List Nat),
      last ∈ positions ∧ (0 :: offsets).Nodup ∧
        (∀ offset ∈ 0 :: offsets, offset ≤ last) ∧
          offsets.length + 1 = positions.card ∧
            positions =
              ((0 :: offsets).map fun offset => last - offset).toFinset := by
  have toLast (position : Nat) (inside : position ∈ positions) :
      position ≤ positions.max' nonempty :=
    positions.le_max' position inside
  have member := positions.max'_mem nonempty
  generalize positions.max' nonempty = last at member toLast
  have erased :
      ∀ position ∈ (positions.erase last).toList,
        position ≤ last ∧ position ≠ last := by
    intro position listed
    have inside := Finset.mem_erase.mp (Finset.mem_toList.mp listed)
    exact ⟨toLast position inside.2, inside.1⟩
  refine
    ⟨last, (positions.erase last).toList.map fun position => last - position,
      member, ?_, ?_, ?_, ?_⟩
  · rw [List.nodup_cons]
    constructor
    · intro zero
      rcases List.mem_map.mp zero with ⟨position, listed, same⟩
      have inside := erased position listed
      omega
    · exact
        nodup_map_sub (Finset.nodup_toList _)
          (fun position listed => (erased position listed).1)
  · intro offset listed
    rcases List.mem_cons.mp listed with rfl | behind
    · exact Nat.zero_le last
    · rcases List.mem_map.mp behind with ⟨position, _, rfl⟩
      exact Nat.sub_le last position
  · rw [List.length_map, Finset.length_toList,
      Finset.card_erase_add_one member]
  · rw [List.map_cons,
      map_sub_map_sub (fun position listed => (erased position listed).1),
      List.toFinset_cons, Finset.toList_toFinset, Nat.sub_zero,
      Finset.insert_erase member]

/-! ## Patterns of errors -/

section Patterns

variable (generator : BitVec width)

/--
The collisions are the error patterns with empty syndrome, counted from their
last error.
-/
theorem mem_collisionDistances_iff
    (wide : 8 ≤ width) (constantTerm : generator.getLsbD 0 = true)
    (length distance : Nat) :
    distance ∈ collisionDistances (checksum generator) length ↔
      ∃ offsets : List Nat,
        offsets.length + 1 = distance ∧ (0 :: offsets).Nodup ∧
          (∀ offset ∈ 0 :: offsets, offset < 8 * length) ∧
            syndrome generator (0 :: offsets) = BitVec.ofNat width 0 := by
  constructor
  · rintro ⟨left, right, rfl, sameLength, different, same, rfl⟩
    have nonempty : (differences left right).Nonempty := by
      rw [Finset.nonempty_iff_ne_empty]
      intro nowhere
      exact different (eq_of_differences_eq_empty sameLength.symm nowhere)
    rcases exists_offsets nonempty with
      ⟨last, offsets, member, nodup, before, count, positions⟩
    have within := (mem_differences_iff.mp member).1
    refine ⟨offsets, ?_, nodup, ?_, ?_⟩
    · rw [count, distance_eq_card left right sameLength.symm]
    · intro offset listed
      exact lt_of_le_of_lt (before offset listed) within
    · exact
        (checksum_eq_iff_syndrome generator wide constantTerm sameLength.symm
          nodup before within positions).mp same
  · rintro ⟨offsets, rfl, nodup, bounds, empty⟩
    have within : 8 * length - 1 < 8 * length := by
      have first := bounds 0 List.mem_cons_self
      omega
    have before : ∀ offset ∈ 0 :: offsets, offset ≤ 8 * length - 1 := by
      intro offset listed
      have bound := bounds offset listed
      omega
    let positions :=
      ((0 :: offsets).map fun offset => 8 * length - 1 - offset)
    have distinct : positions.Nodup :=
      nodup_map_sub nodup before
    have inside : ∀ position ∈ positions.toFinset, position < 8 * length := by
      intro position listed
      rcases List.mem_map.mp (List.mem_toFinset.mp listed) with
        ⟨offset, _, rfl⟩
      omega
    have marks := differences_marked inside
    have sameLength :
        (marked length ∅).length = (marked length positions.toFinset).length := by
      rw [length_marked, length_marked]
    have counted :
        Parity.distance (marked length ∅) (marked length positions.toFinset) =
          offsets.length + 1 := by
      rw [distance_eq_card _ _ sameLength, marks,
        List.toFinset_card_of_nodup distinct, List.length_map,
        List.length_cons]
    refine
      ⟨marked length ∅, marked length positions.toFinset, length_marked _ _,
        length_marked _ _, ?_, ?_, counted⟩
    · intro same
      rw [← same, distance_eq_card _ _ rfl] at counted
      simp [differences] at counted
    · rw [checksum_eq_iff_syndrome generator wide constantTerm sameLength nodup
        before (by rw [length_marked]; exact within) marks]
      exact empty

/-- Messages that are no longer than the register do not collide. -/
theorem collisionDistances_eq_empty
    (wide : 8 ≤ width) (constantTerm : generator.getLsbD 0 = true)
    {length : Nat} (short : 8 * length ≤ width) :
    collisionDistances (checksum generator) length = ∅ := by
  rw [Set.eq_empty_iff_forall_notMem]
  rintro distance ⟨left, right, rfl, sameLength, different, same, _⟩
  refine
    checksum_ne_of_burst wide generator constantTerm sameLength.symm different
      ?_ same
  apply DifferWithin.of_forall_lt 0 sameLength.symm
  intro position inside _
  omega

/-- Two errors collide just in messages that are longer than the period. -/
theorem two_mem_collisionDistances_iff
    (wide : 8 ≤ width) (constantTerm : generator.getLsbD 0 = true)
    (returns : 0 < period generator) (length : Nat) :
    2 ∈ collisionDistances (checksum generator) length ↔
      period generator < 8 * length := by
  have positive : 0 < width :=
    Nat.lt_of_lt_of_le (by decide) wide
  have emptyIff (offset : Nat) :
      syndrome generator [0, offset] = BitVec.ofNat width 0 ↔
        period generator ∣ offset := by
    rw [← iterate_step_eq_one_iff generator positive,
      @eq_comm _ ((step generator)^[offset] (BitVec.ofNat width 1)),
      ← BitVec.xor_eq_zero_iff]
    simp [syndrome]
  rw [mem_collisionDistances_iff generator wide constantTerm]
  constructor
  · rintro ⟨offsets, count, nodup, bounds, empty⟩
    rcases List.length_eq_one_iff.mp (Nat.succ.inj count) with ⟨offset, rfl⟩
    have nonzero : 0 < offset := by
      rw [List.nodup_cons, List.mem_singleton] at nodup
      omega
    have divides := Nat.le_of_dvd nonzero ((emptyIff offset).mp empty)
    exact lt_of_le_of_lt divides (bounds offset (by simp))
  · intro long
    refine ⟨[period generator], rfl, ?_, ?_, (emptyIff _).mpr dvd_rfl⟩
    · simp [returns.ne]
    · intro offset listed
      rcases List.mem_cons.mp listed with rfl | last
      · exact lt_trans returns long
      · rw [List.mem_singleton.mp last]
        exact long

/-- Collisions have at least two errors. -/
theorem two_le_of_mem_collisionDistances
    (wide : 8 ≤ width) (constantTerm : generator.getLsbD 0 = true)
    {length distance : Nat}
    (member : distance ∈ collisionDistances (checksum generator) length) :
    2 ≤ distance := by
  rw [mem_collisionDistances_iff generator wide constantTerm] at member
  rcases member with ⟨offsets, rfl, _, _, empty⟩
  cases offsets with
  | nil =>
      have bit := congrArg (fun bits => bits.getLsbD 0) empty
      have positive : 0 < width :=
        Nat.lt_of_lt_of_le (by decide) wide
      simp [syndrome, positive] at bit
  | cons offset offsets =>
      simp

/-- Three errors collide just if two powers of `X` add up to one. -/
theorem three_mem_collisionDistances_iff
    (wide : 8 ≤ width) (constantTerm : generator.getLsbD 0 = true)
    (length : Nat) :
    3 ∈ collisionDistances (checksum generator) length ↔
      ∃ far < 8 * length, ∃ near < 8 * length,
        [0, far, near].Nodup ∧
          syndrome generator [0, far, near] = BitVec.ofNat width 0 := by
  rw [mem_collisionDistances_iff generator wide constantTerm]
  constructor
  · rintro ⟨offsets, count, nodup, bounds, empty⟩
    rcases List.length_eq_two.mp (Nat.succ.inj count) with ⟨far, near, rfl⟩
    exact
      ⟨far, bounds far (by simp), near, bounds near (by simp), nodup, empty⟩
  · rintro ⟨far, farInside, near, nearInside, nodup, empty⟩
    refine ⟨[far, near], rfl, nodup, ?_, empty⟩
    intro offset listed
    simp only [List.mem_cons, List.not_mem_nil, or_false] at listed
    rcases listed with rfl | rfl | rfl
    · exact lt_of_le_of_lt (Nat.zero_le far) farInside
    · exact farInside
    · exact nearInside

end Patterns

end CodingExamples.Library.CollisionDistance
