import CodingExamples.Library.Parity
import CodingExamples.Library.RegisterPeriod

/-!
# The positions of errors

Two messages of one length have the same checksum just if the powers of `X`
at the positions where they differ add up to zero modulo the generator
polynomial.  Since `X` can be inverted there, only the offsets from a common
end matter, and the sum of their powers is a register that can be computed.
For two errors it vanishes just if the period divides their distance.
-/

namespace CodingExamples.Library.ErrorPositions

open Polynomial
open CodingExamples.Library.BinaryPolynomial
open CodingExamples.Library.BurstError
open CodingExamples.Library.ShiftRegister
open CodingExamples.Library.RegisterPeriod

/-- The positions at which the messages differ. -/
def differences (left right : List (BitVec 8)) : Finset Nat :=
  {position ∈ Finset.range (8 * left.length) |
    bitAt left position ≠ bitAt right position}

theorem mem_differences_iff
    {left right : List (BitVec 8)} {position : Nat} :
    position ∈ differences left right ↔
      position < 8 * left.length ∧
        bitAt left position ≠ bitAt right position := by
  rw [differences, Finset.mem_filter, Finset.mem_range]

/-- Messages of one length that differ nowhere are equal. -/
theorem eq_of_differences_eq_empty
    {left right : List (BitVec 8)} (sameLength : left.length = right.length)
    (nowhere : differences left right = ∅) :
    left = right := by
  apply eq_of_bitAt sameLength
  intro position
  by_contra differ
  by_cases inside : position < 8 * left.length
  · have member : position ∈ differences left right :=
      mem_differences_iff.mpr ⟨inside, differ⟩
    rw [nowhere] at member
    exact Finset.notMem_empty position member
  · apply differ
    rw [bitAt_of_length_le left (not_lt.mp inside),
      bitAt_of_length_le right (sameLength ▸ not_lt.mp inside)]

/-- Only positions inside of the messages can be the two that differ. -/
theorem differences_eq_pair
    {left right : List (BitVec 8)} (sameLength : left.length = right.length)
    {first second : Nat}
    (twoBits :
      ∀ position,
        bitAt left position ≠ bitAt right position ↔
          position = first ∨ position = second) :
    differences left right = {first, second} := by
  ext position
  rw [mem_differences_iff, twoBits, Finset.mem_insert, Finset.mem_singleton,
    and_iff_right_iff_imp, ← twoBits]
  intro differ
  by_contra outside
  apply differ
  rw [bitAt_of_length_le left (not_lt.mp outside),
    bitAt_of_length_le right (sameLength ▸ not_lt.mp outside)]

/-! ## The distance -/

theorem bitAt_cons_of_lt
    (byte : BitVec 8) (data : List (BitVec 8)) {position : Nat}
    (first : position < 8) :
    bitAt (byte :: data) position = byte.getMsbD position := by
  rw [bitAt, Nat.div_eq_of_lt first, Nat.mod_eq_of_lt first]
  rfl

theorem bitAt_cons_add
    (byte : BitVec 8) (data : List (BitVec 8)) (position : Nat) :
    bitAt (byte :: data) (8 + position) = bitAt data position := by
  have quotient : (8 + position) / 8 = position / 8 + 1 := by
    omega
  rw [bitAt, bitAt, quotient, Nat.add_mod_left, List.getElem?_cons_succ]

/-- The bits that are set in a byte, counted from its top. -/
theorem ones_eq_sum_getMsbD (byte : BitVec 8) :
    Parity.ones byte =
      ∑ position ∈ Finset.range 8, (byte.getMsbD position).toNat := by
  rw [Parity.ones,
    ← Finset.sum_range_reflect (fun index => (byte.getLsbD index).toNat) 8]
  apply Finset.sum_congr rfl
  intro position member
  rw [BitVec.getMsbD_eq_getLsbD]
  simp [Finset.mem_range.mp member]

theorem distance_eq_sum
    (left right : List (BitVec 8)) (sameLength : left.length = right.length) :
    Parity.distance left right =
      ∑ position ∈ Finset.range (8 * left.length),
        (bitAt left position ^^ bitAt right position).toNat := by
  induction left generalizing right with
  | nil => simp [Parity.distance]
  | cons leftByte left ih =>
      cases right with
      | nil => simp at sameLength
      | cons rightByte right =>
          have counted :
              Parity.distance (leftByte :: left) (rightByte :: right) =
                Parity.ones (leftByte ^^^ rightByte) +
                  Parity.distance left right := by
            simp [Parity.distance]
          have split : 8 * (leftByte :: left).length = 8 + 8 * left.length := by
            rw [List.length_cons]
            omega
          rw [counted, ih right (Nat.succ.inj sameLength), split,
            Finset.sum_range_add, ones_eq_sum_getMsbD]
          congr 1
          · apply Finset.sum_congr rfl
            intro position member
            have first := Finset.mem_range.mp member
            rw [bitAt_cons_of_lt leftByte left first,
              bitAt_cons_of_lt rightByte right first, BitVec.getMsbD_xor]
          · apply Finset.sum_congr rfl
            intro position _
            rw [bitAt_cons_add, bitAt_cons_add]

theorem distance_eq_card
    (left right : List (BitVec 8)) (sameLength : left.length = right.length) :
    Parity.distance left right = (differences left right).card := by
  rw [distance_eq_sum left right sameLength, differences, Finset.card_filter]
  apply Finset.sum_congr rfl
  intro position _
  cases bitAt left position <;> cases bitAt right position <;> rfl

/-! ## Messages with given differences -/

/-- The message whose bits are set at the given positions only. -/
def marked (length : Nat) (positions : Finset Nat) : List (BitVec 8) :=
  List.ofFn fun byte : Fin length =>
    BitVec.ofFnBE fun bit : Fin 8 =>
      decide (8 * byte.val + bit.val ∈ positions)

theorem length_marked (length : Nat) (positions : Finset Nat) :
    (marked length positions).length = length := by
  rw [marked, List.length_ofFn]

theorem bitAt_marked
    {length : Nat} (positions : Finset Nat) {position : Nat}
    (inside : position < 8 * length) :
    bitAt (marked length positions) position =
      decide (position ∈ positions) := by
  have quotient : position / 8 < length := by
    omega
  have remainder : position % 8 < 8 :=
    Nat.mod_lt _ (by decide)
  have joined : 8 * (position / 8) + position % 8 = position := by
    omega
  rw [bitAt, marked, List.getElem?_ofFn, dif_pos quotient, Option.getD_some,
    BitVec.getMsbD_ofFnBE, dif_pos remainder]
  simp only [joined]

/-- Every set of positions is where two messages differ. -/
theorem differences_marked
    {length : Nat} {positions : Finset Nat}
    (inside : ∀ position ∈ positions, position < 8 * length) :
    differences (marked length ∅) (marked length positions) = positions := by
  ext position
  rw [mem_differences_iff, length_marked]
  constructor
  · rintro ⟨within, differ⟩
    rw [bitAt_marked ∅ within, bitAt_marked positions within] at differ
    by_contra outside
    simp [outside] at differ
  · intro member
    have within := inside position member
    rw [bitAt_marked ∅ within, bitAt_marked positions within]
    simp [within, member]

/-! ## The syndrome -/

section Syndrome

variable {width : Nat} (generator : BitVec width)

/-- The register for errors at the given offsets before the last of them. -/
def syndrome (offsets : List Nat) : BitVec width :=
  offsets.foldr
    (fun offset register =>
      (step generator)^[offset] (BitVec.ofNat width 1) ^^^ register)
    (BitVec.ofNat width 0)

noncomputable section

theorem residue_syndrome (positive : 0 < width) (offsets : List Nat) :
    residue generator (toPolynomial (syndrome generator offsets)) =
      (offsets.map fun offset => residue generator X ^ offset).sum := by
  induction offsets with
  | nil => simp [syndrome]
  | cons offset offsets ih =>
      have split :
          syndrome generator (offset :: offsets) =
            (step generator)^[offset] (BitVec.ofNat width 1) ^^^
              syndrome generator offsets :=
        rfl
      rw [split, toPolynomial_xor, map_add, ih, residue_iterate_step, map_mul,
        residue_one generator positive, one_mul, map_pow, List.map_cons,
        List.sum_cons]

/-- The difference of two messages has a term for each error. -/
theorem messagePolynomial_sub
    {left right : List (BitVec 8)} (sameLength : left.length = right.length) :
    messagePolynomial left - messagePolynomial right =
      ∑ position ∈ differences left right,
        X ^ (8 * left.length - 1 - position) := by
  ext index
  rw [coeff_sub, finsetSum_coeff]
  by_cases inside : index < 8 * left.length
  · rw [coeff_messagePolynomial_eq_bitAt left inside,
      coeff_messagePolynomial_eq_bitAt right (sameLength ▸ inside),
      ← sameLength]
    have single (position : Nat) (member : position ∈ differences left right) :
        (X ^ (8 * left.length - 1 - position) : (ZMod 2)[X]).coeff index =
          if 8 * left.length - 1 - index = position then 1 else 0 := by
      have within := (mem_differences_iff.mp member).1
      rw [coeff_X_pow]
      refine if_congr ?_ rfl rfl
      omega
    have mirrored : 8 * left.length - 1 - index < 8 * left.length := by
      omega
    have member :
        8 * left.length - 1 - index ∈ differences left right ↔
          bitAt left (8 * left.length - 1 - index) ≠
            bitAt right (8 * left.length - 1 - index) := by
      rw [mem_differences_iff, and_iff_right mirrored]
    rw [Finset.sum_congr rfl single, Finset.sum_ite_eq, if_congr member rfl rfl]
    cases bitAt left (8 * left.length - 1 - index) <;>
      cases bitAt right (8 * left.length - 1 - index) <;> decide
  · rw [coeff_messagePolynomial_of_length_le left (not_lt.mp inside),
      coeff_messagePolynomial_of_length_le right
        (sameLength ▸ not_lt.mp inside), sub_zero]
    symm
    apply Finset.sum_eq_zero
    intro position member
    have within := (mem_differences_iff.mp member).1
    rw [coeff_X_pow, if_neg (by omega)]

/-- The checksums agree just if the difference of the messages vanishes. -/
theorem checksum_eq_iff_residue
    (wide : 8 ≤ width) (constantTerm : generator.getLsbD 0 = true)
    (left right : List (BitVec 8)) :
    checksum generator left = checksum generator right ↔
      residue generator (messagePolynomial left - messagePolynomial right) =
        0 := by
  have positive : 0 < width :=
    Nat.lt_of_lt_of_le (by decide) wide
  have shifted :
      residue generator (toPolynomial (checksum generator left)) -
          residue generator (toPolynomial (checksum generator right)) =
        residue generator (messagePolynomial left - messagePolynomial right) *
          residue generator X ^ width := by
    rw [residue_checksum generator wide, residue_checksum generator wide,
      ← map_sub, ← sub_mul, map_mul, map_pow]
  have unit : IsUnit (residue generator X ^ width) :=
    (isUnit_residue_X generator positive constantTerm).pow width
  constructor
  · intro same
    rw [same, sub_self] at shifted
    exact unit.mul_left_eq_zero.mp shifted.symm
  · intro vanishes
    rw [vanishes, zero_mul, sub_eq_zero] at shifted
    exact eq_of_residue generator shifted

/--
Errors at given offsets before the last one go unnoticed just if their
syndrome is the empty register.
-/
theorem checksum_eq_iff_syndrome
    (wide : 8 ≤ width) (constantTerm : generator.getLsbD 0 = true)
    {left right : List (BitVec 8)} (sameLength : left.length = right.length)
    {last : Nat} {offsets : List Nat} (nodup : offsets.Nodup)
    (before : ∀ offset ∈ offsets, offset ≤ last)
    (within : last < 8 * left.length)
    (positions :
      differences left right =
        (offsets.map fun offset => last - offset).toFinset) :
    checksum generator left = checksum generator right ↔
      syndrome generator offsets = BitVec.ofNat width 0 := by
  have positive : 0 < width :=
    Nat.lt_of_lt_of_le (by decide) wide
  have distinct : (offsets.map fun offset => last - offset).Nodup := by
    apply nodup.map_on
    intro offset member other otherMember same
    have bound := before offset member
    have otherBound := before other otherMember
    omega
  have factored :
      residue generator (messagePolynomial left - messagePolynomial right) =
        residue generator X ^ (8 * left.length - 1 - last) *
          residue generator (toPolynomial (syndrome generator offsets)) := by
    rw [messagePolynomial_sub sameLength, positions, map_sum,
      List.sum_toFinset _ distinct, residue_syndrome generator positive,
      ← List.sum_map_mul_left, List.map_map]
    congr 1
    apply List.map_congr_left
    intro offset member
    have bound := before offset member
    have power :
        8 * left.length - 1 - (last - offset) =
          8 * left.length - 1 - last + offset := by
      omega
    rw [Function.comp_apply, map_pow, power, pow_add]
  have unit : IsUnit (residue generator X ^ (8 * left.length - 1 - last)) :=
    (isUnit_residue_X generator positive constantTerm).pow _
  rw [checksum_eq_iff_residue generator wide constantTerm, factored,
    unit.mul_right_eq_zero]
  constructor
  · intro vanishes
    apply eq_of_residue generator
    rw [vanishes, toPolynomial_zero, map_zero]
  · intro empty
    rw [empty, toPolynomial_zero, map_zero]

/-- Two errors go unnoticed just if the period divides their distance. -/
theorem checksum_eq_iff_of_pair
    (wide : 8 ≤ width) (constantTerm : generator.getLsbD 0 = true)
    {left right : List (BitVec 8)} (sameLength : left.length = right.length)
    {first second : Nat} (order : first < second)
    (positions : differences left right = {first, second}) :
    checksum generator left = checksum generator right ↔
      period generator ∣ second - first := by
  have positive : 0 < width :=
    Nat.lt_of_lt_of_le (by decide) wide
  have within : second < 8 * left.length := by
    have member : second ∈ differences left right := by
      rw [positions]
      simp
    exact (mem_differences_iff.mp member).1
  have offsets :
      differences left right =
        ([second - first, 0].map fun offset => second - offset).toFinset := by
    rw [positions]
    simp [Nat.sub_sub_self order.le]
  have nodup : [second - first, 0].Nodup := by
    simp
    omega
  rw [checksum_eq_iff_syndrome generator wide constantTerm sameLength nodup
      (by simp) within offsets,
    ← iterate_step_eq_one_iff generator positive]
  simp [syndrome, BitVec.xor_eq_zero_iff]

end

end Syndrome

end CodingExamples.Library.ErrorPositions
