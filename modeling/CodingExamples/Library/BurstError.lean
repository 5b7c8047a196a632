import CodingExamples.Library.ShiftRegister

/-!
# Burst errors

The bits of a message are counted with the most significant bit of each byte
first.  A register whose generator polynomial has a constant term tells apart
any two messages of one length whose differing bits lie within as many
consecutive positions as the register is wide.

The difference of the two messages is a power of `X` times a polynomial that
is too short for the generator polynomial to divide, and the constant term
makes the generator polynomial coprime to `X`.
-/

namespace CodingExamples.Library.BurstError

open Polynomial
open CodingExamples.Library.BinaryPolynomial

/-- The bit of a message at a position. -/
def bitAt (data : List (BitVec 8)) (position : Nat) : Bool :=
  (data[position / 8]?.getD 0).getMsbD (position % 8)

/-- All positions at which the messages differ lie within a window. -/
def DifferWithin (window : Nat) (left right : List (BitVec 8)) : Prop :=
  ∃ start, ∀ position, bitAt left position ≠ bitAt right position →
    start ≤ position ∧ position < start + window

theorem bitAt_of_length_le
    (data : List (BitVec 8)) {position : Nat}
    (outside : 8 * data.length ≤ position) :
    bitAt data position = false := by
  rw [bitAt, List.getElem?_eq_none (by omega)]
  simp

/-- Only positions inside of the messages matter. -/
theorem DifferWithin.of_forall_lt
    (start : Nat) {window : Nat} {left right : List (BitVec 8)}
    (sameLength : left.length = right.length)
    (within :
      ∀ position < 8 * left.length,
        bitAt left position ≠ bitAt right position →
          start ≤ position ∧ position < start + window) :
    DifferWithin window left right := by
  refine ⟨start, fun position differ => ?_⟩
  apply within position _ differ
  by_contra outside
  apply differ
  rw [bitAt_of_length_le left (not_lt.mp outside),
    bitAt_of_length_le right (sameLength ▸ not_lt.mp outside)]

/-- The bits of a message determine it. -/
theorem eq_of_bitAt
    {left right : List (BitVec 8)} (sameLength : left.length = right.length)
    (sameBits : ∀ position, bitAt left position = bitAt right position) :
    left = right := by
  apply List.ext_getElem sameLength
  intro index leftInside rightInside
  apply BitVec.eq_of_getMsbD_eq
  intro offset inside
  have same := sameBits (8 * index + offset)
  have quotient : (8 * index + offset) / 8 = index := by
    omega
  have remainder : (8 * index + offset) % 8 = offset := by
    omega
  rw [bitAt, bitAt, quotient, remainder,
    List.getElem?_eq_getElem leftInside,
    List.getElem?_eq_getElem rightInside] at same
  exact same

noncomputable section

/-- The coefficients of a message are its bits, counted from its end. -/
theorem coeff_messagePolynomial_eq_bitAt
    (data : List (BitVec 8)) {index : Nat} (inside : index < 8 * data.length) :
    (messagePolynomial data).coeff index =
      coefficient (bitAt data (8 * data.length - 1 - index)) := by
  have mirrored :
      data.length - 1 - index / 8 = (8 * data.length - 1 - index) / 8 := by
    omega
  have offset : 8 - 1 - (8 * data.length - 1 - index) % 8 = index % 8 := by
    omega
  have within : (8 * data.length - 1 - index) % 8 < 8 :=
    Nat.mod_lt _ (by decide)
  rw [coeff_messagePolynomial, List.getElem?_reverse (by omega), mirrored,
    bitAt, BitVec.getMsbD_eq_getLsbD, offset]
  simp [within]

theorem coeff_messagePolynomial_of_length_le
    (data : List (BitVec 8)) {index : Nat} (outside : 8 * data.length ≤ index) :
    (messagePolynomial data).coeff index = 0 := by
  have past : data.reverse.length ≤ index / 8 := by
    rw [List.length_reverse]
    omega
  rw [coeff_messagePolynomial, List.getElem?_eq_none past]
  simp

/-- Messages of one length with the same polynomial are equal. -/
theorem eq_of_messagePolynomial
    {left right : List (BitVec 8)} (sameLength : left.length = right.length)
    (same : messagePolynomial left = messagePolynomial right) :
    left = right := by
  apply eq_of_bitAt sameLength
  intro position
  by_cases inside : position < 8 * left.length
  · have index : 8 * left.length - 1 - position < 8 * left.length := by
      omega
    have back :
        8 * left.length - 1 - (8 * left.length - 1 - position) = position := by
      omega
    have leftBit := coeff_messagePolynomial_eq_bitAt left index
    have rightBit :=
      coeff_messagePolynomial_eq_bitAt right (sameLength ▸ index)
    rw [back] at leftBit
    rw [← sameLength, back, ← same, leftBit] at rightBit
    exact coefficient_injective rightBit
  · rw [bitAt_of_length_le left (not_lt.mp inside),
      bitAt_of_length_le right (sameLength ▸ not_lt.mp inside)]

/-- The difference of the messages is a short polynomial, shifted. -/
theorem exists_short_difference
    {window : Nat} {left right : List (BitVec 8)}
    (sameLength : left.length = right.length)
    (burst : DifferWithin window left right) :
    ∃ (shift : Nat) (short : (ZMod 2)[X]),
      messagePolynomial left - messagePolynomial right = X ^ shift * short ∧
        short.degree < window := by
  rcases burst with ⟨start, within⟩
  have agree (index : Nat)
      (outside :
        8 * left.length ≤ index + start ∨
          index + start + window < 8 * left.length) :
      (messagePolynomial left - messagePolynomial right).coeff index = 0 := by
    rw [coeff_sub, sub_eq_zero]
    by_cases inside : index < 8 * left.length
    · rw [coeff_messagePolynomial_eq_bitAt left inside,
        coeff_messagePolynomial_eq_bitAt right (sameLength ▸ inside),
        ← sameLength]
      by_contra differ
      have bounds := within _ (fun same => differ (by rw [same]))
      omega
    · rw [coeff_messagePolynomial_of_length_le left (not_lt.mp inside),
        coeff_messagePolynomial_of_length_le right
          (sameLength ▸ not_lt.mp inside)]
  have divides :
      X ^ (8 * left.length - start - window) ∣
        messagePolynomial left - messagePolynomial right := by
    rw [X_pow_dvd_iff]
    intro index below
    exact agree index (Or.inr (by omega))
  rcases divides with ⟨short, product⟩
  refine ⟨_, short, product, ?_⟩
  rw [degree_lt_iff_coeff_zero]
  intro index above
  have shifted :=
    agree (index + (8 * left.length - start - window))
      (Or.inl (by omega))
  rwa [product, coeff_X_pow_mul] at shifted

/-- A constant term makes the generator polynomial coprime to powers of `X`. -/
theorem isCoprime_modulus_X_pow
    {width : Nat} (positive : 0 < width) (generator : BitVec width)
    (odd : generator.getLsbD 0 = true) (shift : Nat) :
    IsCoprime (ShiftRegister.modulus generator) (X ^ shift) := by
  have constant : (ShiftRegister.modulus generator).coeff 0 = 1 := by
    rw [ShiftRegister.modulus, coeff_add, coeff_X_pow, coeff_toPolynomial,
      if_neg positive.ne, odd, coefficient_true, zero_add]
  have notDivisible : ¬ X ∣ ShiftRegister.modulus generator := by
    rw [X_dvd_iff, constant]
    exact one_ne_zero
  exact (prime_X.coprime_iff_not_dvd.mpr notDivisible).symm.pow_right

/-- Messages with one checksum are congruent modulo the generator polynomial. -/
theorem modulus_dvd_of_checksum_eq
    {width : Nat} (wide : 8 ≤ width) (generator : BitVec width)
    {left right : List (BitVec 8)}
    (same :
      ShiftRegister.checksum generator left =
        ShiftRegister.checksum generator right) :
    ShiftRegister.modulus generator ∣
      (messagePolynomial left - messagePolynomial right) * X ^ width := by
  rw [sub_mul, ← AdjoinRoot.mk_eq_mk,
    ← ShiftRegister.residue_checksum generator wide,
    ← ShiftRegister.residue_checksum generator wide, same]

/-- Every burst that is not longer than the register changes the checksum. -/
theorem checksum_ne_of_burst
    {width : Nat} (wide : 8 ≤ width) (generator : BitVec width)
    (odd : generator.getLsbD 0 = true)
    {left right : List (BitVec 8)} (sameLength : left.length = right.length)
    (different : left ≠ right) (burst : DifferWithin width left right) :
    ShiftRegister.checksum generator left ≠
      ShiftRegister.checksum generator right := by
  intro same
  apply different
  apply eq_of_messagePolynomial sameLength
  rcases exists_short_difference sameLength burst with
    ⟨shift, short, product, degree⟩
  have coprime :=
    isCoprime_modulus_X_pow (Nat.lt_of_lt_of_le (by decide) wide) generator odd
  have dividesDifference :
      ShiftRegister.modulus generator ∣ X ^ shift * short := by
    rw [← product]
    exact (coprime width).dvd_of_dvd_mul_right
      (modulus_dvd_of_checksum_eq wide generator same)
  have dividesShort : ShiftRegister.modulus generator ∣ short :=
    (coprime shift).dvd_of_dvd_mul_left dividesDifference
  have zero : short = 0 := by
    apply eq_zero_of_dvd_of_degree_lt dividesShort
    rw [ShiftRegister.degree_modulus]
    exact degree
  rw [← sub_eq_zero, product, zero, mul_zero]

end

end CodingExamples.Library.BurstError
