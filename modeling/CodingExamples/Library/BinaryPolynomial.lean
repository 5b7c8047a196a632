import Mathlib

/-!
# Bit vectors as polynomials over the field of two elements

Bit `n` of a vector is the coefficient of `X ^ n`.  Exclusive or is addition,
and a shift to the left is multiplication by `X` without the coefficient that
leaves the vector.  A message of bytes is read by Horner's rule, so that the
most significant bit of the first byte is the leading coefficient.
-/

noncomputable section

namespace CodingExamples.Library.BinaryPolynomial

open Polynomial

/-- A bit as a coefficient. -/
def coefficient (bit : Bool) : ZMod 2 :=
  if bit then 1 else 0

@[simp]
theorem coefficient_false : coefficient false = 0 :=
  rfl

@[simp]
theorem coefficient_true : coefficient true = 1 :=
  rfl

theorem coefficient_xor (left right : Bool) :
    coefficient (left ^^ right) = coefficient left + coefficient right := by
  cases left <;> cases right <;> decide

theorem coefficient_injective : Function.Injective coefficient := by
  intro left right
  cases left <;> cases right <;> simp

variable {width : Nat}

/-- The polynomial whose coefficients are the bits of the vector. -/
def toPolynomial (bits : BitVec width) : (ZMod 2)[X] :=
  ∑ index ∈ Finset.range width,
    C (coefficient (bits.getLsbD index)) * X ^ index

@[simp]
theorem coeff_toPolynomial (bits : BitVec width) (index : Nat) :
    (toPolynomial bits).coeff index =
      coefficient (bits.getLsbD index) := by
  simp only [toPolynomial, finsetSum_coeff, coeff_C_mul, coeff_X_pow]
  by_cases inside : index < width
  · simp [inside]
  · simp [inside, BitVec.getLsbD_of_ge bits index (not_lt.mp inside)]

theorem degree_toPolynomial_lt (bits : BitVec width) :
    (toPolynomial bits).degree < width := by
  rw [degree_lt_iff_coeff_zero]
  intro index outside
  rw [coeff_toPolynomial, BitVec.getLsbD_of_ge bits index outside]
  rfl

@[simp]
theorem toPolynomial_zero : toPolynomial (BitVec.ofNat width 0) = 0 := by
  ext index
  simp

theorem toPolynomial_xor (left right : BitVec width) :
    toPolynomial (left ^^^ right) =
      toPolynomial left + toPolynomial right := by
  ext index
  rw [coeff_add, coeff_toPolynomial, coeff_toPolynomial,
    coeff_toPolynomial, BitVec.getLsbD_xor, coefficient_xor]

/-- Shifting multiplies by `X`; the most significant bit reappears as `X ^ w`. -/
theorem toPolynomial_shiftLeft_one (bits : BitVec width) :
    toPolynomial (bits <<< 1) +
        C (coefficient bits.msb) * X ^ width =
      X * toPolynomial bits := by
  ext index
  rw [coeff_add, coeff_C_mul, coeff_X_pow, coeff_toPolynomial]
  cases index with
  | zero =>
      rw [coeff_X_mul_zero, BitVec.getLsbD_shiftLeft]
      cases width with
      | zero => simp [BitVec.msb_zero_length]
      | succ width => simp
  | succ index =>
      rw [coeff_X_mul, coeff_toPolynomial, BitVec.getLsbD_shiftLeft]
      rcases lt_trichotomy (index + 1) width with inside | top | outside
      · simp [inside, inside.ne]
      · subst top
        simp [BitVec.msb_eq_getLsbD_last]
      · have empty : bits.getLsbD index = false :=
          BitVec.getLsbD_of_ge bits index (by omega)
        simp [empty, outside.ne', outside.not_gt]

/-- A byte placed at the top of a wide vector is multiplied accordingly. -/
theorem toPolynomial_shiftLeft_setWidth
    {narrow shift : Nat} (bits : BitVec narrow)
    (fits : narrow + shift ≤ width) :
    toPolynomial (bits.setWidth width <<< shift) =
      toPolynomial bits * X ^ shift := by
  ext index
  rw [coeff_toPolynomial, coeff_mul_X_pow', BitVec.getLsbD_shiftLeft]
  by_cases below : index < shift
  · simp [below, below.not_ge]
  · rw [coeff_toPolynomial, if_pos (not_lt.mp below)]
    by_cases inside : index < width
    · simp [below, inside, show index - shift < width by omega]
    · have empty : bits.getLsbD (index - shift) = false :=
        BitVec.getLsbD_of_ge bits (index - shift) (by omega)
      simp [inside, empty]

/-! ## Messages -/

/-- The polynomial of a message of bytes. -/
def messagePolynomial (data : List (BitVec 8)) : (ZMod 2)[X] :=
  data.foldl (fun prior byte => prior * X ^ 8 + toPolynomial byte) 0

@[simp]
theorem messagePolynomial_nil : messagePolynomial [] = 0 :=
  rfl

theorem messagePolynomial_append_singleton
    (data : List (BitVec 8)) (byte : BitVec 8) :
    messagePolynomial (data ++ [byte]) =
      messagePolynomial data * X ^ 8 + toPolynomial byte := by
  rw [messagePolynomial, List.foldl_append]
  rfl

/--
The coefficients of a message: counting from its end, coefficient `n` is bit
`n % 8` of byte `n / 8`.
-/
theorem coeff_messagePolynomial (data : List (BitVec 8)) (index : Nat) :
    (messagePolynomial data).coeff index =
      coefficient
        ((data.reverse[index / 8]?.getD 0).getLsbD (index % 8)) := by
  induction data using List.reverseRecOn generalizing index with
  | nil => simp
  | append_singleton data byte ih =>
      rw [messagePolynomial_append_singleton, coeff_add, coeff_mul_X_pow',
        coeff_toPolynomial, List.reverse_append, List.reverse_singleton,
        List.singleton_append]
      by_cases below : index < 8
      · have first : index / 8 = 0 := Nat.div_eq_of_lt below
        rw [if_neg (not_le.mpr below), zero_add, first,
          Nat.mod_eq_of_lt below]
        rfl
      · have later : index / 8 = (index - 8) / 8 + 1 := by
          omega
        have same : index % 8 = (index - 8) % 8 := by
          omega
        rw [if_pos (not_lt.mp below), ih, later, same,
          BitVec.getLsbD_of_ge byte index (not_lt.mp below)]
        simp

end CodingExamples.Library.BinaryPolynomial

end
