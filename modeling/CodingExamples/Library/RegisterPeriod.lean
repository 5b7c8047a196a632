import CodingExamples.Library.BurstError

/-!
# The period of a feedback shift register

Registers are the remainders modulo the generator polynomial, and a step
multiplies by `X`.  The number of steps after which a register returns is the
order of `X` modulo the generator polynomial.  Powers of `X` are computed by
squaring on registers, so that the order of a concrete generator is certified
by a few evaluations: the power at the order is one, and the powers at its
quotients by its prime factors are not.
-/

namespace CodingExamples.Library.RegisterPeriod

open Polynomial
open CodingExamples.Library.BinaryPolynomial
open CodingExamples.Library.ShiftRegister

variable {width : Nat} (generator : BitVec width)

/-! ## Products -/

/-- Horner's rule over the lowest `count` bits of the right register. -/
def productFrom
    (left right : BitVec width) :
    Nat → BitVec width → BitVec width
  | 0, partialProduct => partialProduct
  | count + 1, partialProduct =>
      productFrom left right count
        (if right.getLsbD count then
          step generator partialProduct ^^^ left
        else
          step generator partialProduct)

/-- The product of two registers modulo the generator polynomial. -/
def product (left right : BitVec width) : BitVec width :=
  productFrom generator left right width (BitVec.ofNat width 0)

/-- A power of `X`, computed by squaring; the fuel bounds the bits of the exponent. -/
def power : Nat → Nat → BitVec width
  | 0, _ => BitVec.ofNat width 1
  | fuel + 1, exponent =>
      if exponent = 0 then
        BitVec.ofNat width 1
      else
        let half := power fuel (exponent / 2)
        if exponent % 2 = 1 then
          step generator (product generator half half)
        else
          product generator half half

noncomputable section

theorem residue_productFrom
    (left right : BitVec width) (count : Nat) (partialProduct : BitVec width) :
    residue generator
        (toPolynomial (productFrom generator left right count partialProduct)) =
      residue generator
        (toPolynomial partialProduct * X ^ count +
          toPolynomial left *
            ∑ index ∈ Finset.range count,
              C (coefficient (right.getLsbD index)) * X ^ index) := by
  induction count generalizing partialProduct with
  | zero => simp [productFrom]
  | succ count ih =>
      rw [productFrom, ih, Finset.sum_range_succ]
      cases right.getLsbD count with
      | false =>
          rw [if_neg (by simp), map_add, map_mul, residue_step, ← map_mul,
            ← map_add]
          refine congrArg (residue generator) ?_
          simp
          ring
      | true =>
          rw [if_pos rfl, toPolynomial_xor, map_add, map_mul, map_add,
            residue_step, ← map_add, ← map_mul, ← map_add]
          refine congrArg (residue generator) ?_
          simp
          ring

theorem residue_product (left right : BitVec width) :
    residue generator (toPolynomial (product generator left right)) =
      residue generator (toPolynomial left * toPolynomial right) := by
  have all :
      ∑ index ∈ Finset.range width,
          C (coefficient (right.getLsbD index)) * X ^ index =
        toPolynomial right :=
    rfl
  rw [product, residue_productFrom, all, toPolynomial_zero]
  simp

theorem toPolynomial_one (positive : 0 < width) :
    toPolynomial (BitVec.ofNat width 1) = 1 := by
  ext index
  rw [coeff_toPolynomial, coeff_one, BitVec.getLsbD_one]
  by_cases first : index = 0
  · simp [first, positive]
  · simp [first]

theorem residue_one (positive : 0 < width) :
    residue generator (toPolynomial (BitVec.ofNat width 1)) = 1 := by
  rw [toPolynomial_one positive, map_one]

/-- The computed power is the power of the class of `X`. -/
theorem residue_power
    (positive : 0 < width) (fuel exponent : Nat) (small : exponent < 2 ^ fuel) :
    residue generator (toPolynomial (power generator fuel exponent)) =
      residue generator X ^ exponent := by
  induction fuel generalizing exponent with
  | zero =>
      have zero : exponent = 0 := by
        simpa using small
      rw [power, residue_one generator positive, zero, pow_zero]
  | succ fuel ih =>
      rw [power]
      by_cases zero : exponent = 0
      · rw [if_pos zero, residue_one generator positive, zero, pow_zero]
      · have half := ih (exponent / 2) (by rw [pow_succ] at small; omega)
        rw [if_neg zero]
        by_cases odd : exponent % 2 = 1
        · have split : exponent = exponent / 2 + exponent / 2 + 1 := by
            omega
          rw [if_pos odd, residue_step, map_mul, residue_product, map_mul, half,
            ← pow_add, ← pow_succ', ← split]
        · have split : exponent = exponent / 2 + exponent / 2 := by
            omega
          rw [if_neg odd, residue_product, map_mul, half, ← pow_add, ← split]

/-! ## Remainders determine registers -/

theorem toPolynomial_injective :
    Function.Injective (toPolynomial : BitVec width → (ZMod 2)[X]) := by
  intro left right same
  apply BitVec.eq_of_getLsbD_eq
  intro index _
  apply coefficient_injective
  rw [← coeff_toPolynomial, ← coeff_toPolynomial, same]

/-- Registers in one class are equal. -/
theorem eq_of_residue
    {left right : BitVec width}
    (same :
      residue generator (toPolynomial left) =
        residue generator (toPolynomial right)) :
    left = right := by
  apply toPolynomial_injective
  rw [residue, AdjoinRoot.mk_eq_mk] at same
  rw [← sub_eq_zero]
  apply eq_zero_of_dvd_of_degree_lt same
  rw [degree_modulus]
  exact
    lt_of_le_of_lt (degree_sub_le _ _)
      (max_lt (degree_toPolynomial_lt left) (degree_toPolynomial_lt right))

/-! ## The order of `X` -/

/-- The number of steps after which a register returns. -/
def period : Nat :=
  orderOf (residue generator X)

/-- A constant term lets the class of `X` be inverted. -/
theorem isUnit_residue_X
    (positive : 0 < width) (constantTerm : generator.getLsbD 0 = true) :
    IsUnit (residue generator X) := by
  rcases BurstError.isCoprime_modulus_X_pow positive generator constantTerm 1 with
    ⟨left, right, combination⟩
  apply IsUnit.of_mul_eq_one_right (residue generator right)
  have image := congrArg (residue generator) combination
  rw [pow_one, map_add, map_mul, map_mul, AdjoinRoot.mk_self, mul_zero,
    zero_add, map_one] at image
  exact image

/-- One at the period and at no quotient by a prime certifies the period. -/
theorem period_eq
    (positive : 0 < width) (fuel : Nat) {order : Nat} (nonzero : 0 < order)
    (small : order < 2 ^ fuel)
    (returns : power generator fuel order = BitVec.ofNat width 1)
    (earlier :
      ∀ prime : Nat, prime.Prime → prime ∣ order →
        power generator fuel (order / prime) ≠ BitVec.ofNat width 1) :
    period generator = order := by
  apply orderOf_eq_of_pow_and_pow_div_prime nonzero
  · rw [← residue_power generator positive fuel order small, returns,
      residue_one generator positive]
  · intro prime isPrime divides one
    apply earlier prime isPrime divides
    apply eq_of_residue generator
    rw [residue_power generator positive fuel _
        (lt_of_le_of_lt (Nat.div_le_self order prime) small),
      one, residue_one generator positive]

/-- The register that starts from one is back just after multiples of the period. -/
theorem iterate_step_eq_one_iff (positive : 0 < width) (count : Nat) :
    (step generator)^[count] (BitVec.ofNat width 1) = BitVec.ofNat width 1 ↔
      period generator ∣ count := by
  have reached :
      residue generator
          (toPolynomial ((step generator)^[count] (BitVec.ofNat width 1))) =
        residue generator X ^ count := by
    rw [residue_iterate_step, map_mul, residue_one generator positive, one_mul,
      map_pow]
  rw [period, orderOf_dvd_iff_pow_eq_one, ← reached,
    ← residue_one generator positive]
  constructor
  · intro back
    rw [back]
  · exact eq_of_residue generator

end

end CodingExamples.Library.RegisterPeriod
