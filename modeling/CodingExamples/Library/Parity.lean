import CodingExamples.Library.ShiftRegister

/-!
# Parity

The number of bits that are set in a vector is, modulo two, the value of its
polynomial at one.  If the generator has an odd number of terms, then with
its leading term the generator polynomial vanishes there, so that a message
and its remainder have one parity.  Messages that differ in an odd number of
bits then have different remainders.
-/

namespace CodingExamples.Library.Parity

open Polynomial
open CodingExamples.Library.BinaryPolynomial
open CodingExamples.Library.ShiftRegister

variable {width : Nat}

/-- The number of bits that are set. -/
def ones (bits : BitVec width) : Nat :=
  ∑ index ∈ Finset.range width, (bits.getLsbD index).toNat

/-- The number of bits that are set in a message. -/
def messageOnes (data : List (BitVec 8)) : Nat :=
  (data.map ones).sum

/-- The number of bits in which two messages of one length differ. -/
def distance (left right : List (BitVec 8)) : Nat :=
  (List.zipWith (fun leftByte rightByte => ones (leftByte ^^^ rightByte))
    left right).sum

/-! ## The value at one -/

theorem cast_toNat (bit : Bool) :
    ((bit.toNat : Nat) : ZMod 2) = coefficient bit := by
  cases bit <;> simp

theorem cast_ones (bits : BitVec width) :
    ((ones bits : Nat) : ZMod 2) = (toPolynomial bits).eval 1 := by
  rw [ones, toPolynomial, Nat.cast_sum, eval_finsetSum]
  apply Finset.sum_congr rfl
  intro index _
  rw [cast_toNat, eval_mul, eval_C, eval_pow, eval_X, one_pow, mul_one]

theorem cast_ones_xor (left right : BitVec width) :
    ((ones (left ^^^ right) : Nat) : ZMod 2) = ones left + ones right := by
  rw [cast_ones, cast_ones, cast_ones, toPolynomial_xor, eval_add]

theorem cast_messageOnes (data : List (BitVec 8)) :
    ((messageOnes data : Nat) : ZMod 2) = (messagePolynomial data).eval 1 := by
  induction data using List.reverseRecOn with
  | nil => simp [messageOnes]
  | append_singleton data byte ih =>
      have counted :
          messageOnes (data ++ [byte]) = messageOnes data + ones byte := by
        simp [messageOnes]
      rw [counted, Nat.cast_add, ih, cast_ones,
        messagePolynomial_append_singleton, eval_add, eval_mul, eval_pow,
        eval_X, one_pow, mul_one]

theorem cast_distance
    (left right : List (BitVec 8)) (sameLength : left.length = right.length) :
    ((distance left right : Nat) : ZMod 2) =
      messageOnes left + messageOnes right := by
  induction left generalizing right with
  | nil =>
      rw [List.eq_nil_of_length_eq_zero sameLength.symm]
      simp [distance, messageOnes]
  | cons leftByte left ih =>
      cases right with
      | nil => simp at sameLength
      | cons rightByte right =>
          have rest := ih right (Nat.succ.inj sameLength)
          have counted :
              distance (leftByte :: left) (rightByte :: right) =
                ones (leftByte ^^^ rightByte) + distance left right := by
            simp [distance]
          have leftCounted :
              messageOnes (leftByte :: left) =
                ones leftByte + messageOnes left := by
            simp [messageOnes]
          have rightCounted :
              messageOnes (rightByte :: right) =
                ones rightByte + messageOnes right := by
            simp [messageOnes]
          rw [counted, leftCounted, rightCounted, Nat.cast_add,
            Nat.cast_add, Nat.cast_add, cast_ones_xor, rest]
          ring

/-! ## Remainders -/

variable (generator : BitVec width)

/-- A generator with an odd number of terms vanishes at one. -/
theorem eval_modulus (odd : Odd (ones generator)) :
    (modulus generator).eval 1 = 0 := by
  have terms : ((ones generator : Nat) : ZMod 2) = 1 :=
    ZMod.natCast_eq_one_iff_odd.mpr odd
  rw [modulus, eval_add, eval_pow, eval_X, one_pow, ← cast_ones, terms]
  decide

/-- Division by the generator polynomial keeps the parity. -/
theorem cast_ones_checksum
    (wide : 8 ≤ width) (odd : Odd (ones generator))
    (data : List (BitVec 8)) :
    ((ones (checksum generator data) : Nat) : ZMod 2) = messageOnes data := by
  have division :=
    modByMonic_eq_sub_mul_div (messagePolynomial data * X ^ width)
      (modulus generator)
  have quotient :
      (modulus generator *
        (messagePolynomial data * X ^ width /ₘ modulus generator)).eval 1 =
        0 := by
    rw [eval_mul, eval_modulus generator odd, zero_mul]
  rw [cast_ones, toPolynomial_checksum generator wide, division, eval_sub,
    quotient, sub_zero, eval_mul, eval_pow, eval_X, one_pow, mul_one,
    cast_messageOnes]

/-- A message and its checksum have one parity. -/
theorem ones_checksum_mod_two
    (wide : 8 ≤ width) (odd : Odd (ones generator))
    (data : List (BitVec 8)) :
    ones (checksum generator data) % 2 = messageOnes data % 2 :=
  (ZMod.natCast_eq_natCast_iff' _ _ 2).mp
    (cast_ones_checksum generator wide odd data)

/-- An odd number of errors, wherever they are, changes the checksum. -/
theorem checksum_ne_of_odd_distance
    (wide : 8 ≤ width) (odd : Odd (ones generator))
    {left right : List (BitVec 8)} (sameLength : left.length = right.length)
    (oddDistance : Odd (distance left right)) :
    checksum generator left ≠ checksum generator right := by
  intro same
  have parity : ((messageOnes left : Nat) : ZMod 2) = messageOnes right := by
    rw [← cast_ones_checksum generator wide odd,
      ← cast_ones_checksum generator wide odd, same]
  have even : ((distance left right : Nat) : ZMod 2) = 0 := by
    rw [cast_distance left right sameLength, parity]
    exact CharTwo.add_self_eq_zero _
  rw [ZMod.natCast_eq_one_iff_odd.mpr oddDistance] at even
  exact one_ne_zero even

end CodingExamples.Library.Parity
