import CodingExamples.Crc.Crc16
import CodingExamples.Crc.Crc8
import CodingExamples.Library.BurstError
import CodingExamples.Library.Codeword
import CodingExamples.Library.Parity

/-!
# Both checksum programs

The table programs compute what the bitwise programs compute, and the bitwise
programs compute the remainder of a polynomial division.  Both facts are
instances of the theory of feedback shift registers.
-/

namespace CodingExamples.Crc.Checksums

open Polynomial
open CodingExamples.Library
open CodingExamples.Library.BinaryPolynomial
open CodingExamples.Library.BurstError (DifferWithin)
open CodingExamples.Crc.Crc16 (crc16Simple crc16Lookuptable)
open CodingExamples.Crc.Crc8 (crc8Simple crc8Lookuptable)

/-- With the generated tables, the two implementations of each checksum agree. -/
theorem lookuptable_eq_simple (data : List (BitVec 8)) :
    crc16Lookuptable Crc16.genLookuptable data = crc16Simple data ∧
      crc8Lookuptable Crc8.genLookuptable data = crc8Simple data := by
  constructor
  · rw [Crc16.crc16Lookuptable_eq_checksum, Crc16.crc16Simple_eq_checksum]
  · rw [Crc8.crc8Lookuptable_eq_checksum, Crc8.crc8Simple_eq_checksum]

theorem modulus_crc16 :
    ShiftRegister.modulus Crc16.generator = X ^ 16 + X ^ 12 + X ^ 5 + 1 := by
  have bits :
      toPolynomial Crc16.generator = X ^ 12 + X ^ 5 + 1 := by
    simp [toPolynomial, Finset.sum_range_succ, Crc16.generator]
    ring
  rw [ShiftRegister.modulus, bits]
  ring

theorem modulus_crc8 :
    ShiftRegister.modulus Crc8.generator =
      X ^ 8 + X ^ 4 + X ^ 3 + X ^ 2 + 1 := by
  have bits :
      toPolynomial Crc8.generator = X ^ 4 + X ^ 3 + X ^ 2 + 1 := by
    simp [toPolynomial, Finset.sum_range_succ, Crc8.generator]
    ring
  rw [ShiftRegister.modulus, bits]
  ring

/--
The bits of each checksum are the coefficients of the remainder of the
message, multiplied by `X ^ 16` or `X ^ 8`, by the generator polynomial.
-/
theorem simple_eq_remainder (data : List (BitVec 8)) :
    toPolynomial (crc16Simple data) =
        (messagePolynomial data * X ^ 16) %ₘ
          (X ^ 16 + X ^ 12 + X ^ 5 + 1) ∧
      toPolynomial (crc8Simple data) =
        (messagePolynomial data * X ^ 8) %ₘ
          (X ^ 8 + X ^ 4 + X ^ 3 + X ^ 2 + 1) := by
  constructor
  · rw [Crc16.crc16Simple_eq_checksum, ← modulus_crc16]
    exact ShiftRegister.toPolynomial_checksum _ (by decide) data
  · rw [Crc8.crc8Simple_eq_checksum, ← modulus_crc8]
    exact ShiftRegister.toPolynomial_checksum _ (by decide) data

/-- Bursts of up to 16 and of up to 8 bits change the two checksums. -/
theorem simple_ne_of_burst
    (left right : List (BitVec 8)) (sameLength : left.length = right.length)
    (different : left ≠ right) :
    (DifferWithin 16 left right → crc16Simple left ≠ crc16Simple right) ∧
      (DifferWithin 8 left right → crc8Simple left ≠ crc8Simple right) := by
  constructor
  · intro burst
    rw [Crc16.crc16Simple_eq_checksum, Crc16.crc16Simple_eq_checksum]
    exact
      BurstError.checksum_ne_of_burst (by decide) _ (by decide) sameLength
        different burst
  · intro burst
    rw [Crc8.crc8Simple_eq_checksum, Crc8.crc8Simple_eq_checksum]
    exact
      BurstError.checksum_ne_of_burst (by decide) _ (by decide) sameLength
        different burst

/-- A burst across a byte boundary. -/
theorem simple_ne_of_burst_straddling :
    crc16Simple [0x31, 0x32] ≠ crc16Simple [0x36, 0xd2] ∧
      crc8Simple [0x31, 0x32] ≠ crc8Simple [0x36, 0xd2] := by
  have sameLength :
      ([0x31, 0x32] : List (BitVec 8)).length =
        ([0x36, 0xd2] : List (BitVec 8)).length :=
    rfl
  have detected :=
    simple_ne_of_burst [0x31, 0x32] [0x36, 0xd2] sameLength (by decide)
  constructor
  · exact
      detected.1
        (BurstError.DifferWithin.of_forall_lt 5 sameLength (by decide))
  · exact
      detected.2
        (BurstError.DifferWithin.of_forall_lt 5 sameLength (by decide))

/-! ## Trailers -/

/-- A checksum as it is appended to a message: the high byte first. -/
def trailer (crc : BitVec 16) : List (BitVec 8) :=
  [(crc >>> 8).setWidth 8, crc.setWidth 8]

/-- Two bytes fill the register. -/
theorem placed_eq_iff (high low : BitVec 8) (crc : BitVec 16) :
    crc = Codeword.placed [high, low] ↔ [high, low] = trailer crc := by
  have filled : (Codeword.placed [high, low] : BitVec 16) = high ++ low := by
    apply BitVec.eq_of_getLsbD_eq
    intro index inside
    rw [BitVec.getLsbD_append]
    by_cases lower : index < 8
    · have upper : 8 + index < 16 := by
        omega
      simp [Codeword.placed, ShiftRegister.atTop, lower, upper]
    · have above : low.getLsbD index = false :=
        BitVec.getLsbD_of_ge low index (not_lt.mp lower)
      simp [Codeword.placed, ShiftRegister.atTop, lower, inside, above]
  rw [filled, trailer, List.cons.injEq, List.cons.injEq]
  constructor
  · intro same
    subst same
    refine ⟨?_, ?_, rfl⟩
    · apply BitVec.eq_of_getLsbD_eq
      intro index inside
      rw [BitVec.getLsbD_setWidth, BitVec.getLsbD_ushiftRight,
        BitVec.getLsbD_append]
      simp [inside]
    · apply BitVec.eq_of_getLsbD_eq
      intro index inside
      rw [BitVec.getLsbD_setWidth, BitVec.getLsbD_append]
      simp [inside]
  · rintro ⟨rfl, rfl, _⟩
    apply BitVec.eq_of_getLsbD_eq
    intro index inside
    rw [BitVec.getLsbD_append]
    by_cases lower : index < 8
    · simp [lower]
    · have upper : index - 8 < 8 := by
        omega
      simp [lower, upper, Nat.add_sub_cancel' (not_lt.mp lower)]

/--
A message with two more bytes leaves the register empty just if the bytes are
the checksum of the message, the high byte first.
-/
theorem crc16Simple_append_eq_zero_iff
    (data : List (BitVec 8)) (high low : BitVec 8) :
    crc16Simple (data ++ [high, low]) = 0 ↔
      [high, low] = trailer (crc16Simple data) := by
  rw [← placed_eq_iff, Crc16.crc16Simple_eq_checksum,
    Crc16.crc16Simple_eq_checksum]
  exact
    Codeword.checksum_append_eq_zero_iff Crc16.generator (by decide) data
      [high, low] (Nat.le_refl 16)

/-! ## Parity -/

/--
A message and its checksum have the same parity, so that messages of one
length that differ in an odd number of bits have different checksums.
-/
theorem crc16Simple_parity :
    (∀ data : List (BitVec 8),
      Parity.ones (crc16Simple data) % 2 = Parity.messageOnes data % 2) ∧
      ∀ left right : List (BitVec 8), left.length = right.length →
        Odd (Parity.distance left right) →
          crc16Simple left ≠ crc16Simple right := by
  have odd : Odd (Parity.ones Crc16.generator) := by
    decide
  constructor
  · intro data
    rw [Crc16.crc16Simple_eq_checksum]
    exact Parity.ones_checksum_mod_two _ (by decide) odd data
  · intro left right sameLength oddDistance
    rw [Crc16.crc16Simple_eq_checksum, Crc16.crc16Simple_eq_checksum]
    exact
      Parity.checksum_ne_of_odd_distance _ (by decide) odd sameLength
        oddDistance

/-- Three wrong bits in the first and in the last byte of a message. -/
theorem crc16Simple_parity_three_bits :
    crc16Simple [0x31, 0x32, 0x33] ≠ crc16Simple [0xb1, 0x32, 0x36] ∧
      Parity.ones (crc16Simple [0x31, 0x32, 0x33]) % 2 = 0 := by
  constructor
  · exact
      crc16Simple_parity.2 [0x31, 0x32, 0x33] [0xb1, 0x32, 0x36] rfl
        (by decide)
  · rw [crc16Simple_parity.1 [0x31, 0x32, 0x33]]
    decide

end CodingExamples.Crc.Checksums
