import CodingExamples.Crc.Checksums
import CodingExamples.Library.CollisionDistance

/-!
# The distance of both checksums

The generator of `crc16_simple` has period 32767, and that of `crc8_simple`
period 255.  Two wrong bits go unnoticed just if their distance is a multiple
of the period, and the smallest number of wrong bits that can go unnoticed is
known for every length of the message.
-/

namespace CodingExamples.Crc.Distance

open CodingExamples.Library
open CodingExamples.Library.BurstError (bitAt)
open CodingExamples.Library.CollisionDistance
open CodingExamples.Crc.Crc16 (crc16Simple)
open CodingExamples.Crc.Crc8 (crc8Simple)

theorem crc16Simple_eq : crc16Simple = ShiftRegister.checksum Crc16.generator :=
  funext Crc16.crc16Simple_eq_checksum

theorem crc8Simple_eq : crc8Simple = ShiftRegister.checksum Crc8.generator :=
  funext Crc8.crc8Simple_eq_checksum

/-! ## The periods -/

theorem period_crc16 : RegisterPeriod.period Crc16.generator = 32767 := by
  apply RegisterPeriod.period_eq Crc16.generator (by decide) 16 (by decide)
    (by decide) (by decide +kernel)
  intro prime isPrime divides
  have factors : prime ∣ 7 * 31 * 151 :=
    divides
  rw [isPrime.dvd_mul, isPrime.dvd_mul,
    Nat.prime_dvd_prime_iff_eq isPrime (by norm_num),
    Nat.prime_dvd_prime_iff_eq isPrime (by norm_num),
    Nat.prime_dvd_prime_iff_eq isPrime (by norm_num)] at factors
  rcases factors with (rfl | rfl) | rfl <;> decide +kernel

theorem period_crc8 : RegisterPeriod.period Crc8.generator = 255 := by
  apply RegisterPeriod.period_eq Crc8.generator (by decide) 8 (by decide)
    (by decide) (by decide +kernel)
  intro prime isPrime divides
  have factors : prime ∣ 3 * 5 * 17 :=
    divides
  rw [isPrime.dvd_mul, isPrime.dvd_mul,
    Nat.prime_dvd_prime_iff_eq isPrime (by norm_num),
    Nat.prime_dvd_prime_iff_eq isPrime (by norm_num),
    Nat.prime_dvd_prime_iff_eq isPrime (by norm_num)] at factors
  rcases factors with (rfl | rfl) | rfl <;> decide +kernel

/-! ## Two wrong bits -/

/--
Messages of one length that differ in exactly two bits have one checksum just
if the period of the generator divides the distance of the bits.
-/
theorem simple_eq_iff_of_two_bits
    (left right : List (BitVec 8)) (sameLength : left.length = right.length)
    (first second : Nat) (order : first < second)
    (twoBits :
      ∀ position,
        bitAt left position ≠ bitAt right position ↔
          position = first ∨ position = second) :
    (crc16Simple left = crc16Simple right ↔ 32767 ∣ second - first) ∧
      (crc8Simple left = crc8Simple right ↔ 255 ∣ second - first) := by
  have positions :=
    ErrorPositions.differences_eq_pair sameLength twoBits
  rw [crc16Simple_eq, crc8Simple_eq, ← period_crc16, ← period_crc8]
  exact
    ⟨ErrorPositions.checksum_eq_iff_of_pair _ (by decide) (by decide)
        sameLength order positions,
      ErrorPositions.checksum_eq_iff_of_pair _ (by decide) (by decide)
        sameLength order positions⟩

/-- Two wrong bits on both sides of a byte boundary. -/
theorem simple_ne_of_two_bits :
    crc16Simple [0x31, 0x32] ≠ crc16Simple [0x21, 0x72] ∧
      crc8Simple [0x31, 0x32] ≠ crc8Simple [0x21, 0x72] := by
  have twoBits (position : Nat) :
      bitAt [0x31, 0x32] position ≠ bitAt [0x21, 0x72] position ↔
        position = 3 ∨ position = 9 := by
    by_cases inside : position < 16
    · revert position
      decide
    · rw [BurstError.bitAt_of_length_le _ (not_lt.mp inside),
        BurstError.bitAt_of_length_le _ (not_lt.mp inside)]
      simp only [ne_eq, not_true_eq_false, false_iff, not_or]
      omega
  have detected :=
    simple_eq_iff_of_two_bits [0x31, 0x32] [0x21, 0x72] rfl 3 9 (by decide)
      twoBits
  rw [ne_eq, ne_eq, detected.1, detected.2]
  decide

/-! ## The smallest number of wrong bits -/

theorem two_mem_crc16_iff (length : Nat) :
    2 ∈ collisionDistances crc16Simple length ↔ 4096 ≤ length := by
  rw [crc16Simple_eq,
    two_mem_collisionDistances_iff _ (by decide) (by decide)
      (by rw [period_crc16]; decide),
    period_crc16]
  omega

theorem two_mem_crc8_iff (length : Nat) :
    2 ∈ collisionDistances crc8Simple length ↔ 32 ≤ length := by
  rw [crc8Simple_eq,
    two_mem_collisionDistances_iff _ (by decide) (by decide)
      (by rw [period_crc8]; decide),
    period_crc8]
  omega

/-- Parity excludes three wrong bits. -/
theorem three_not_mem_crc16 (length : Nat) :
    3 ∉ collisionDistances crc16Simple length := by
  rintro ⟨left, right, rfl, sameLength, _, same, three⟩
  have odd : Odd (Parity.distance left right) := by
    rw [three]
    decide
  rw [crc16Simple_eq] at same
  exact
    Parity.checksum_ne_of_odd_distance Crc16.generator (by decide) (by decide)
      sameLength.symm odd same

/-- The shortest pattern of three wrong bits has 22 bits. -/
theorem three_mem_crc8_iff (length : Nat) :
    3 ∈ collisionDistances crc8Simple length ↔ 3 ≤ length := by
  rw [crc8Simple_eq,
    three_mem_collisionDistances_iff _ (by decide) (by decide)]
  constructor
  · rintro ⟨far, farInside, near, nearInside, nodup, empty⟩
    by_contra short
    have detected :
        ∀ far < 16, ∀ near < 16, [0, far, near].Nodup →
          ErrorPositions.syndrome Crc8.generator [0, far, near] ≠ 0 := by
      decide +kernel
    exact detected far (by omega) near (by omega) nodup empty
  · intro long
    exact ⟨21, by omega, 10, by omega, by decide, by decide +kernel⟩

/-- The generator polynomial itself is a pattern of four wrong bits. -/
theorem four_mem_crc16_iff (length : Nat) :
    4 ∈ collisionDistances crc16Simple length ↔ 3 ≤ length := by
  rw [crc16Simple_eq]
  constructor
  · intro member
    by_contra short
    rw [collisionDistances_eq_empty _ (by decide) (by decide) (by omega)]
      at member
    exact member
  · intro long
    rw [mem_collisionDistances_iff _ (by decide) (by decide)]
    refine ⟨[5, 12, 16], rfl, by decide, ?_, by decide⟩
    intro offset listed
    have bound : offset ≤ 16 := by
      revert offset
      decide
    omega

/-- Four wrong bits fit in two bytes. -/
theorem four_mem_crc8_iff (length : Nat) :
    4 ∈ collisionDistances crc8Simple length ↔ 2 ≤ length := by
  rw [crc8Simple_eq]
  constructor
  · intro member
    by_contra short
    rw [collisionDistances_eq_empty _ (by decide) (by decide) (by omega)]
      at member
    exact member
  · intro long
    rw [mem_collisionDistances_iff _ (by decide) (by decide)]
    refine ⟨[1, 4, 14], rfl, by decide, ?_, by decide⟩
    intro offset listed
    have bound : offset ≤ 14 := by
      revert offset
      decide
    omega

theorem two_le_of_mem_crc16
    {length distance : Nat}
    (member : distance ∈ collisionDistances crc16Simple length) :
    2 ≤ distance := by
  rw [crc16Simple_eq] at member
  exact two_le_of_mem_collisionDistances _ (by decide) (by decide) member

theorem two_le_of_mem_crc8
    {length distance : Nat}
    (member : distance ∈ collisionDistances crc8Simple length) :
    2 ≤ distance := by
  rw [crc8Simple_eq] at member
  exact two_le_of_mem_collisionDistances _ (by decide) (by decide) member

section Least

variable {distances : Set Nat} (atLeast : ∀ distance ∈ distances, 2 ≤ distance)

include atLeast

theorem isLeast_two_iff : IsLeast distances 2 ↔ 2 ∈ distances :=
  ⟨fun least => least.1, fun member => ⟨member, atLeast⟩⟩

theorem isLeast_three_iff :
    IsLeast distances 3 ↔ 3 ∈ distances ∧ 2 ∉ distances := by
  constructor
  · intro least
    exact ⟨least.1, fun member => absurd (least.2 member) (by decide)⟩
  · rintro ⟨three, two⟩
    refine ⟨three, fun distance member => ?_⟩
    have bound := atLeast distance member
    have other : distance ≠ 2 := by
      rintro rfl
      exact two member
    omega

theorem isLeast_four_iff :
    IsLeast distances 4 ↔ 4 ∈ distances ∧ 3 ∉ distances ∧ 2 ∉ distances := by
  constructor
  · intro least
    exact
      ⟨least.1, fun member => absurd (least.2 member) (by decide),
        fun member => absurd (least.2 member) (by decide)⟩
  · rintro ⟨four, three, two⟩
    refine ⟨four, fun distance member => ?_⟩
    have bound := atLeast distance member
    have notTwo : distance ≠ 2 := by
      rintro rfl
      exact two member
    have notThree : distance ≠ 3 := by
      rintro rfl
      exact three member
    omega

end Least

/--
With `crc16_simple`, messages of one or two bytes never collide; from three to
4095 bytes a collision takes four wrong bits, and from 4096 bytes on two are
enough.  With `crc8_simple` the lengths are one byte, two bytes for four wrong
bits, three to 31 bytes for three wrong bits, and 32 bytes for two.
-/
theorem simple_smallest_collision (length : Nat) :
    ((IsLeast (collisionDistances crc16Simple length) 4 ↔
        3 ≤ length ∧ length ≤ 4095) ∧
      (IsLeast (collisionDistances crc16Simple length) 2 ↔ 4096 ≤ length) ∧
      (collisionDistances crc16Simple length = ∅ ↔ length ≤ 2)) ∧
      (IsLeast (collisionDistances crc8Simple length) 4 ↔ length = 2) ∧
      (IsLeast (collisionDistances crc8Simple length) 3 ↔
        3 ≤ length ∧ length ≤ 31) ∧
      (IsLeast (collisionDistances crc8Simple length) 2 ↔ 32 ≤ length) ∧
      (collisionDistances crc8Simple length = ∅ ↔ length ≤ 1) := by
  have atLeast16 (distance : Nat) :
      distance ∈ collisionDistances crc16Simple length → 2 ≤ distance :=
    two_le_of_mem_crc16
  have atLeast8 (distance : Nat) :
      distance ∈ collisionDistances crc8Simple length → 2 ≤ distance :=
    two_le_of_mem_crc8
  rw [isLeast_four_iff atLeast16, isLeast_two_iff atLeast16,
    isLeast_four_iff atLeast8, isLeast_three_iff atLeast8,
    isLeast_two_iff atLeast8, two_mem_crc16_iff, four_mem_crc16_iff,
    two_mem_crc8_iff, three_mem_crc8_iff, four_mem_crc8_iff]
  refine ⟨⟨?_, Iff.rfl, ?_⟩, by omega, by omega, Iff.rfl, ?_⟩
  · have parity := three_not_mem_crc16 length
    constructor
    · rintro ⟨long, _, short⟩
      omega
    · rintro ⟨long, short⟩
      exact ⟨long, parity, by omega⟩
  · constructor
    · intro empty
      have four := four_mem_crc16_iff length
      rw [empty] at four
      by_contra long
      exact four.mpr (by omega)
    · intro short
      rw [crc16Simple_eq]
      exact collisionDistances_eq_empty _ (by decide) (by decide) (by omega)
  · constructor
    · intro empty
      have four := four_mem_crc8_iff length
      rw [empty] at four
      by_contra long
      exact four.mpr (by omega)
    · intro short
      rw [crc8Simple_eq]
      exact collisionDistances_eq_empty _ (by decide) (by decide) (by omega)

end CodingExamples.Crc.Distance
