import CodingExamples.Library.BinaryPolynomial

/-!
# Feedback shift registers and polynomial division

A register of `width` bits is shifted to the left; when the bit that leaves it
is set, the generator is added.  The register is linear over exclusive or, so
that eight steps on a whole byte split into a table entry for the byte that
leaves and a plain shift of the rest.

Read as a polynomial, one step is multiplication by `X` modulo the generator
polynomial with its implicit leading term.  A register that has been fed a
message therefore holds the remainder of the message times `X ^ width`.
-/

namespace CodingExamples.Library.ShiftRegister

open Polynomial
open CodingExamples.Library.BinaryPolynomial

variable {width : Nat} (generator : BitVec width)

/-- Shift once, adding the generator if the bit that leaves is set. -/
def step (register : BitVec width) : BitVec width :=
  if register.msb then
    (register <<< 1) ^^^ generator
  else
    register <<< 1

/-- Programs test the bit that leaves with a mask. -/
theorem step_eq_mask (positive : 0 < width) (register : BitVec width) :
    step generator register =
      if register &&& BitVec.twoPow width (width - 1) ≠ 0 then
        (register <<< 1) ^^^ generator
      else
        register <<< 1 := by
  have nonzero : BitVec.twoPow width (width - 1) ≠ BitVec.ofNat width 0 := by
    intro equal
    have bit := congrArg (fun bits => bits.getLsbD (width - 1)) equal
    simp [positive] at bit
  rw [step, BitVec.and_twoPow, BitVec.msb_eq_getLsbD_last]
  cases register.getLsbD (width - 1) <;> simp [nonzero]

/-- One step on the number that a register holds. -/
def stepNat (number : Nat) : Nat :=
  if number < 2 ^ (width - 1) then
    2 * number % 2 ^ width
  else
    2 * number % 2 ^ width ^^^ generator.toNat

theorem toNat_step (register : BitVec width) :
    (step generator register).toNat = stepNat generator register.toNat := by
  have doubled :
      (register <<< 1).toNat = 2 * register.toNat % 2 ^ width := by
    rw [BitVec.toNat_shiftLeft, Nat.shiftLeft_eq, pow_one, Nat.mul_comm]
  rw [step, stepNat, BitVec.msb_eq_decide]
  by_cases below : register.toNat < 2 ^ (width - 1)
  · rw [if_pos below]
    simp [not_le.mpr below, doubled]
  · rw [if_neg below]
    simp [not_lt.mp below, doubled, BitVec.toNat_xor]

/-- Steps can be computed on numbers. -/
theorem toNat_iterate_step (count : Nat) (register : BitVec width) :
    ((step generator)^[count] register).toNat =
      (stepNat generator)^[count] register.toNat :=
  Function.Semiconj.iterate_right (toNat_step generator) count register

/-- Place a byte at the most significant end. -/
def atTop (byte : BitVec 8) : BitVec width :=
  byte.setWidth width <<< (width - 8)

/-- Add a byte at the top of the register and shift it out. -/
def feed (register : BitVec width) (byte : BitVec 8) : BitVec width :=
  (step generator)^[8] (register ^^^ atTop byte)

/-- The register after a message, starting from zero. -/
def checksum (data : List (BitVec 8)) : BitVec width :=
  data.foldl (feed generator) (BitVec.ofNat width 0)

/-! ## Linearity -/

theorem step_xor (left right : BitVec width) :
    step generator (left ^^^ right) =
      step generator left ^^^ step generator right := by
  rw [step, step, step, BitVec.msb_xor, BitVec.shiftLeft_xor_distrib]
  cases left.msb <;> cases right.msb
  · simp
  · simp [BitVec.xor_assoc]
  · simp only [Bool.xor_false, if_true, Bool.false_eq_true, if_false]
    rw [BitVec.xor_assoc, BitVec.xor_assoc,
      BitVec.xor_comm (right <<< 1) generator]
  · simp only [Bool.xor_self, Bool.false_eq_true, if_false, if_true]
    rw [BitVec.xor_assoc, ← BitVec.xor_assoc generator,
      BitVec.xor_comm generator (right <<< 1), BitVec.xor_assoc,
      BitVec.xor_self, BitVec.xor_zero]

theorem iterate_step_xor (count : Nat) (left right : BitVec width) :
    (step generator)^[count] (left ^^^ right) =
      (step generator)^[count] left ^^^
        (step generator)^[count] right := by
  induction count generalizing left right with
  | zero => rfl
  | succ count ih =>
      rw [Function.iterate_succ_apply, Function.iterate_succ_apply,
        Function.iterate_succ_apply, step_xor, ih]

/-- While the bits that leave are clear, the register is only shifted. -/
theorem iterate_step_of_clear
    (count : Nat) (register : BitVec width)
    (clear :
      ∀ index < count, register.getMsbD index = false) :
    (step generator)^[count] register = register <<< count := by
  induction count with
  | zero => simp
  | succ count ih =>
      have shifted :=
        ih (fun index bound => clear index (Nat.lt_succ_of_lt bound))
      have msbClear : (register <<< count).msb = false := by
        rw [BitVec.msb, BitVec.getMsbD_shiftLeft, Nat.zero_add]
        exact clear count (Nat.lt_succ_self count)
      rw [Function.iterate_succ_apply', shifted, step, msbClear]
      simp [BitVec.shiftLeft_add]

/-! ## Tables -/

/-- The table entry of a byte. -/
def entry (byte : BitVec 8) : BitVec width :=
  (step generator)^[8] (atTop byte)

/-- The byte at the most significant end of the register. -/
def top (register : BitVec width) : BitVec 8 :=
  (register >>> (width - 8)).setWidth 8

theorem getMsbD_xor_top
    (wide : 8 ≤ width) (register : BitVec width)
    {index : Nat} (bound : index < 8) :
    (register ^^^ atTop (top register)).getMsbD index = false := by
  have inside : index < width := by omega
  have position : width - 1 - index < width := by omega
  have above : ¬ width - 1 - index < width - 8 := by omega
  have offset :
      width - 8 + (width - 1 - index - (width - 8)) = width - 1 - index := by
    omega
  have short : width - 1 - index - (width - 8) < 8 := by omega
  have shortWidth : width - 1 - index - (width - 8) < width := by omega
  simp [atTop, top, BitVec.getMsbD_eq_getLsbD, inside,
    position, above, offset, short, shortWidth]

/-- Shifting a whole byte out of a vector that holds only that byte. -/
theorem atTop_shiftLeft_eight (wide : 8 ≤ width) (byte : BitVec 8) :
    (atTop byte : BitVec width) <<< 8 = BitVec.ofNat width 0 := by
  apply BitVec.eq_of_getLsbD_eq
  intro index inside
  rw [atTop, ← BitVec.shiftLeft_add, BitVec.getLsbD_shiftLeft]
  have low : index < width - 8 + 8 := by omega
  simp [low]

theorem atTop_xor (left right : BitVec 8) :
    (atTop (left ^^^ right) : BitVec width) = atTop left ^^^ atTop right := by
  rw [atTop, BitVec.setWidth_xor, BitVec.shiftLeft_xor_distrib]
  rfl

/--
Feeding a byte is one table lookup: the entry of the byte that leaves, added
to the rest of the register moved up by eight places.
-/
theorem feed_eq_entry
    (wide : 8 ≤ width) (register : BitVec width) (byte : BitVec 8) :
    feed generator register byte =
      (register <<< 8) ^^^ entry generator (top register ^^^ byte) := by
  have rest :
      (step generator)^[8] (register ^^^ atTop (top register)) =
        register <<< 8 := by
    rw [iterate_step_of_clear generator 8 _
        (fun index bound => getMsbD_xor_top wide register bound),
      BitVec.shiftLeft_xor_distrib, atTop_shiftLeft_eight wide,
      BitVec.xor_zero]
  have split :
      register ^^^ atTop byte =
        (register ^^^ atTop (top register)) ^^^
          atTop (top register ^^^ byte) := by
    rw [atTop_xor, BitVec.xor_assoc, ← BitVec.xor_assoc (atTop _),
      BitVec.xor_self, BitVec.zero_xor]
  rw [feed, split, iterate_step_xor, rest]
  rfl

/-! ## Polynomial division -/

noncomputable section

/-- The generator polynomial with its implicit leading term. -/
def modulus : (ZMod 2)[X] :=
  X ^ width + toPolynomial generator

theorem modulus_monic : (modulus generator).Monic :=
  monic_X_pow_add (degree_toPolynomial_lt generator)

theorem degree_modulus : (modulus generator).degree = width := by
  rw [modulus, degree_add_eq_left_of_degree_lt, degree_X_pow]
  rw [degree_X_pow]
  exact degree_toPolynomial_lt generator

/-- The class of a polynomial modulo the generator polynomial. -/
abbrev residue : (ZMod 2)[X] →+* AdjoinRoot (modulus generator) :=
  AdjoinRoot.mk (modulus generator)

theorem residue_X_pow_width :
    residue generator (X ^ width) =
      residue generator (toPolynomial generator) := by
  rw [residue, AdjoinRoot.mk_eq_mk, CharTwo.sub_eq_add]
  exact dvd_rfl

/-- One step multiplies by `X` modulo the generator polynomial. -/
theorem residue_step (register : BitVec width) :
    residue generator (toPolynomial (step generator register)) =
      residue generator (X * toPolynomial register) := by
  rw [← toPolynomial_shiftLeft_one, step]
  cases register.msb with
  | false => simp
  | true =>
      rw [if_pos rfl, toPolynomial_xor, coefficient_true, C_1, one_mul,
        map_add, map_add, residue_X_pow_width]

theorem residue_iterate_step (count : Nat) (register : BitVec width) :
    residue generator (toPolynomial ((step generator)^[count] register)) =
      residue generator (toPolynomial register * X ^ count) := by
  induction count with
  | zero => simp
  | succ count ih =>
      rw [Function.iterate_succ_apply', residue_step, map_mul, ih,
        ← map_mul]
      congr 1
      ring

/-- Feeding a byte appends it to a message that is already multiplied. -/
theorem residue_feed
    (wide : 8 ≤ width) (register : BitVec width) (byte : BitVec 8) :
    residue generator (toPolynomial (feed generator register byte)) =
      residue generator
        (toPolynomial register * X ^ 8 + toPolynomial byte * X ^ width) := by
  have fits : 8 + (width - 8) ≤ width := by omega
  have power :
      (X : (ZMod 2)[X]) ^ width = X ^ (width - 8) * X ^ 8 := by
    rw [← pow_add, Nat.sub_add_cancel wide]
  rw [feed, residue_iterate_step, toPolynomial_xor, atTop,
    toPolynomial_shiftLeft_setWidth byte fits, power]
  congr 1
  ring

/-- The register after a message is congruent to the shifted message. -/
theorem residue_checksum (wide : 8 ≤ width) (data : List (BitVec 8)) :
    residue generator (toPolynomial (checksum generator data)) =
      residue generator (messagePolynomial data * X ^ width) := by
  induction data using List.reverseRecOn with
  | nil => simp [checksum]
  | append_singleton data byte ih =>
      have fed :
          checksum generator (data ++ [byte]) =
            feed generator (checksum generator data) byte := by
        rw [checksum, List.foldl_append]
        rfl
      rw [fed, residue_feed generator wide,
        messagePolynomial_append_singleton, map_add, map_mul, ih,
        ← map_mul, ← map_add]
      congr 1
      ring

/-- The register after a message holds the remainder of the division. -/
theorem toPolynomial_checksum (wide : 8 ≤ width) (data : List (BitVec 8)) :
    toPolynomial (checksum generator data) =
      (messagePolynomial data * X ^ width) %ₘ modulus generator := by
  have reduced :
      toPolynomial (checksum generator data) %ₘ modulus generator =
        toPolynomial (checksum generator data) := by
    rw [modByMonic_eq_self_iff (modulus_monic generator), degree_modulus]
    exact degree_toPolynomial_lt _
  rw [← reduced]
  apply modByMonic_eq_of_dvd_sub (modulus_monic generator)
  rw [← AdjoinRoot.mk_eq_mk]
  exact residue_checksum generator wide data

end

end CodingExamples.Library.ShiftRegister
