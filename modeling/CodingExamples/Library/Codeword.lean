import CodingExamples.Library.ShiftRegister

/-!
# Codewords

A message followed by a trailer that fits in the register is a codeword when
it leaves the register empty.  If the generator has a constant term, no bit
is lost by a step: the register can be run backwards, and for each message
there is exactly one trailer of each length up to the width of the register
that could make it a codeword, namely the contents of the register.
-/

namespace CodingExamples.Library.Codeword

open CodingExamples.Library.ShiftRegister

variable {width : Nat} (generator : BitVec width)

/-! ## Running backwards -/

theorem step_zero :
    step generator (BitVec.ofNat width 0) = BitVec.ofNat width 0 := by
  simp [step]

theorem iterate_step_zero (count : Nat) :
    (step generator)^[count] (BitVec.ofNat width 0) = BitVec.ofNat width 0 := by
  induction count with
  | zero => rfl
  | succ count ih => rw [Function.iterate_succ_apply, step_zero, ih]

/-- The constant term of the generator tells whether a bit has left. -/
theorem getLsbD_step_zero
    (constantTerm : generator.getLsbD 0 = true) (register : BitVec width) :
    (step generator register).getLsbD 0 = register.msb := by
  rw [step]
  cases leaving : register.msb <;> simp [constantTerm]

/-- Only the empty register steps to the empty register. -/
theorem eq_zero_of_step
    (constantTerm : generator.getLsbD 0 = true) {register : BitVec width}
    (empty : step generator register = BitVec.ofNat width 0) :
    register = BitVec.ofNat width 0 := by
  have leaving : register.msb = false := by
    rw [← getLsbD_step_zero generator constantTerm, empty]
    simp
  have shifted : register <<< 1 = BitVec.ofNat width 0 := by
    rw [step, leaving] at empty
    exact empty
  apply BitVec.eq_of_getLsbD_eq
  intro index inside
  rw [BitVec.getLsbD_zero]
  by_cases last : index + 1 < width
  · have moved := congrArg (fun bits => bits.getLsbD (index + 1)) shifted
    simpa [last, BitVec.getLsbD_eq_getElem inside] using moved
  · have position : index = width - 1 := by
      omega
    rw [position, ← BitVec.msb_eq_getLsbD_last]
    exact leaving

theorem step_injective (constantTerm : generator.getLsbD 0 = true) :
    Function.Injective (step generator) := by
  intro left right same
  have difference :
      step generator (left ^^^ right) = BitVec.ofNat width 0 := by
    rw [step_xor, same, BitVec.xor_self]
  have equal := eq_zero_of_step generator constantTerm difference
  exact BitVec.xor_eq_zero_iff.mp equal

/-! ## Trailers -/

/-- The register with the bytes of a trailer in place, the first one on top. -/
def placed : List (BitVec 8) → BitVec width
  | [] => BitVec.ofNat width 0
  | byte :: rest => atTop byte ^^^ (placed rest >>> 8)

/-- Below its trailer, the register is empty. -/
theorem getLsbD_placed
    (trailer : List (BitVec 8)) {index : Nat}
    (below : index + 8 * trailer.length < width) :
    (placed trailer : BitVec width).getLsbD index = false := by
  induction trailer generalizing index with
  | nil => simp [placed]
  | cons byte rest ih =>
      rw [List.length_cons] at below
      have shallow : index < width - 8 := by
        omega
      have deeper :
          (placed rest : BitVec width).getLsbD (8 + index) = false :=
        ih (by omega)
      rw [placed, BitVec.getLsbD_xor, BitVec.getLsbD_ushiftRight, deeper,
        atTop, BitVec.getLsbD_shiftLeft]
      simp [shallow]

/-- A trailer that is one byte lower comes back after eight steps. -/
theorem iterate_step_placed
    (trailer : List (BitVec 8)) (fits : 8 * trailer.length + 8 ≤ width) :
    (step generator)^[8] (placed trailer >>> 8) = placed trailer := by
  have clear :
      ∀ index < 8,
        ((placed trailer : BitVec width) >>> 8).getMsbD index = false := by
    intro index bound
    rw [BitVec.getMsbD_ushiftRight]
    simp [bound]
  rw [iterate_step_of_clear generator 8 _ clear]
  apply BitVec.eq_of_getLsbD_eq
  intro index inside
  rw [BitVec.getLsbD_shiftLeft, BitVec.getLsbD_ushiftRight]
  by_cases low : index < 8
  · have below : index + 8 * trailer.length < width := by
      omega
    rw [getLsbD_placed trailer below]
    simp [low]
  · rw [Nat.add_sub_cancel' (not_lt.mp low)]
    simp [inside, low]

/-- Feeding a trailer adds it to the register and shifts all of it out. -/
theorem foldl_feed
    (trailer : List (BitVec 8)) (fits : 8 * trailer.length ≤ width)
    (register : BitVec width) :
    trailer.foldl (feed generator) register =
      (step generator)^[8 * trailer.length] (register ^^^ placed trailer) := by
  induction trailer generalizing register with
  | nil => simp [placed]
  | cons byte rest ih =>
      rw [List.length_cons] at fits
      have returned := iterate_step_placed generator rest (by omega)
      have gathered :
          feed generator register byte ^^^ placed rest =
            (step generator)^[8] (register ^^^ placed (byte :: rest)) := by
        rw [placed, ← BitVec.xor_assoc, iterate_step_xor, returned, feed]
      rw [List.foldl_cons, ih (by omega), gathered,
        ← Function.iterate_add_apply, List.length_cons, Nat.mul_succ]

/-- A trailer completes a codeword just if it is what the register holds. -/
theorem checksum_append_eq_zero_iff
    (constantTerm : generator.getLsbD 0 = true)
    (data trailer : List (BitVec 8)) (fits : 8 * trailer.length ≤ width) :
    checksum generator (data ++ trailer) = BitVec.ofNat width 0 ↔
      checksum generator data = placed trailer := by
  have split :
      checksum generator (data ++ trailer) =
        (step generator)^[8 * trailer.length]
          (checksum generator data ^^^ placed trailer) := by
    rw [checksum, List.foldl_append]
    exact foldl_feed generator trailer fits _
  rw [split]
  constructor
  · intro empty
    have backwards :=
      (step_injective generator constantTerm).iterate (8 * trailer.length)
    rw [← iterate_step_zero generator (8 * trailer.length)] at empty
    exact BitVec.xor_eq_zero_iff.mp (backwards empty)
  · intro same
    rw [same, BitVec.xor_self, iterate_step_zero]

end CodingExamples.Library.Codeword
