import Mathlib.Algebra.Ring.Nat

/-!
# Numbers in memory

The bytes of an unsigned number of a fixed size, in either byte order, and
the number that they are read back as.
-/

namespace CodingExamples.Library

/-- Which byte of a number comes first in memory. -/
inductive ByteOrder where
  | little
  | big
deriving DecidableEq, Repr

namespace ByteOrder

/-- The bytes of a number, least significant first. -/
def littleBytes : Nat → Nat → List (BitVec 8)
  | 0, _ => []
  | count + 1, number =>
      BitVec.ofNat 8 number :: littleBytes count (number / 256)

/-- The number of a list of bytes, least significant first. -/
def ofLittleBytes : List (BitVec 8) → Nat
  | [] => 0
  | byte :: rest => byte.toNat + 256 * ofLittleBytes rest

/-- The memory of a number of `count` bytes. -/
def encode (order : ByteOrder) (count number : Nat) : List (BitVec 8) :=
  match order with
  | .little => littleBytes count number
  | .big => (littleBytes count number).reverse

/-- The number that some memory is read as. -/
def decode (order : ByteOrder) (bytes : List (BitVec 8)) : Nat :=
  match order with
  | .little => ofLittleBytes bytes
  | .big => ofLittleBytes bytes.reverse

@[simp]
theorem length_littleBytes (count number : Nat) :
    (littleBytes count number).length = count := by
  induction count generalizing number with
  | zero => rfl
  | succ count ih => simp [littleBytes, ih]

@[simp]
theorem length_encode (order : ByteOrder) (count number : Nat) :
    (order.encode count number).length = count := by
  cases order <;> simp [encode]

theorem ofLittleBytes_littleBytes (count number : Nat) :
    ofLittleBytes (littleBytes count number) = number % 256 ^ count := by
  induction count generalizing number with
  | zero => simp [littleBytes, ofLittleBytes, Nat.mod_one]
  | succ count ih =>
      rw [littleBytes, ofLittleBytes, ih, BitVec.toNat_ofNat]
      change number % 256 + 256 * (number / 256 % 256 ^ count) = _
      rw [Nat.pow_succ, Nat.mul_comm (256 ^ count) 256, Nat.mod_mul]

/-- Reading back a number gives it modulo its size. -/
theorem decode_encode (order : ByteOrder) (count number : Nat) :
    order.decode (order.encode count number) = number % 256 ^ count := by
  cases order with
  | little => exact ofLittleBytes_littleBytes count number
  | big =>
      rw [encode, decode, List.reverse_reverse]
      exact ofLittleBytes_littleBytes count number

theorem littleBytes_ofLittleBytes (bytes : List (BitVec 8)) :
    littleBytes bytes.length (ofLittleBytes bytes) = bytes := by
  induction bytes with
  | nil => rfl
  | cons byte rest ih =>
      have bound := byte.isLt
      have first :
          BitVec.ofNat 8 (byte.toNat + 256 * ofLittleBytes rest) = byte := by
        apply BitVec.eq_of_toNat_eq
        rw [BitVec.toNat_ofNat]
        omega
      have later :
          (byte.toNat + 256 * ofLittleBytes rest) / 256 =
            ofLittleBytes rest := by
        omega
      rw [List.length_cons, ofLittleBytes, littleBytes, first, later, ih]

theorem ofLittleBytes_lt (bytes : List (BitVec 8)) :
    ofLittleBytes bytes < 256 ^ bytes.length := by
  induction bytes with
  | nil => decide
  | cons byte rest ih =>
      have bound := byte.isLt
      rw [ofLittleBytes, List.length_cons, Nat.pow_succ]
      omega

/-- A number that was read has no more bytes than its memory. -/
theorem decode_lt (order : ByteOrder) (bytes : List (BitVec 8)) :
    order.decode bytes < 256 ^ bytes.length := by
  cases order with
  | little => exact ofLittleBytes_lt bytes
  | big =>
      rw [decode, ← List.length_reverse]
      exact ofLittleBytes_lt bytes.reverse

/-- Storing the number that some memory is read as restores the memory. -/
theorem encode_decode (order : ByteOrder) (bytes : List (BitVec 8)) :
    order.encode bytes.length (order.decode bytes) = bytes := by
  cases order with
  | little => exact littleBytes_ofLittleBytes bytes
  | big =>
      rw [encode, decode, ← List.length_reverse,
        littleBytes_ofLittleBytes, List.reverse_reverse]

/-- The same through a register that is as wide as the memory. -/
theorem encode_toNat_ofNat_decode
    (order : ByteOrder) {bytes : List (BitVec 8)} {count width : Nat}
    (length : bytes.length = count) (whole : 2 ^ width = 256 ^ count) :
    order.encode count (BitVec.ofNat width (order.decode bytes)).toNat =
      bytes := by
  have small := order.decode_lt bytes
  rw [length, ← whole] at small
  have restored := order.encode_decode bytes
  rw [length] at restored
  rw [BitVec.toNat_ofNat, Nat.mod_eq_of_lt small, restored]

/-- The bytes of a number of two bytes. -/
theorem big_encode_two (number : Nat) :
    big.encode 2 number =
      [BitVec.ofNat 8 (number / 256), BitVec.ofNat 8 number] :=
  rfl

end ByteOrder

end CodingExamples.Library
