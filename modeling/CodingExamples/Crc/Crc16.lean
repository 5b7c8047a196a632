import CodingExamples.Library.ShiftRegister

/-!
# The 16-bit checksum program

`crc16_simple` shifts one bit at a time; `crc16_lookuptable` folds a whole
byte through a table that `gen_lookuptable` fills.  Bytes are bit vectors of
width 8, and the `unsigned short` register is a bit vector of width 16, so
that every assignment truncates as it does in the source.

The last section identifies the register with the generic feedback shift
register of the same generator.
-/

namespace CodingExamples.Crc.Crc16

open CodingExamples.Library

/-- `generator`. -/
def generator : BitVec 16 :=
  0x1021

/-- The body of both inner loops: shift, then add the generator if needed. -/
def shiftBit (crc : BitVec 16) : BitVec 16 :=
  let msb := crc &&& 0x8000
  let crc := crc <<< 1
  if msb ≠ 0 then
    crc ^^^ generator
  else
    crc

/-- The contents of `crc_table` after `gen_lookuptable`. -/
def genLookuptable : Vector (BitVec 16) 256 :=
  Vector.ofFn fun i =>
    shiftBit^[8] ((BitVec.ofNat 32 i <<< 8).setWidth 16)

/-- The loop body of `crc16_lookuptable`. -/
def lookupByte (crcTable : Vector (BitVec 16) 256)
    (crc : BitVec 16) (byte : BitVec 8) : BitVec 16 :=
  let pos := (crc >>> 8).setWidth 8 ^^^ byte
  (crc <<< 8) ^^^ crcTable[pos.toNat]

/-- `crc16_lookuptable(data, len)` over the given table. -/
def crc16Lookuptable (crcTable : Vector (BitVec 16) 256)
    (data : List (BitVec 8)) : BitVec 16 :=
  data.foldl (lookupByte crcTable) 0

/-- The loop body of `crc16_simple`. -/
def simpleByte (crc : BitVec 16) (byte : BitVec 8) : BitVec 16 :=
  shiftBit^[8] (crc ^^^ (byte.setWidth 16 <<< 8))

/-- `crc16_simple(data, len)`. -/
def crc16Simple (data : List (BitVec 8)) : BitVec 16 :=
  data.foldl simpleByte 0

/-! ## The feedback shift register -/

theorem shiftBit_eq_step : shiftBit = ShiftRegister.step generator := by
  funext crc
  rw [ShiftRegister.step_eq_mask generator (by decide)]
  rfl

theorem simpleByte_eq_feed : simpleByte = ShiftRegister.feed generator := by
  funext crc byte
  rw [simpleByte, shiftBit_eq_step]
  rfl

theorem crc16Simple_eq_checksum (data : List (BitVec 8)) :
    crc16Simple data = ShiftRegister.checksum generator data := by
  rw [crc16Simple, simpleByte_eq_feed]
  rfl

theorem getElem_genLookuptable (byte : BitVec 8) :
    genLookuptable[byte.toNat] = ShiftRegister.entry generator byte := by
  have widened :
      (BitVec.ofNat 32 byte.toNat <<< 8).setWidth 16 =
        byte.setWidth 16 <<< 8 := by
    apply BitVec.eq_of_toNat_eq
    have bound := byte.isLt
    simp [BitVec.toNat_shiftLeft, Nat.shiftLeft_eq]
  simp only [genLookuptable, Vector.getElem_ofFn, shiftBit_eq_step]
  exact congrArg (ShiftRegister.step generator)^[8] widened

theorem lookupByte_eq_feed :
    lookupByte genLookuptable = ShiftRegister.feed generator := by
  funext crc byte
  rw [lookupByte, getElem_genLookuptable,
    ShiftRegister.feed_eq_entry generator (by decide)]
  rfl

theorem crc16Lookuptable_eq_checksum (data : List (BitVec 8)) :
    crc16Lookuptable genLookuptable data =
      ShiftRegister.checksum generator data := by
  rw [crc16Lookuptable, lookupByte_eq_feed]
  rfl

end CodingExamples.Crc.Crc16
