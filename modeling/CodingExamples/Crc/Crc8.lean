import CodingExamples.Library.ShiftRegister

/-!
# The 8-bit checksum program

The register is one byte wide, so a byte fills it: the table program reads
the next register from the table at once, and its table is indexed by the
register itself.
-/

namespace CodingExamples.Crc.Crc8

open CodingExamples.Library

/-- `generator`. -/
def generator : BitVec 8 :=
  0x1d

/-- The body of both inner loops: shift, then add the generator if needed. -/
def shiftBit (crc : BitVec 8) : BitVec 8 :=
  let msb := crc &&& 0x80
  let crc := crc <<< 1
  if msb ≠ 0 then
    crc ^^^ generator
  else
    crc

/-- The contents of `crc_table` after `gen_lookuptable`. -/
def genLookuptable : Vector (BitVec 8) 256 :=
  Vector.ofFn fun i => shiftBit^[8] ((BitVec.ofNat 32 i).setWidth 8)

/-- The loop body of `crc8_lookuptable`. -/
def lookupByte (crcTable : Vector (BitVec 8) 256)
    (crc : BitVec 8) (byte : BitVec 8) : BitVec 8 :=
  let crc := crc ^^^ byte
  crcTable[crc.toNat]

/-- `crc8_lookuptable(data, len)` over the given table. -/
def crc8Lookuptable (crcTable : Vector (BitVec 8) 256)
    (data : List (BitVec 8)) : BitVec 8 :=
  data.foldl (lookupByte crcTable) 0

/-- The loop body of `crc8_simple`. -/
def simpleByte (crc : BitVec 8) (byte : BitVec 8) : BitVec 8 :=
  shiftBit^[8] (crc ^^^ byte)

/-- `crc8_simple(data, len)`. -/
def crc8Simple (data : List (BitVec 8)) : BitVec 8 :=
  data.foldl simpleByte 0

/-! ## The feedback shift register -/

theorem shiftBit_eq_step : shiftBit = ShiftRegister.step generator := by
  funext crc
  rw [ShiftRegister.step_eq_mask generator (by decide)]
  rfl

/-- A register of one byte has no room below its top byte. -/
theorem atTop_eq (byte : BitVec 8) : ShiftRegister.atTop byte = byte := by
  simp [ShiftRegister.atTop]

theorem simpleByte_eq_feed : simpleByte = ShiftRegister.feed generator := by
  funext crc byte
  rw [simpleByte, ShiftRegister.feed, shiftBit_eq_step, atTop_eq]

theorem crc8Simple_eq_checksum (data : List (BitVec 8)) :
    crc8Simple data = ShiftRegister.checksum generator data := by
  rw [crc8Simple, simpleByte_eq_feed]
  rfl

theorem lookupByte_eq_feed :
    lookupByte genLookuptable = ShiftRegister.feed generator := by
  funext crc byte
  simp only [lookupByte, genLookuptable, Vector.getElem_ofFn,
    shiftBit_eq_step, ShiftRegister.feed, atTop_eq]
  congr 1
  simp

theorem crc8Lookuptable_eq_checksum (data : List (BitVec 8)) :
    crc8Lookuptable genLookuptable data =
      ShiftRegister.checksum generator data := by
  rw [crc8Lookuptable, lookupByte_eq_feed]
  rfl

end CodingExamples.Crc.Crc8
