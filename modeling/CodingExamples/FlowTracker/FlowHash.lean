import CodingExamples.Crc.Crc16
import CodingExamples.FlowTracker.Table

/-!
# The checksum behind the flow hash

The kernel module does not generate its table: it was typed into a header.
Every entry of that table is the one which the checksum program generates,
so that the module computes the same checksum as the two loops of that
program.
-/

namespace CodingExamples.FlowTracker.FlowHash

open CodingExamples.Library
open CodingExamples.Crc
open CodingExamples.FlowTracker.CrcTable
open CodingExamples.FlowTracker.Table

/-- The typed entries are what eight shifts make of the bytes. -/
theorem toNat_crcHashTable :
    crcHashTable.toList.map BitVec.toNat =
      (List.range 256).map fun byte =>
        (ShiftRegister.stepNat Crc16.generator)^[8] (byte * 256) := by
  decide +kernel

/-- The typed table and the generated table have the same 256 entries. -/
theorem crcHashTable_eq_genLookuptable :
    crcHashTable = Crc16.genLookuptable := by
  apply Vector.ext
  intro byte inside
  have register :
      ((BitVec.ofNat 32 byte <<< 8).setWidth 16).toNat = byte * 256 := by
    rw [BitVec.toNat_setWidth, BitVec.toNat_shiftLeft, BitVec.toNat_ofNat,
      Nat.shiftLeft_eq]
    omega
  have typed := congrArg (·[byte]?) toNat_crcHashTable
  simp only [List.getElem?_map, List.getElem?_range inside,
    Vector.getElem?_toList, Vector.getElem?_eq_getElem inside,
    Option.map_some, Option.some_inj] at typed
  apply BitVec.eq_of_toNat_eq
  rw [typed, Crc16.genLookuptable, Vector.getElem_ofFn,
    Crc16.shiftBit_eq_step, ShiftRegister.toNat_iterate_step, register]

/-- The body of the loop over the bytes is the one of the table program. -/
theorem crc16_eq_crc16Lookuptable (data : List (BitVec 8)) :
    crc16 (some data) = Crc16.crc16Lookuptable crcHashTable data :=
  rfl

/-- The module's checksum is the one of both loops of the checksum program. -/
theorem crc16_eq_simple_and_lookuptable (data : List (BitVec 8)) :
    crc16 (some data) = Crc16.crc16Simple data ∧
      crc16 (some data) =
        Crc16.crc16Lookuptable Crc16.genLookuptable data := by
  have generated :
      crc16 (some data) =
        Crc16.crc16Lookuptable Crc16.genLookuptable data := by
    rw [crc16_eq_crc16Lookuptable, crcHashTable_eq_genLookuptable]
  constructor
  · rw [generated, Crc16.crc16Lookuptable_eq_checksum,
      Crc16.crc16Simple_eq_checksum]
  · exact generated

end CodingExamples.FlowTracker.FlowHash
