import Mathlib.Algebra.Order.Ring.Nat

/-!
# Counters in words

A counter that stays below a word has the same value in a word as it has as a
number.  A loop that compares it with the predecessor of its bound therefore
goes on as long as there is one more behind the counter.
-/

namespace CodingExamples.Library.MachineCounter

variable {w count : Nat} {bound : BitVec w}

theorem toNat_ofNat_of_lt (short : count < bound.toNat) :
    (BitVec.ofNat w count).toNat = count := by
  rw [BitVec.toNat_ofNat]
  exact Nat.mod_eq_of_lt (Nat.lt_trans short bound.isLt)

/-- A counter in a signed word. -/
theorem toInt_ofNat_of_lt (fits : 2 * count < 2 ^ w) :
    (BitVec.ofNat w count).toInt = count := by
  have unsigned : (BitVec.ofNat w count).toNat = count := by
    rw [BitVec.toNat_ofNat]
    exact Nat.mod_eq_of_lt (by omega)
  rw [BitVec.toInt_eq_toNat_of_lt (by omega), unsigned]

theorem toNat_sub_one (positive : 1 ≤ bound.toNat) :
    (bound - 1).toNat = bound.toNat - 1 := by
  have wide : 1 < 2 ^ w := Nat.lt_of_le_of_lt positive bound.isLt
  have one : (1 : BitVec w).toNat = 1 := Nat.mod_eq_of_lt wide
  have ordered : 1 ≤ bound := by
    rw [BitVec.le_def, one]
    exact positive
  rw [BitVec.toNat_sub_of_le ordered, one]

/-- The condition of a loop that stops one before its bound. -/
theorem ofNat_lt_sub_one_iff (short : count < bound.toNat) :
    BitVec.ofNat w count < bound - 1 ↔ count < bound.toNat - 1 := by
  rw [BitVec.lt_def, toNat_ofNat_of_lt short,
    toNat_sub_one (Nat.one_le_of_lt short)]

end CodingExamples.Library.MachineCounter
