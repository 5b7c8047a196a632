import Mathlib.Data.List.Basic

/-!
# Blocks of one length

The entries of a list are written one after the other, each as a block of the
same length.  What has been written after some whole blocks and a part of the
next one depends on the next entry only.
-/

namespace CodingExamples.Library.Blocks

variable {Entry Symbol : Type} {block : Entry → List Symbol} {width : Nat}
  (uniform : ∀ entry, (block entry).length = width)

include uniform

theorem length_flatMap_block (entries : List Entry) :
    (entries.flatMap block).length = width * entries.length := by
  induction entries with
  | nil => rfl
  | cons entry rest ih =>
      rw [List.flatMap_cons, List.length_append, uniform, ih,
        List.length_cons, Nat.mul_succ, Nat.add_comm]

/-- The whole blocks, and the part of the next one. -/
theorem take_flatMap_block
    {entries : List Entry} {index : Nat} {entry : Entry}
    (found : entries[index]? = some entry) {count : Nat}
    (inside : count ≤ width) :
    (entries.flatMap block).take (width * index + count) =
      (entries.flatMap block).take (width * index) ++
        (block entry).take count := by
  induction entries generalizing index with
  | nil => cases found
  | cons first rest ih =>
      rw [List.flatMap_cons]
      cases index with
      | zero =>
          cases found
          rw [Nat.mul_zero, Nat.zero_add, List.take_zero, List.nil_append,
            List.take_append_of_le_length]
          rw [uniform]
          exact inside
      | succ index =>
          rw [List.getElem?_cons_succ] at found
          have before (more : Nat) :
              (block first ++ rest.flatMap block).take
                  (width * (index + 1) + more) =
                block first ++
                  (rest.flatMap block).take (width * index + more) := by
            have split :
                width * (index + 1) + more =
                  (block first).length + (width * index + more) := by
              rw [uniform, Nat.mul_succ]
              omega
            rw [split, List.take_length_add_append]
          have here :
              (block first ++ rest.flatMap block).take
                  (width * (index + 1)) =
                block first ++ (rest.flatMap block).take (width * index) :=
            before 0
          rw [before, here, ih found, List.append_assoc]

/-- The next part of a block. -/
theorem take_flatMap_block_add
    {entries : List Entry} {index : Nat} {entry : Entry}
    (found : entries[index]? = some entry) {done count : Nat}
    (inside : done + count ≤ width) :
    (entries.flatMap block).take (width * index + (done + count)) =
      (entries.flatMap block).take (width * index + done) ++
        ((block entry).drop done).take count := by
  rw [take_flatMap_block uniform found inside,
    take_flatMap_block uniform found (by omega), List.take_add,
    List.append_assoc]

/-- A part that is as long as a block is the next block. -/
theorem eq_block_of_append
    {entries : List Entry} {index : Nat} {entry : Entry}
    (found : entries[index]? = some entry) {written : Nat}
    {read flying : List Symbol} (complete : read.length = width)
    (split :
      (entries.flatMap block).take written =
        (entries.flatMap block).take (width * index) ++ (read ++ flying)) :
    read = block entry ∧
      (entries.flatMap block).take written =
        (entries.flatMap block).take (width * (index + 1)) ++ flying := by
  have inside : width * index ≤ (entries.flatMap block).length := by
    rw [length_flatMap_block uniform]
    exact
      Nat.mul_le_mul_left _
        (Nat.le_of_lt (List.getElem?_eq_some_iff.mp found).1)
  have whole :
      ((entries.flatMap block).take (width * index)).length =
        width * index := by
    rw [List.length_take, Nat.min_eq_left inside]
  have next := take_flatMap_block uniform found (Nat.le_refl width)
  rw [List.take_of_length_le (Nat.le_of_eq (uniform entry))] at next
  have enough : width * index + width ≤ written := by
    have lengths := congrArg List.length split
    rw [List.length_take, List.length_append, whole, List.length_append,
      complete] at lengths
    omega
  have both :
      (entries.flatMap block).take (width * index) ++ read =
        (entries.flatMap block).take (width * index + width) := by
    have length :
        ((entries.flatMap block).take (width * index) ++ read).length =
          width * index + width := by
      rw [List.length_append, whole, complete]
    have cut := congrArg (List.take (width * index + width)) split
    rw [List.take_take, Nat.min_eq_left enough, ← List.append_assoc,
      ← length, List.take_left] at cut
    rw [← cut, length]
  constructor
  · rw [next] at both
    exact List.append_cancel_left both
  · rw [Nat.mul_succ, ← both, List.append_assoc]
    exact split

end CodingExamples.Library.Blocks
