import Mathlib.Data.List.Basic

/-!
# Reading and writing stretches of memory

A block of memory is a list of cells.  Reading and writing a stretch of it
is refused when the stretch is not inside the block.
-/

namespace CodingExamples.Library.Memory

variable {Cell : Type}

/-- The cells of a stretch. -/
def read (memory : List Cell) (position count : Nat) : Option (List Cell) :=
  if position + count ≤ memory.length then
    some ((memory.drop position).take count)
  else
    none

/-- Replace the cells from a position on. -/
def write (memory : List Cell) (position : Nat) (cells : List Cell) :
    Option (List Cell) :=
  if position + cells.length ≤ memory.length then
    some
      (memory.take position ++
        (cells ++ memory.drop (position + cells.length)))
  else
    none

theorem write_eq_some_iff
    {memory cells written : List Cell} {position : Nat} :
    write memory position cells = some written ↔
      position + cells.length ≤ memory.length ∧
        written =
          memory.take position ++
            (cells ++ memory.drop (position + cells.length)) := by
  rw [write, Option.ite_none_right_eq_some, Option.some_inj, eq_comm]

theorem length_of_write
    {memory cells written : List Cell} {position : Nat}
    (write : write memory position cells = some written) :
    written.length = memory.length := by
  rcases write_eq_some_iff.mp write with ⟨inside, rfl⟩
  simp only [List.length_append, List.length_take, List.length_drop]
  omega

/-- What lies before the stretch is unchanged. -/
theorem take_of_write
    {memory cells written : List Cell} {position before : Nat}
    (write : write memory position cells = some written)
    (ordered : before ≤ position) :
    written.take before = memory.take before := by
  rcases write_eq_some_iff.mp write with ⟨inside, rfl⟩
  have long : before ≤ (memory.take position).length := by
    rw [List.length_take]
    omega
  rw [List.take_append_of_le_length long, List.take_take,
    Nat.min_eq_left ordered]

/-- From the stretch on there are the new cells and what lies after them. -/
theorem drop_of_write
    {memory cells written : List Cell} {position : Nat}
    (write : write memory position cells = some written) :
    written.drop position =
      cells ++ memory.drop (position + cells.length) := by
  rcases write_eq_some_iff.mp write with ⟨inside, rfl⟩
  apply List.drop_left'
  rw [List.length_take]
  omega

/-- The cell at a position depends only on what is kept up to there. -/
theorem getElem?_eq_of_take
    {left right : List Cell} {before index : Nat}
    (same : left.take before = right.take before)
    (ordered : index < before) :
    left[index]? = right[index]? := by
  rw [← List.getElem?_take_of_lt ordered, same,
    List.getElem?_take_of_lt ordered]

/-- Outside of the stretch nothing changes. -/
theorem getElem?_of_write_outside
    {memory cells written : List Cell} {position index : Nat}
    (write : write memory position cells = some written)
    (outside : index < position ∨ position + cells.length ≤ index) :
    written[index]? = memory[index]? := by
  rcases outside with before | behind
  · exact
      getElem?_eq_of_take (take_of_write write (Nat.le_refl position)) before
  · have shifted :=
      congrArg (fun cells => cells[index - position]?) (drop_of_write write)
    have back : position + (index - position) = index := by
      omega
    have past :
        position + cells.length + (index - position - cells.length) =
          index := by
      omega
    simp only [List.getElem?_drop, back] at shifted
    rw [shifted, List.getElem?_append_right (by omega), List.getElem?_drop,
      past]

/-- Inside of the stretch there are the new cells. -/
theorem getElem?_of_write_inside
    {memory cells written : List Cell} {position index : Nat}
    (write : write memory position cells = some written)
    (inside : index < cells.length) :
    written[position + index]? = cells[index]? := by
  rw [← List.getElem?_drop, drop_of_write write,
    List.getElem?_append_left inside]

/-- A stretch around the new cells. -/
theorem stretch_of_write
    {memory cells written : List Cell} {position start count : Nat}
    (write : write memory position cells = some written)
    (ordered : start ≤ position)
    (fits : position + cells.length ≤ start + count) :
    (written.drop start).take count =
      (memory.drop start).take (position - start) ++
        (cells ++
          (memory.drop (position + cells.length)).take
            (start + count - (position + cells.length))) := by
  rcases write_eq_some_iff.mp write with ⟨inside, rfl⟩
  have long : start ≤ (memory.take position).length := by
    rw [List.length_take]
    omega
  have size :
      ((memory.drop start).take (position - start)).length =
        position - start := by
    rw [List.length_take, List.length_drop]
    omega
  have before :
      ((memory.drop start).take (position - start)).take count =
        (memory.drop start).take (position - start) :=
    List.take_of_length_le (by rw [size]; omega)
  have new : cells.take (count - (position - start)) = cells :=
    List.take_of_length_le (by omega)
  have left :
      count - (position - start) - cells.length =
        start + count - (position + cells.length) := by
    omega
  rw [List.drop_append_of_le_length long, List.drop_take,
    List.take_append, size, before, List.take_append, new, left]

theorem read_eq
    {memory : List Cell} {position count : Nat}
    (inside : position + count ≤ memory.length) :
    read memory position count = some ((memory.drop position).take count) :=
  if_pos inside

end CodingExamples.Library.Memory
