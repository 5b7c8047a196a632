import Mathlib.Algebra.BigOperators.Group.List.Basic
import Mathlib.Algebra.GroupWithZero.Nat

/-!
# Lists as tables

The entry at an index is replaced by another one.  What is computed from all
entries changes by what the two entries contribute.
-/

namespace CodingExamples.Library.ListTable

variable {Entry Value : Type}

/-- A list around one of its entries. -/
theorem exists_around
    {entries : List Entry} {index : Nat} {old : Entry}
    (found : entries[index]? = some old) :
    ∃ before after, entries = before ++ old :: after ∧
      ∀ new, entries.set index new = before ++ new :: after := by
  rcases List.getElem?_eq_some_iff.mp found with ⟨inside, rfl⟩
  refine
    ⟨entries.take index, entries.drop (index + 1), ?_, fun new => ?_⟩
  · rw [List.getElem_cons_drop, List.take_append_drop]
  · rw [List.set_eq_take_append_cons_drop, if_pos inside]

/-- An entry of the new table is the new one or has been there before. -/
theorem getElem?_set_cases
    {entries : List Entry} {index other : Nat} {new entry : Entry}
    (found : (entries.set index new)[other]? = some entry) :
    (other = index ∧ entry = new) ∨
      (other ≠ index ∧ entries[other]? = some entry) := by
  rw [List.getElem?_set] at found
  split at found
  case isTrue same =>
    split at found
    · cases found
      exact .inl ⟨same.symm, rfl⟩
    · cases found
  case isFalse different =>
    exact .inr ⟨fun same => different same.symm, found⟩

theorem map_set_eq
    {entries : List Entry} {index : Nat} {old new : Entry}
    (found : entries[index]? = some old) {value : Entry → Value}
    (same : value new = value old) :
    (entries.set index new).map value = entries.map value := by
  rcases exists_around found with ⟨before, after, split, replaced⟩
  rw [replaced, split, List.map_append, List.map_append, List.map_cons,
    List.map_cons, same]

theorem filterMap_set_eq
    {entries : List Entry} {index : Nat} {old new : Entry}
    (found : entries[index]? = some old) {value : Entry → Option Value}
    (same : value new = value old) :
    (entries.set index new).filterMap value = entries.filterMap value := by
  rcases exists_around found with ⟨before, after, split, replaced⟩
  rw [replaced, split, List.filterMap_append, List.filterMap_append,
    List.filterMap_cons, List.filterMap_cons, same]

/-- An entry begins to contribute. -/
theorem filterMap_set_perm
    {entries : List Entry} {index : Nat} {old new : Entry}
    (found : entries[index]? = some old) {value : Entry → Option Value}
    (nothing : value old = none) {contribution : Value}
    (something : value new = some contribution) :
    ((entries.set index new).filterMap value).Perm
      (entries.filterMap value ++ [contribution]) := by
  rcases exists_around found with ⟨before, after, split, replaced⟩
  rw [replaced, split, List.filterMap_append, List.filterMap_append,
    List.filterMap_cons_some something, List.filterMap_cons_none nothing]
  exact List.perm_middle.trans (List.perm_append_singleton _ _).symm

theorem sum_map_set
    {Amount : Type} [AddCommMonoid Amount]
    {entries : List Entry} {index : Nat} {old : Entry}
    (found : entries[index]? = some old) (new : Entry)
    (value : Entry → Amount) :
    ((entries.set index new).map value).sum + value old =
      (entries.map value).sum + value new := by
  rcases exists_around found with ⟨before, after, split, replaced⟩
  rw [replaced, split, List.map_append, List.map_append, List.map_cons,
    List.map_cons, List.sum_append, List.sum_append, List.sum_cons,
    List.sum_cons, add_right_comm, ← add_assoc, ← add_assoc,
    add_right_comm _ (value new)]

end CodingExamples.Library.ListTable
