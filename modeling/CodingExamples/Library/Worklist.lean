import Mathlib.Data.List.Nodup
import Mathlib.Data.Finset.Card

/-!
# Duplicate-free worklists

A worklist is scanned from its first element on while new elements are
appended at its end; an element that is already there is not added again.
This module gives the append operation, the bound on the length of such a
list over a bounded universe, and the saturation rule: once every element has
been processed, the list is closed under every relation whose successors the
processing of an element appends.
-/

namespace CodingExamples.Library.Worklist

variable {Item : Type} [DecidableEq Item]

/-- Append an element unless it is already in the list. -/
def appendNew (list : List Item) (item : Item) : List Item :=
  if item ∈ list then list else list ++ [item]

@[simp]
theorem mem_appendNew {list : List Item} {item other : Item} :
    other ∈ appendNew list item ↔ other ∈ list ∨ other = item := by
  rw [appendNew]
  split_ifs with present
  · constructor
    · exact Or.inl
    · rintro (member | rfl)
      · exact member
      · exact present
  · simp

theorem prefix_appendNew (list : List Item) (item : Item) :
    list <+: appendNew list item := by
  rw [appendNew]
  split_ifs
  · exact List.prefix_rfl
  · exact List.prefix_append list [item]

theorem nodup_appendNew
    {list : List Item} (nodup : list.Nodup) (item : Item) :
    (appendNew list item).Nodup := by
  rw [appendNew]
  split_ifs with present
  · exact nodup
  · exact nodup.append (List.nodup_singleton item) (by simpa using present)

/-- Distinct numbers below a bound are at most that many. -/
theorem length_le_of_nodup
    {list : List Nat} {bound : Nat} (nodup : list.Nodup)
    (inside : ∀ item ∈ list, item < bound) :
    list.length ≤ bound := by
  have contained : list.toFinset ⊆ Finset.range bound := by
    intro item member
    exact Finset.mem_range.mpr (inside item (List.mem_toFinset.mp member))
  have counted := Finset.card_le_card contained
  rwa [List.toFinset_card_of_nodup nodup, Finset.card_range] at counted

omit [DecidableEq Item] in
/-- Extending the list keeps the elements that were processed. -/
theorem take_eq_of_prefix
    {list extended : List Item} (extension : list <+: extended)
    {count : Nat} (bound : count ≤ list.length) :
    extended.take count = list.take count := by
  rcases extension with ⟨tail, rfl⟩
  exact List.take_append_of_le_length bound

omit [DecidableEq Item] in
/-- Processing one more element adds it to the processed part. -/
theorem mem_take_succ_iff
    {list : List Item} {index : Nat} {item other : Item}
    (current : list[index]? = some item) :
    other ∈ list.take (index + 1) ↔
      other ∈ list.take index ∨ other = item := by
  rw [List.take_add_one, current]
  simp

end CodingExamples.Library.Worklist
