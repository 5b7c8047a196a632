import Mathlib.Data.List.Basic

/-!
# Stacks kept in the first slots of an array

A stack of bounded size is often an array and a counter: the items are in the
slots below the counter, oldest first, and the slots above it hold whatever
was written there before.  `Holds` relates the array to the list of items,
newest first, and forgets the slots above.
-/

namespace CodingExamples.Library.ArrayStack

variable {Item : Type}

/-- The slots below the number of items contain the items, oldest first. -/
def Holds (slots : List (Option Item)) : List Item → Prop
  | [] => True
  | item :: rest => slots[rest.length]? = some (some item) ∧ Holds slots rest

/-- As many items as there are slots at most. -/
theorem Holds.length_le
    {slots : List (Option Item)} {items : List Item}
    (holds : Holds slots items) :
    items.length ≤ slots.length := by
  cases items with
  | nil => exact Nat.zero_le _
  | cons item rest =>
      exact (List.getElem?_eq_some_iff.mp holds.1).1

/-- A write above the items is not seen. -/
theorem Holds.set_above
    {slots : List (Option Item)} {items : List Item}
    (holds : Holds slots items) {index : Nat}
    (above : items.length ≤ index) (written : Option Item) :
    Holds (slots.set index written) items := by
  induction items with
  | nil => trivial
  | cons item rest ih =>
      have below : rest.length < index := above
      constructor
      · rw [List.getElem?_set_ne (Nat.ne_of_gt below)]
        exact holds.1
      · exact ih holds.2 (Nat.le_of_lt below)

/-- Writing the slot at the counter pushes the item. -/
theorem Holds.push
    {slots : List (Option Item)} {items : List Item}
    (holds : Holds slots items)
    (room : items.length < slots.length) (item : Item) :
    Holds (slots.set items.length (some item)) (item :: items) := by
  constructor
  · exact List.getElem?_set_self room
  · exact holds.set_above (Nat.le_refl _) (some item)

end CodingExamples.Library.ArrayStack
