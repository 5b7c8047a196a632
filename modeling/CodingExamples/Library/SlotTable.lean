import Mathlib

/-!
# Tables of slots

A slot is free or holds a value.  In a table without repetitions a new value
is stored in the first free slot, and a slot is made free again; the values of
the table are then those of a set from which elements are added and removed.
Distinct values below a bound cannot fill as many slots as there are values.
-/

namespace CodingExamples.Library.SlotTable

variable {Value : Type}

/-- No value is in two slots. -/
def Distinct (slots : List (Option Value)) : Prop :=
  ∀ (i j : Nat) (value : Value),
    slots[i]? = some (some value) → slots[j]? = some (some value) → i = j

/-- The first free slot, or the length of the table. -/
def freeSlot (slots : List (Option Value)) : Nat :=
  slots.findIdx Option.isNone

theorem getElem?_freeSlot
    {slots : List (Option Value)} (inside : freeSlot slots < slots.length) :
    slots[freeSlot slots]? = some none := by
  have free : slots[freeSlot slots].isNone = true :=
    List.findIdx_getElem
  rw [List.getElem?_eq_getElem inside]
  exact congrArg some (Option.isNone_iff_eq_none.mp free)

theorem freeSlot_lt_iff {slots : List (Option Value)} :
    freeSlot slots < slots.length ↔ none ∈ slots := by
  rw [freeSlot, List.findIdx_lt_length]
  constructor
  · rintro ⟨slot, member, free⟩
    rwa [Option.isNone_iff_eq_none.mp free] at member
  · intro member
    exact ⟨none, member, rfl⟩

/-- What is in the table after one slot has changed. -/
theorem mem_set_iff
    {slots : List (Option Value)} {i : Nat} {old new : Option Value}
    (found : slots[i]? = some old) {value : Value} :
    some value ∈ slots.set i new ↔
      some value = new ∨
        ∃ j, j ≠ i ∧ slots[j]? = some (some value) := by
  have inside := (List.getElem?_eq_some_iff.mp found).1
  rw [List.mem_iff_getElem?]
  constructor
  · rintro ⟨j, present⟩
    by_cases equal : j = i
    · subst equal
      rw [List.getElem?_set_self inside] at present
      exact .inl (Option.some.inj present).symm
    · rw [List.getElem?_set_ne (Ne.symm equal)] at present
      exact .inr ⟨j, equal, present⟩
  · rintro (equal | ⟨j, different, present⟩)
    · exact ⟨i, by rw [List.getElem?_set_self inside, equal]⟩
    · exact ⟨j, by rw [List.getElem?_set_ne different.symm, present]⟩

/-- A value was stored in a free slot. -/
theorem mem_set_some_iff
    {slots : List (Option Value)} {i : Nat}
    (free : slots[i]? = some none) {new value : Value} :
    some value ∈ slots.set i (some new) ↔
      value = new ∨ some value ∈ slots := by
  rw [mem_set_iff free, Option.some.injEq, List.mem_iff_getElem?]
  constructor
  · rintro (equal | ⟨j, -, present⟩)
    · exact .inl equal
    · exact .inr ⟨j, present⟩
  · rintro (equal | ⟨j, present⟩)
    · exact .inl equal
    · refine .inr ⟨j, ?_, present⟩
      rintro rfl
      rw [free] at present
      cases present

/-- The slot of a value was made free. -/
theorem mem_set_none_iff
    {slots : List (Option Value)} (distinct : Distinct slots) {i : Nat}
    {old value : Value} (found : slots[i]? = some (some old)) :
    some value ∈ slots.set i none ↔ value ≠ old ∧ some value ∈ slots := by
  rw [mem_set_iff found, List.mem_iff_getElem?]
  constructor
  · rintro (impossible | ⟨j, different, present⟩)
    · cases impossible
    · refine ⟨?_, j, present⟩
      rintro rfl
      exact different (distinct j i value present found)
  · rintro ⟨different, j, present⟩
    refine .inr ⟨j, ?_, present⟩
    rintro rfl
    rw [found] at present
    cases present
    exact different rfl

theorem Distinct.set
    {slots : List (Option Value)} (distinct : Distinct slots)
    {i : Nat} {new : Option Value}
    (fresh : ∀ value, new = some value → some value ∉ slots) :
    Distinct (slots.set i new) := by
  have other {j : Nat} {value : Value}
      (present : (slots.set i new)[j]? = some (some value)) :
      j = i ∧ new = some value ∨
        j ≠ i ∧ slots[j]? = some (some value) := by
    by_cases equal : j = i
    · subst equal
      have inside := (List.getElem?_eq_some_iff.mp present).1
      rw [List.length_set] at inside
      rw [List.getElem?_set_self inside] at present
      exact .inl ⟨rfl, Option.some.inj present⟩
    · rw [List.getElem?_set_ne (Ne.symm equal)] at present
      exact .inr ⟨equal, present⟩
  intro j k value first second
  rcases other first with ⟨rfl, stored⟩ | ⟨-, first⟩
  · rcases other second with ⟨rfl, -⟩ | ⟨-, second⟩
    · rfl
    · exact absurd (List.mem_of_getElem? second) (fresh value stored)
  · rcases other second with ⟨-, stored⟩ | ⟨-, second⟩
    · exact absurd (List.mem_of_getElem? first) (fresh value stored)
    · exact distinct j k value first second

/--
Distinct values below a bound leave a slot free in a table of that size, if
one value below the bound is missing.
-/
theorem none_mem_of_distinct
    {slots : List (Option Nat)} (distinct : Distinct slots)
    (below : ∀ value, some value ∈ slots → value < slots.length)
    {missing : Nat} (inside : missing < slots.length)
    (absent : some missing ∉ slots) :
    none ∈ slots := by
  by_contra full
  have occupied (i : Fin slots.length) :
      ∃ value, slots[i.val]? = some (some value) := by
    cases found : slots[i.val]? with
    | none => exact absurd (List.getElem?_eq_none_iff.mp found) (by omega)
    | some slot =>
        cases slot with
        | none => exact absurd (List.mem_of_getElem? found) full
        | some value => exact ⟨value, rfl⟩
  choose value found using occupied
  -- The missing value and those of the slots are too many.
  let assigned : Option (Fin slots.length) → Fin slots.length := fun slot =>
    match slot with
    | none => ⟨missing, inside⟩
    | some i => ⟨value i, below (value i) (List.mem_of_getElem? (found i))⟩
  have stored (i : Fin slots.length) : value i ≠ missing := by
    intro equal
    apply absent
    rw [← equal]
    exact List.mem_of_getElem? (found i)
  have injective : Function.Injective assigned := by
    intro first second same
    have values := congrArg Fin.val same
    cases first with
    | none =>
        cases second with
        | none => rfl
        | some j => exact absurd values.symm (stored j)
    | some i =>
        cases second with
        | none => exact absurd values (stored i)
        | some j =>
            have equal : value i = value j := values
            have present := found j
            rw [← equal] at present
            exact
              congrArg some
                (Fin.ext (distinct i j (value i) (found i) present))
  have cards := Fintype.card_le_of_injective assigned injective
  rw [Fintype.card_option, Fintype.card_fin] at cards
  omega

end CodingExamples.Library.SlotTable
