import Mathlib.Data.List.Basic

/-!
# Lists of options with a kind and a length

An option is one byte that says nothing, or a kind, a length that counts the
whole option, and a value.  The kinds 0 and 1 have no length; kind 0 ends a
list and does not occur in it.
-/

namespace CodingExamples.Library.OptionList

/-- One option of a list. -/
inductive Item where
  | noOperation
  | sized (kind : BitVec 8) (value : List (BitVec 8))
      (hasLength : kind ≠ 0 ∧ kind ≠ 1) (short : value.length + 2 < 256)

def Item.kind : Item → BitVec 8
  | .noOperation => 1
  | .sized kind _ _ _ => kind

/-- The bytes of an option. -/
def Item.bytes : Item → List (BitVec 8)
  | .noOperation => [1]
  | .sized kind value _ _ =>
      kind :: BitVec.ofNat 8 (value.length + 2) :: value

/-- The bytes of a list of options. -/
def bytes (items : List Item) : List (BitVec 8) :=
  items.flatMap Item.bytes

@[simp]
theorem bytes_nil : bytes [] = [] :=
  rfl

@[simp]
theorem bytes_cons (item : Item) (items : List Item) :
    bytes (item :: items) = item.bytes ++ bytes items :=
  rfl

@[simp]
theorem bytes_append (before after : List Item) :
    bytes (before ++ after) = bytes before ++ bytes after :=
  List.flatMap_append

/-- An option starts with its kind. -/
theorem Item.head_bytes (item : Item) : item.bytes[0]? = some item.kind := by
  cases item <;> rfl

theorem Item.length_bytes_pos (item : Item) : 0 < item.bytes.length := by
  cases item <;> simp [Item.bytes]

/-- The length byte of an option is the number of its bytes. -/
theorem Item.length_byte
    {value : List (BitVec 8)} (short : value.length + 2 < 256) :
    (BitVec.ofNat 8 (value.length + 2)).toNat = value.length + 2 := by
  rw [BitVec.toNat_ofNat]
  exact Nat.mod_eq_of_lt short

/-- An option with a length has at least two bytes. -/
theorem Item.two_le_length_bytes
    {item : Item} (notNop : item.kind ≠ 1) : 2 ≤ item.bytes.length := by
  cases item with
  | noOperation => exact absurd rfl notNop
  | sized kind value hasLength short =>
      rw [Item.bytes, List.length_cons, List.length_cons]
      omega

/-- The first option of a kind, if there is one. -/
theorem exists_first_of_kind
    {items : List Item} {kind : BitVec 8}
    (occurs : ¬ ∀ item ∈ items, item.kind ≠ kind) :
    ∃ before item after,
      items = before ++ item :: after ∧
        item.kind = kind ∧
        ∀ earlier ∈ before, earlier.kind ≠ kind := by
  have exists_item : (items.find? (·.kind = kind)).isSome := by
    rw [List.find?_isSome]
    simpa using occurs
  rcases Option.isSome_iff_exists.mp exists_item with ⟨item, found⟩
  rcases List.find?_eq_some_iff_append.mp found with
    ⟨same, before, after, split, others⟩
  refine ⟨before, item, after, split, by simpa using same, ?_⟩
  intro earlier member
  simpa using others earlier member

end CodingExamples.Library.OptionList
