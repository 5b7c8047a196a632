import Mathlib.Data.Finmap

/-!
# Chained hash tables as finite maps

A table is a list of buckets; the slot of a key says in which bucket its entry
is kept.  An operation on a key scans its bucket and, if it changes anything,
replaces that one bucket.  `Represents` relates such a table to a finite map.
The results below give, for adding a new entry at the head of its bucket, for
removing the first entry of a key and for rewriting it in place, the map that
the changed table represents.

The slot function is arbitrary: nothing depends on how keys are distributed.
-/

namespace CodingExamples.Library.BucketTable

variable {Entry Key : Type} [DecidableEq Key]

/-- Replace the first element that satisfies the test. -/
def updateFirst (test : Entry → Bool) (change : Entry → Entry) :
    List Entry → List Entry
  | [] => []
  | entry :: rest =>
      if test entry then
        change entry :: rest
      else
        entry :: updateFirst test change rest

/-! ## One bucket -/

section Bucket

variable (key : Entry → Key)

/-- The first entry of a key in a bucket. -/
def findKey (bucket : List Entry) (wanted : Key) : Option Entry :=
  bucket.find? fun entry => key entry = wanted

variable {key}

theorem findKey_eq_none_iff {bucket : List Entry} {wanted : Key} :
    findKey key bucket wanted = none ↔ wanted ∉ bucket.map key := by
  simp [findKey]

theorem key_of_findKey
    {bucket : List Entry} {wanted : Key} {entry : Entry}
    (found : findKey key bucket wanted = some entry) :
    key entry = wanted := by
  simpa using List.find?_some found

theorem findKey_cons (entry : Entry) (bucket : List Entry) (wanted : Key) :
    findKey key (entry :: bucket) wanted =
      if key entry = wanted then
        some entry
      else
        findKey key bucket wanted := by
  rw [findKey, List.find?_cons]
  by_cases equal : key entry = wanted <;> simp [equal, findKey]

/-- Removing the only entry of a key leaves none. -/
theorem findKey_eraseP
    {bucket : List Entry} (distinct : (bucket.map key).Nodup)
    (removed wanted : Key) :
    findKey key (bucket.eraseP fun entry => key entry = removed) wanted =
      if wanted = removed then none else findKey key bucket wanted := by
  induction bucket with
  | nil => simp [findKey]
  | cons entry bucket ih =>
      rw [List.map_cons, List.nodup_cons] at distinct
      by_cases first : key entry = removed
      · rw [List.eraseP_cons_of_pos (by simpa using first), findKey_cons]
        by_cases equal : wanted = removed
        · rw [if_pos equal, findKey_eq_none_iff, equal, ← first]
          exact distinct.1
        · rw [if_neg equal, if_neg]
          rw [first]
          exact fun same => equal same.symm
      · rw [List.eraseP_cons_of_neg (by simpa using first), findKey_cons,
          findKey_cons, ih distinct.2]
        by_cases equal : key entry = wanted
        · rw [if_pos equal, if_pos equal, if_neg]
          rw [← equal]
          exact first
        · rw [if_neg equal, if_neg equal]

omit [DecidableEq Key] in
theorem nodup_eraseP
    {bucket : List Entry} (distinct : (bucket.map key).Nodup)
    (test : Entry → Bool) :
    ((bucket.eraseP test).map key).Nodup :=
  distinct.sublist (List.eraseP_sublist.map key)

theorem length_updateFirst
    (test : Entry → Bool) (change : Entry → Entry) (bucket : List Entry) :
    (updateFirst test change bucket).length = bucket.length := by
  induction bucket with
  | nil => rfl
  | cons entry bucket ih =>
      rw [updateFirst]
      split
      · rw [List.length_cons, List.length_cons]
      · rw [List.length_cons, List.length_cons, ih]

omit [DecidableEq Key] in
/-- Rewriting an entry keeps the keys of the bucket, if it keeps its key. -/
theorem map_updateFirst
    (bucket : List Entry) (test : Entry → Bool)
    {change : Entry → Entry} (kept : ∀ entry, key (change entry) = key entry) :
    (updateFirst test change bucket).map key = bucket.map key := by
  induction bucket with
  | nil => rfl
  | cons entry bucket ih =>
      rw [updateFirst]
      split
      · rw [List.map_cons, kept, List.map_cons]
      · rw [List.map_cons, ih, List.map_cons]

theorem findKey_updateFirst
    (bucket : List Entry) (updated wanted : Key)
    {change : Entry → Entry} (kept : ∀ entry, key (change entry) = key entry) :
    findKey key
        (updateFirst (fun entry => key entry = updated) change bucket)
        wanted =
      if wanted = updated then
        (findKey key bucket wanted).map change
      else
        findKey key bucket wanted := by
  induction bucket with
  | nil => simp [updateFirst, findKey]
  | cons entry bucket ih =>
      rw [updateFirst, findKey_cons]
      by_cases first : key entry = updated
      · rw [if_pos (by simpa using first), findKey_cons, kept, first]
        by_cases equal : wanted = updated
        · simp [equal]
        · rw [if_neg equal, if_neg (fun same => equal same.symm),
            if_neg (fun same => equal same.symm)]
      · rw [if_neg (by simpa using first), findKey_cons, ih]
        by_cases equal : key entry = wanted
        · rw [if_pos equal, if_pos equal, if_neg]
          rw [← equal]
          exact first
        · rw [if_neg equal, if_neg equal]

end Bucket

/-! ## The whole table -/

section Table

variable (key : Entry → Key) (slot : Key → Nat)

/-- The bucket of a key; the empty list if the slot is outside the table. -/
def bucketOf (buckets : List (List Entry)) (wanted : Key) : List Entry :=
  buckets[slot wanted]?.getD []

/-- The entry that a scan for the key finds. -/
def held (buckets : List (List Entry)) (wanted : Key) : Option Entry :=
  findKey key (bucketOf slot buckets wanted) wanted

/-- The shape of a table that its own operations maintain. -/
structure WellFormed (buckets : List (List Entry)) : Prop where
  slots : ∀ wanted, slot wanted < buckets.length
  placed :
    ∀ (index : Nat) (bucket : List Entry), buckets[index]? = some bucket →
      ∀ entry ∈ bucket, slot (key entry) = index
  distinct :
    ∀ (index : Nat) (bucket : List Entry), buckets[index]? = some bucket →
      (bucket.map key).Nodup

/-- The table holds exactly the entries of the map. -/
structure Represents (buckets : List (List Entry))
    (map : Finmap fun _ : Key => Entry) : Prop
    extends WellFormed key slot buckets where
  held_eq : ∀ wanted, held key slot buckets wanted = map.lookup wanted
  count : buckets.flatten.length = map.keys.card

variable {key slot}

omit [DecidableEq Key] in
theorem WellFormed.getElem?_slot
    {buckets : List (List Entry)} (shape : WellFormed key slot buckets)
    (wanted : Key) :
    buckets[slot wanted]? = some (bucketOf slot buckets wanted) := by
  rw [bucketOf, List.getElem?_eq_getElem (shape.slots wanted)]
  rfl

omit [DecidableEq Key] in
theorem WellFormed.distinct_bucketOf
    {buckets : List (List Entry)} (shape : WellFormed key slot buckets)
    (wanted : Key) :
    ((bucketOf slot buckets wanted).map key).Nodup :=
  shape.distinct _ _ (shape.getElem?_slot wanted)

omit [DecidableEq Key] in
/-- Replacing one bucket by entries of the same slot keeps the shape. -/
theorem WellFormed.set
    {buckets : List (List Entry)} (shape : WellFormed key slot buckets)
    {index : Nat} {bucket : List Entry}
    (placed : ∀ entry ∈ bucket, slot (key entry) = index)
    (distinct : (bucket.map key).Nodup) :
    WellFormed key slot (buckets.set index bucket) where
  slots wanted := by
    rw [List.length_set]
    exact shape.slots wanted
  placed other content at_other := by
    rw [List.getElem?_set] at at_other
    split_ifs at at_other with same inside
    · cases at_other
      rw [← same]
      exact placed
    · exact shape.placed other content at_other
  distinct other content at_other := by
    rw [List.getElem?_set] at at_other
    split_ifs at at_other with same inside
    · cases at_other
      exact distinct
    · exact shape.distinct other content at_other

omit [DecidableEq Key] in
/-- A scan sees the new bucket exactly for the keys of its slot. -/
theorem bucketOf_set
    {buckets : List (List Entry)} (changed wanted : Key)
    (inside : slot changed < buckets.length) (bucket : List Entry) :
    bucketOf slot (buckets.set (slot changed) bucket) wanted =
      if slot wanted = slot changed then
        bucket
      else
        bucketOf slot buckets wanted := by
  rw [bucketOf, List.getElem?_set]
  by_cases same : slot wanted = slot changed
  · simp [same, inside]
  · rw [if_neg (fun equal => same equal.symm), if_neg same]
    rfl

theorem length_flatten_set
    {buckets : List (List Entry)} {index : Nat} {old : List Entry}
    (at_index : buckets[index]? = some old) (bucket : List Entry) :
    (buckets.set index bucket).flatten.length + old.length =
      buckets.flatten.length + bucket.length := by
  induction buckets generalizing index with
  | nil => simp at at_index
  | cons head tail ih =>
      cases index with
      | zero =>
          rw [List.getElem?_cons_zero, Option.some.injEq] at at_index
          rw [List.set_cons_zero, List.flatten_cons, List.flatten_cons,
            List.length_append, List.length_append, at_index]
          omega
      | succ index =>
          rw [List.getElem?_cons_succ] at at_index
          have rest := ih at_index
          rw [List.set_cons_succ, List.flatten_cons, List.flatten_cons,
            List.length_append, List.length_append]
          omega

/-- Adding an entry to one bucket adds it to the entries of the table. -/
theorem flatten_set_cons_perm
    {buckets : List (List Entry)} {index : Nat} {old : List Entry}
    (at_index : buckets[index]? = some old) (entry : Entry) :
    (buckets.set index (entry :: old)).flatten.Perm
      (entry :: buckets.flatten) := by
  induction buckets generalizing index with
  | nil => simp at at_index
  | cons head tail ih =>
      cases index with
      | zero =>
          rw [List.getElem?_cons_zero, Option.some.injEq] at at_index
          rw [List.set_cons_zero, List.flatten_cons, List.flatten_cons,
            at_index, List.cons_append]
      | succ index =>
          rw [List.getElem?_cons_succ] at at_index
          rw [List.set_cons_succ, List.flatten_cons, List.flatten_cons]
          exact ((ih at_index).append_left head).trans List.perm_middle

omit [DecidableEq Key] in
/-- No two entries of the table have the same key. -/
theorem WellFormed.nodup_flatten
    {buckets : List (List Entry)} (shape : WellFormed key slot buckets) :
    (buckets.flatten.map key).Nodup := by
  rw [List.map_flatten, List.nodup_flatten]
  constructor
  · intro keys member
    rcases List.mem_map.mp member with ⟨bucket, bucketMember, rfl⟩
    rcases List.mem_iff_getElem?.mp bucketMember with ⟨index, at_index⟩
    exact shape.distinct index bucket at_index
  · rw [List.pairwise_map, List.pairwise_iff_getElem]
    intro left right leftInside rightInside ordered wanted inLeft inRight
    rcases List.mem_map.mp inLeft with ⟨leftEntry, leftMember, leftKey⟩
    rcases List.mem_map.mp inRight with ⟨rightEntry, rightMember, rightKey⟩
    have leftSlot :=
      shape.placed left _ (List.getElem?_eq_getElem leftInside)
        leftEntry leftMember
    have rightSlot :=
      shape.placed right _ (List.getElem?_eq_getElem rightInside)
        rightEntry rightMember
    rw [leftKey] at leftSlot
    rw [rightKey] at rightSlot
    omega

omit [DecidableEq Key] in
/-- An entry of a key is kept nowhere but in the bucket of the key. -/
theorem WellFormed.mem_flatten_iff
    {buckets : List (List Entry)} (shape : WellFormed key slot buckets)
    (wanted : Key) :
    wanted ∈ buckets.flatten.map key ↔
      wanted ∈ (bucketOf slot buckets wanted).map key := by
  constructor
  · intro member
    rcases List.mem_map.mp member with ⟨entry, entryMember, rfl⟩
    rcases List.mem_flatten.mp entryMember with ⟨bucket, inTable, inBucket⟩
    rcases List.mem_iff_getElem?.mp inTable with ⟨index, at_index⟩
    have placed := shape.placed index bucket at_index entry inBucket
    rw [bucketOf, placed, at_index]
    exact List.mem_map_of_mem inBucket
  · intro member
    rcases List.mem_map.mp member with ⟨entry, inBucket, rfl⟩
    refine List.mem_map_of_mem (List.mem_flatten.mpr ⟨_, ?_, inBucket⟩)
    exact List.mem_of_getElem? (shape.getElem?_slot (key entry))

/-! ## Operations -/

/-- Erasing an absent key changes nothing. -/
theorem erase_of_notMem
    {map : Finmap fun _ : Key => Entry} {removed : Key}
    (absent : removed ∉ map) :
    map.erase removed = map := by
  apply Finmap.ext_lookup
  intro wanted
  by_cases equal : wanted = removed
  · rw [equal, Finmap.lookup_erase, Finmap.lookup_eq_none.mpr absent]
  · rw [Finmap.lookup_erase_ne equal]

/-- Storing under a present key adds no key. -/
theorem keys_insert_of_lookup
    {map : Finmap fun _ : Key => Entry} {updated : Key} {entry : Entry}
    (present : map.lookup updated = some entry) (changed : Entry) :
    (map.insert updated changed).keys = map.keys := by
  ext wanted
  rw [Finmap.mem_keys, Finmap.mem_keys, Finmap.mem_insert]
  constructor
  · rintro (rfl | member)
    · exact Finmap.mem_of_lookup_eq_some present
    · exact member
  · exact Or.inr

theorem card_keys_insert
    {map : Finmap fun _ : Key => Entry} {added : Key} {entry : Entry}
    (absent : added ∉ map) :
    (map.insert added entry).keys.card = map.keys.card + 1 := by
  have fresh : added ∉ map.keys := by
    rwa [Finmap.mem_keys]
  have keys : (map.insert added entry).keys = insert added map.keys := by
    ext wanted
    simp [Finmap.mem_keys]
  rw [keys, Finset.card_insert_of_notMem fresh]

theorem card_keys_erase
    {map : Finmap fun _ : Key => Entry} {removed : Key}
    (present : removed ∈ map) :
    (map.erase removed).keys.card + 1 = map.keys.card := by
  rw [Finmap.keys_erase]
  exact Finset.card_erase_add_one (Finmap.mem_keys.mpr present)

theorem held_set
    {buckets : List (List Entry)} (changed wanted : Key)
    (inside : slot changed < buckets.length) (bucket : List Entry) :
    held key slot (buckets.set (slot changed) bucket) wanted =
      if slot wanted = slot changed then
        findKey key bucket wanted
      else
        held key slot buckets wanted := by
  rw [held, bucketOf_set changed wanted inside]
  split_ifs <;> rfl

/-- The empty table represents the empty map. -/
theorem Represents.empty
    {size : Nat} (slots : ∀ wanted, slot wanted < size) :
    Represents key slot (List.replicate size []) ∅ where
  slots := by simpa using slots
  placed := by
    intro index bucket at_index
    simp [(List.mem_replicate.mp (List.mem_of_getElem? at_index)).2]
  distinct := by
    intro index bucket at_index
    simp [(List.mem_replicate.mp (List.mem_of_getElem? at_index)).2]
  held_eq wanted := by
    simp [held, bucketOf, findKey, slots]
  count := by simp

omit [DecidableEq Key] in
theorem WellFormed.mem_placed
    {buckets : List (List Entry)} (shape : WellFormed key slot buckets)
    (wanted : Key) :
    ∀ entry ∈ bucketOf slot buckets wanted,
      slot (key entry) = slot wanted :=
  shape.placed _ _ (shape.getElem?_slot wanted)

theorem Represents.mem_iff
    {buckets : List (List Entry)} {map : Finmap fun _ : Key => Entry}
    (represents : Represents key slot buckets map) (wanted : Key) :
    wanted ∈ map ↔
      wanted ∈ (bucketOf slot buckets wanted).map key := by
  rw [← Finmap.lookup_isSome, ← represents.held_eq, held,
    Option.isSome_iff_ne_none, ne_eq, findKey_eq_none_iff, not_not]

theorem Represents.mem_flatten_iff
    {buckets : List (List Entry)} {map : Finmap fun _ : Key => Entry}
    (represents : Represents key slot buckets map) (wanted : Key) :
    wanted ∈ buckets.flatten.map key ↔ wanted ∈ map := by
  rw [represents.toWellFormed.mem_flatten_iff, represents.mem_iff]

/-- Adding an entry of an absent key at the head of its bucket. -/
theorem Represents.insert
    {buckets : List (List Entry)} {map : Finmap fun _ : Key => Entry}
    (represents : Represents key slot buckets map)
    {entry : Entry} (absent : key entry ∉ map) :
    Represents key slot
      (buckets.set (slot (key entry))
        (entry :: bucketOf slot buckets (key entry)))
      (map.insert (key entry) entry) where
  toWellFormed := by
    apply represents.toWellFormed.set
    · intro other member
      rcases List.mem_cons.mp member with rfl | old
      · rfl
      · exact represents.mem_placed (key entry) other old
    · rw [List.map_cons, List.nodup_cons, ← represents.mem_iff]
      exact ⟨absent, represents.distinct_bucketOf (key entry)⟩
  held_eq wanted := by
    rw [held_set _ _ (represents.slots _), findKey_cons]
    by_cases equal : key entry = wanted
    · subst equal
      simp
    · rw [if_neg equal, Finmap.lookup_insert_of_ne _ (Ne.symm equal),
        ← represents.held_eq]
      split_ifs with same
      · rw [held, bucketOf, bucketOf, same]
      · rfl
  count := by
    have changed :=
      length_flatten_set (represents.getElem?_slot (key entry))
        (entry :: bucketOf slot buckets (key entry))
    rw [List.length_cons] at changed
    rw [card_keys_insert absent, ← represents.count]
    omega

/-- Removing the first entry of a present key from its bucket. -/
theorem Represents.erase
    {buckets : List (List Entry)} {map : Finmap fun _ : Key => Entry}
    (represents : Represents key slot buckets map)
    {removed : Key} (present : removed ∈ map) :
    Represents key slot
      (buckets.set (slot removed)
        ((bucketOf slot buckets removed).eraseP
          fun entry => key entry = removed))
      (map.erase removed) where
  toWellFormed := by
    apply represents.toWellFormed.set
    · intro entry member
      exact
        represents.mem_placed removed entry (List.mem_of_mem_eraseP member)
    · exact nodup_eraseP (represents.distinct_bucketOf removed) _
  held_eq wanted := by
    rw [held_set _ _ (represents.slots _),
      findKey_eraseP (represents.distinct_bucketOf removed)]
    by_cases equal : wanted = removed
    · subst equal
      simp
    · rw [if_neg equal, Finmap.lookup_erase_ne equal, ← represents.held_eq]
      split_ifs with same
      · rw [held, bucketOf, bucketOf, same]
      · rfl
  count := by
    have changed :=
      length_flatten_set (represents.getElem?_slot removed)
        ((bucketOf slot buckets removed).eraseP
          fun entry => key entry = removed)
    have found :
        ∃ entry ∈ bucketOf slot buckets removed, key entry = removed := by
      simpa using (represents.mem_iff removed).mp present
    have shorter :
        ((bucketOf slot buckets removed).eraseP
            fun entry => key entry = removed).length + 1 =
          (bucketOf slot buckets removed).length := by
      rcases found with ⟨entry, member, equal⟩
      rw [List.length_eraseP_of_mem member (by simpa using equal)]
      have positive : 0 < (bucketOf slot buckets removed).length :=
        List.length_pos_of_mem member
      omega
    have counted := card_keys_erase present
    rw [← represents.count] at counted
    omega

/-- Rewriting the entry of a present key in place. -/
theorem Represents.update
    {buckets : List (List Entry)} {map : Finmap fun _ : Key => Entry}
    (represents : Represents key slot buckets map)
    {change : Entry → Entry} (kept : ∀ entry, key (change entry) = key entry)
    {updated : Key} {entry : Entry}
    (present : map.lookup updated = some entry) :
    Represents key slot
      (buckets.set (slot updated)
        (updateFirst (fun entry => key entry = updated) change
          (bucketOf slot buckets updated)))
      (map.insert updated (change entry)) where
  toWellFormed := by
    have sameKeys :=
      map_updateFirst (bucketOf slot buckets updated)
        (fun entry => key entry = updated) kept
    apply represents.toWellFormed.set
    · intro other member
      have keyMember := List.mem_map_of_mem (f := key) member
      rw [sameKeys] at keyMember
      rcases List.mem_map.mp keyMember with ⟨old, oldMember, equal⟩
      rw [← equal]
      exact represents.mem_placed updated old oldMember
    · rw [sameKeys]
      exact represents.distinct_bucketOf updated
  held_eq wanted := by
    rw [held_set _ _ (represents.slots _), findKey_updateFirst _ _ _ kept]
    by_cases equal : wanted = updated
    · subst equal
      rw [if_pos rfl, if_pos rfl, Finmap.lookup_insert]
      have holds := represents.held_eq wanted
      rw [held, present] at holds
      rw [holds]
      rfl
    · rw [if_neg equal, Finmap.lookup_insert_of_ne _ equal,
        ← represents.held_eq]
      split_ifs with same
      · rw [held, bucketOf, bucketOf, same]
      · rfl
  count := by
    have changed :=
      length_flatten_set (represents.getElem?_slot updated)
        (updateFirst (fun entry => key entry = updated) change
          (bucketOf slot buckets updated))
    have sameKeys :=
      map_updateFirst (bucketOf slot buckets updated)
        (fun entry => key entry = updated) kept
    have sameLength := congrArg List.length sameKeys
    rw [List.length_map, List.length_map] at sameLength
    rw [keys_insert_of_lookup present, ← represents.count]
    omega

end Table

end CodingExamples.Library.BucketTable
