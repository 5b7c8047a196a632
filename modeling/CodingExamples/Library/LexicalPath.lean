import Mathlib.Data.List.Infix

/-!
# Lexical resolution of paths

A path is a list of segments: one that stays where it is, one that goes up,
or a name.  Resolving it from a directory goes up at most to the root.

A path can also be reduced on its own: what is left is a number of levels
that it climbs and the names that it then descends through.  Resolving it
from a directory drops that many names of the directory and appends the
others, and from this it can be read off when the result is below a given
directory.
-/

namespace CodingExamples.Library.LexicalPath

variable {Name : Type}

inductive Segment (Name : Type) where
  | stay
  | up
  | down (name : Name)
deriving DecidableEq, Repr

/-- One segment from a directory. -/
def Segment.enter (directory : List Name) : Segment Name → List Name
  | .stay => directory
  | .up => directory.dropLast
  | .down name => directory ++ [name]

/-- The directory that a path leads to. -/
def walk (directory : List Name) (path : List (Segment Name)) : List Name :=
  path.foldl Segment.enter directory

@[simp]
theorem walk_nil (directory : List Name) : walk directory [] = directory :=
  rfl

theorem walk_append
    (directory : List Name) (before after : List (Segment Name)) :
    walk directory (before ++ after) = walk (walk directory before) after :=
  List.foldl_append

/-- The levels that a path climbs and the names that it ends with. -/
structure Reduced (Name : Type) where
  climbs : Nat
  names : List Name
deriving DecidableEq, Repr

/-- One more segment at the end. -/
def Reduced.extend (reduced : Reduced Name) : Segment Name → Reduced Name
  | .stay => reduced
  | .up =>
      match reduced.names with
      | [] => { reduced with climbs := reduced.climbs + 1 }
      | _ :: _ => { reduced with names := reduced.names.dropLast }
  | .down name => { reduced with names := reduced.names ++ [name] }

/-- Cancel each name with the segment that goes up from it. -/
def reduce (path : List (Segment Name)) : Reduced Name :=
  path.foldl Reduced.extend ⟨0, []⟩

/-- Where a reduced path leads to. -/
def Reduced.from (reduced : Reduced Name) (directory : List Name) :
    List Name :=
  directory.take (directory.length - reduced.climbs) ++ reduced.names

theorem Reduced.from_extend
    (reduced : Reduced Name) (directory : List Name)
    (segment : Segment Name) :
    (reduced.extend segment).from directory =
      segment.enter (reduced.from directory) := by
  rcases reduced with ⟨climbs, names⟩
  cases segment with
  | stay => rfl
  | up =>
      cases names with
      | nil =>
          show directory.take (directory.length - (climbs + 1)) ++ [] =
            (directory.take (directory.length - climbs) ++ []).dropLast
          rw [List.append_nil, List.append_nil, List.dropLast_eq_take,
            List.take_take, List.length_take]
          congr 1
          omega
      | cons first rest =>
          exact
            (List.dropLast_append_of_ne_nil (List.cons_ne_nil first rest)).symm
  | down name => exact (List.append_assoc _ _ _).symm

/-- Walking a path is walking its reduced form. -/
theorem walk_eq_from_reduce
    (directory : List Name) (path : List (Segment Name)) :
    walk directory path = (reduce path).from directory := by
  have general (reduced : Reduced Name) :
      path.foldl Segment.enter (reduced.from directory) =
        (path.foldl Reduced.extend reduced).from directory := by
    induction path generalizing reduced with
    | nil => rfl
    | cons segment path ih =>
        rw [List.foldl_cons, List.foldl_cons, ← Reduced.from_extend]
        exact ih (reduced.extend segment)
  have start : Reduced.from ⟨0, []⟩ directory = directory := by
    simp [Reduced.from]
  rw [walk, reduce, ← general, start]

/-! ## Below a directory -/

/-- The path leads below the directory. -/
def Below (directory other : List Name) : Prop :=
  ∃ rest, rest ≠ [] ∧ other = directory ++ rest

/--
A stem of a chain with the directory, followed by names, is below the
directory exactly if the names go on with the directory after the stem and
reach deeper.
-/
theorem below_append_iff
    {directory stem names : List Name}
    (chain : stem <+: directory ∨ directory <+: stem) :
    Below directory (stem ++ names) ↔
      directory.drop stem.length <+: names ∧
        directory.length < stem.length + names.length := by
  constructor
  · rintro ⟨rest, nonempty, same⟩
    have positive := List.length_pos_iff.mpr nonempty
    have lengths := congrArg List.length same
    rw [List.length_append, List.length_append] at lengths
    refine ⟨?_, by omega⟩
    rcases chain with ⟨more, rfl⟩ | ⟨more, rfl⟩
    · rw [List.append_assoc, List.append_cancel_left_eq] at same
      rw [List.drop_left, same]
      exact List.prefix_append more rest
    · rw [List.drop_eq_nil_of_le (by simp)]
      exact List.nil_prefix
  · rintro ⟨⟨rest, continued⟩, deeper⟩
    rcases chain with ⟨more, rfl⟩ | ⟨more, rfl⟩
    · rw [List.drop_left] at continued
      refine ⟨rest, ?_, ?_⟩
      · rintro rfl
        rw [← continued] at deeper
        simp at deeper
      · rw [← continued, List.append_assoc]
    · refine ⟨more ++ names, ?_, List.append_assoc _ _ _⟩
      intro nothing
      rw [List.append_eq_nil_iff] at nothing
      rw [nothing.1, nothing.2] at deeper
      simp at deeper

/-- One segment leads to a directory of one chain with every stem. -/
theorem chain_enter
    (directory : List Name) (segment : Segment Name) (level : Nat) :
    directory.take level <+: segment.enter directory ∨
      segment.enter directory <+: directory.take level := by
  have stem : directory.take level <+: directory := List.take_prefix _ _
  cases segment with
  | stay => exact Or.inl stem
  | up =>
      exact
        List.prefix_or_prefix_of_prefix stem (List.dropLast_prefix directory)
  | down name =>
      exact Or.inl (stem.trans (List.prefix_append directory [name]))

/--
A path that starts in `parent` leads below the directory that one segment
leads to, exactly if after its climbs it descends through the rest of that
directory and deeper.
-/
theorem below_walk_iff
    (parent : List Name) (last : Segment Name)
    (path : List (Segment Name)) :
    Below (last.enter parent) (walk parent path) ↔
      (last.enter parent).drop (parent.length - (reduce path).climbs) <+:
          (reduce path).names ∧
        (last.enter parent).length <
          parent.length - (reduce path).climbs +
            (reduce path).names.length := by
  have level :
      (parent.take (parent.length - (reduce path).climbs)).length =
        parent.length - (reduce path).climbs := by
    rw [List.length_take]
    omega
  rw [walk_eq_from_reduce, Reduced.from,
    below_append_iff (chain_enter parent last _), level]

end CodingExamples.Library.LexicalPath
