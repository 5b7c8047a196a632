import Mathlib.GroupTheory.Perm.Cycle.Basic

/-!
# Inserting a point into a cycle

A permutation that is followed by the transposition of a fixed point and
another point visits the fixed point just before the other one.  If it was a
cycle on a set, it is now a cycle on the set with the new point, and if it was
not, it is not one now.
-/

namespace CodingExamples.Library.CycleInsertion

open Equiv Equiv.Perm

variable {Point : Type} {f g : Perm Point} {s : Set Point}

/--
A map that takes each step of one permutation to some steps of another one
takes its cycles to cycles.
-/
theorem sameCycle_transport
    (image : Point → Point) (maps : Set.BijOn g s s)
    (step : ∀ x ∈ s, f.SameCycle (image x) (image (g x)))
    {x y : Point} (member : x ∈ s) (same : g.SameCycle x y) :
    f.SameCycle (image x) (image y) := by
  rcases same with ⟨count, rfl⟩
  induction count using Int.induction_on with
  | zero => exact SameCycle.refl f (image x)
  | succ count ih =>
      have inside : (g ^ (count : ℤ)) x ∈ s :=
        (maps.perm_zpow count).mapsTo member
      have next := step _ inside
      rw [← Perm.mul_apply, ← zpow_one_add, add_comm] at next
      exact ih.trans next
  | pred count ih =>
      have inside : (g ^ (-(count : ℤ) - 1)) x ∈ s :=
        (maps.perm_zpow _).mapsTo member
      have next := step _ inside
      rw [← Perm.mul_apply, ← zpow_one_add, add_sub_cancel] at next
      exact ih.trans next.symm

variable [DecidableEq Point] {a b : Point}

section Insert

variable (fixed : f a = a)

include fixed

theorem swap_mul_apply_self : (swap a b * f) a = b := by
  rw [Perm.mul_apply, fixed, swap_apply_left]

omit fixed in
theorem swap_mul_apply_of_eq {x : Point} (last : f x = b) :
    (swap a b * f) x = a := by
  rw [Perm.mul_apply, last, swap_apply_right]

variable (new : a ∉ s)

include new

theorem swap_mul_apply_of_ne
    {x : Point} (inside : x ∈ s) (other : f x ≠ b) :
    (swap a b * f) x = f x := by
  have different : f x ≠ a := by
    intro same
    have equal : x = a := f.injective (same.trans fixed.symm)
    rw [equal] at inside
    exact new inside
  rw [Perm.mul_apply, swap_apply_of_ne_of_ne different other]

/-- The transposition keeps the set with the new point. -/
theorem bijOn_insert_iff (member : b ∈ s) :
    Set.BijOn (swap a b * f) (insert a s) (insert a s) ↔
      Set.BijOn f s s := by
  have swaps : Set.BijOn (swap a b) (insert a s) (insert a s) :=
    bijOn_swap (Set.mem_insert a s) (Set.mem_insert_of_mem a member)
  have inserted :
      Set.BijOn f (insert a s) (insert a s) ↔ Set.BijOn f s s := by
    have outside : f a ∉ s := by
      rw [fixed]
      exact new
    have image := Set.BijOn.insert_iff new outside
    rw [fixed] at image
    exact image
  constructor
  · intro whole
    have twice := swaps.comp whole
    rw [← Perm.coe_mul, swap_mul_self_mul] at twice
    exact inserted.mp twice
  · intro part
    rw [Perm.coe_mul]
    exact swaps.comp (inserted.mpr part)

/-- The new point is visited just before the other one. -/
theorem isCycleOn_insert
    (member : b ∈ s) (cycle : f.IsCycleOn s) :
    (swap a b * f).IsCycleOn (insert a s) := by
  have step (x : Point) (inside : x ∈ s) :
      (swap a b * f).SameCycle x (f x) := by
    by_cases last : f x = b
    · refine ⟨2, ?_⟩
      rw [zpow_two, Perm.mul_apply, swap_mul_apply_of_eq last,
        swap_mul_apply_self fixed, last]
    · refine ⟨1, ?_⟩
      rw [zpow_one, swap_mul_apply_of_ne fixed new inside last]
  have reached (x : Point) (inside : x ∈ insert a s) :
      (swap a b * f).SameCycle b x := by
    rcases inside with rfl | old
    · symm
      refine ⟨1, ?_⟩
      rw [zpow_one, swap_mul_apply_self fixed]
    · exact
        sameCycle_transport id cycle.1 step member
          (cycle.2 member old)
  refine ⟨(bijOn_insert_iff fixed new member).mpr cycle.1, ?_⟩
  intro x inside y other
  exact (reached x inside).symm.trans (reached y other)

/-- Without the new point there is still one cycle. -/
theorem isCycleOn_of_insert
    (member : b ∈ s) (cycle : (swap a b * f).IsCycleOn (insert a s)) :
    f.IsCycleOn s := by
  let skip : Point → Point := fun x => if x = a then b else x
  have old {x : Point} (inside : x ∈ s) : skip x = x := by
    apply if_neg
    rintro rfl
    exact new inside
  have step (x : Point) (inside : x ∈ insert a s) :
      f.SameCycle (skip x) (skip ((swap a b * f) x)) := by
    rcases inside with rfl | within
    · have first : skip x = b := if_pos rfl
      rw [swap_mul_apply_self fixed, first, old member]
    · rw [old within]
      by_cases last : f x = b
      · have first : skip a = b := if_pos rfl
        rw [swap_mul_apply_of_eq last, first, ← last]
        exact sameCycle_apply_right.mpr (SameCycle.refl f x)
      · have kept := (bijOn_insert_iff fixed new member).mp cycle.1
        rw [swap_mul_apply_of_ne fixed new within last,
          old (kept.mapsTo within)]
        exact sameCycle_apply_right.mpr (SameCycle.refl f x)
  refine ⟨(bijOn_insert_iff fixed new member).mp cycle.1, ?_⟩
  intro x inside y other
  have same :=
    sameCycle_transport skip cycle.1 step (Set.mem_insert_of_mem a inside)
      (cycle.2 (Set.mem_insert_of_mem a inside)
        (Set.mem_insert_of_mem a other))
  rw [old inside, old other] at same
  exact same

/--
A transposition of a new point with a point of the new set makes one cycle if
and only if there was one cycle before, and the points are different.
-/
theorem isCycleOn_insert_iff
    (nonempty : s.Nonempty) (within : b ∈ insert a s) :
    (swap a b * f).IsCycleOn (insert a s) ↔
      b ≠ a ∧ f.IsCycleOn s := by
  constructor
  · intro cycle
    have different : b ≠ a := by
      rintro rfl
      rw [swap_self, ← Perm.one_def, one_mul] at cycle
      rcases nonempty with ⟨x, inside⟩
      have nontrivial : (insert b s).Nontrivial :=
        ⟨b, Set.mem_insert b s, x, Set.mem_insert_of_mem b inside,
          fun same => new (same ▸ inside)⟩
      exact cycle.apply_ne nontrivial (Set.mem_insert b s) fixed
    exact
      ⟨different,
        isCycleOn_of_insert fixed new (within.resolve_left different) cycle⟩
  · rintro ⟨different, cycle⟩
    exact isCycleOn_insert fixed new (within.resolve_left different) cycle

end Insert

end CodingExamples.Library.CycleInsertion
