import CodingExamples.RegexVm.Backtracking

/-!
# The recursive matcher

`recursive` is the matcher that `recursiveloop` was obtained from: every
step of the search is a call, where `recursiveloop` keeps only the call for
the left branch of a `Split` and turns the others into passes of a loop.

The two are compared on closed programs, whose opcodes may be invalid and
whose silent moves may form cycles.  The comparison is an induction on the
evaluation: `recursive_eq_recursiveloop` says that a call of depth `fuel`
and a loop with `fuel` passes left give the same outcome, divergence
included.
-/

namespace CodingExamples.RegexVm.Recursive

open CodingExamples.Library
open CodingExamples.Library.Outcome
open CodingExamples.RegexVm.Common
open CodingExamples.RegexVm.Backtracking

/-- `recursive(pc, sp)`, with fuel for the depth of its calls. -/
def recursive (insts : List Inst) (input : CString) :
    Nat → Nat → Nat → Outcome Fault Int
  | 0, _, _ => .timeout
  | fuel + 1, pc, sp => do
      let inst ← fetch insts pc
      match inst.op with
      | some .Char =>
          let ch ← input.read sp
          if ch.toInt ≠ inst.c then
            pure 0
          else
            recursive insts input fuel (pc + 1) (sp + 1)
      | some .Match => pure 1
      | some .Jmp => recursive insts input fuel inst.x sp
      | some .Split =>
          let left ← recursive insts input fuel inst.x sp
          if left = 1 then
            pure 1
          else
            recursive insts input fuel inst.y sp
      -- No case applies: the `return -1` after the switch.
      | none => pure (-1)

/-- The loop gives up at once on an opcode without a case. -/
theorem recursiveloop_invalid
    {insts : List Inst} {input : CString} {pc sp fuel : Nat} {inst : Inst}
    (fetched : insts[pc]? = some inst) (code : inst.op = none) :
    recursiveloop insts input (fuel + 1) pc sp = .value (-1) := by
  rw [recursiveloop, recursiveloopPass, fetch, fetched]
  simp [code]

/--
The calls that the loop replaces are tail calls, so each of them uses the
fuel that the next pass of the loop uses.
-/
theorem recursive_eq_recursiveloop
    (insts : List Inst) (input : CString) (fuel pc sp : Nat) :
    recursive insts input fuel pc sp =
      recursiveloop insts input fuel pc sp := by
  induction fuel generalizing pc sp with
  | zero => rfl
  | succ fuel ih =>
      cases fetched : insts[pc]? with
      | none =>
          rw [recursive, recursiveloop, recursiveloopPass, fetch, fetched]
          rfl
      | some inst =>
          rw [recursive, fetch, fetched, ofOption_some, value_bind]
          cases code : inst.op with
          | none => exact (recursiveloop_invalid fetched code).symm
          | some opcode =>
              cases opcode with
              | Char =>
                  rw [recursiveloop_char fetched code]
                  show (input.read sp >>= _) = (input.read sp >>= _)
                  cases input.read sp with
                  | timeout => rfl
                  | fault reason => rfl
                  | value ch =>
                      rw [value_bind, value_bind]
                      by_cases equal : ch.toInt = inst.c
                      · rw [if_neg (not_not.mpr equal), if_pos equal]
                        exact ih (pc + 1) (sp + 1)
                      · rw [if_pos equal, if_neg equal]
                        rfl
              | Match => exact (recursiveloop_match fetched code).symm
              | Jmp =>
                  rw [recursiveloop_jmp fetched code]
                  exact ih inst.x sp
              | Split =>
                  rw [recursiveloop_split fetched code]
                  -- The left branch is a call in both; the right one is not.
                  show (recursive insts input fuel inst.x sp >>= _) = _
                  rw [ih inst.x sp]
                  simp only [ih inst.y sp, pure_eq_value]

/-! ## The answers on a closed program -/

/-- An outcome that, unless the fuel ran out, is one of the three answers. -/
def Answers (outcome : Outcome Fault Int) : Prop :=
  outcome = .timeout ∨
    outcome = .value (-1) ∨ outcome = .value 0 ∨ outcome = .value 1

/--
On a closed program no pointer leaves its array, and whatever is returned is
one of the three answers.
-/
theorem recursiveloop_answers
    (program : ClosedProgram) (input : CString) (fuel : Nat) {pc sp : Nat}
    (pcInside : pc < program.insts.length)
    (spInside : sp ≤ input.chars.length) :
    Answers (recursiveloop program.insts input fuel pc sp) := by
  induction fuel generalizing pc sp with
  | zero => exact Or.inl rfl
  | succ fuel ih =>
      have fetched := List.getElem?_eq_getElem pcInside
      have closed := program.closed_of_fetched fetched
      cases code : (program.insts[pc]).op with
      | none =>
          rw [recursiveloop_invalid fetched code]
          exact Or.inr (Or.inl rfl)
      | some opcode =>
          rw [Inst.Closed, code] at closed
          cases opcode with
          | Char =>
              rw [recursiveloop_char fetched code]
              rcases read_cases input spInside with
                ⟨_, read⟩ | ⟨ch, rest, _, read, next, _⟩
              · -- The terminator never equals the instruction's constant.
                rw [read, value_bind, if_neg (fun equal => closed.2 equal.symm)]
                exact Or.inr (Or.inr (Or.inl rfl))
              · rw [read, value_bind]
                split
                · exact ih closed.1 next
                · exact Or.inr (Or.inr (Or.inl rfl))
          | Match =>
              rw [recursiveloop_match fetched code]
              exact Or.inr (Or.inr (Or.inr rfl))
          | Jmp =>
              rw [recursiveloop_jmp fetched code]
              exact ih closed spInside
          | Split =>
              rw [recursiveloop_split fetched code]
              have right := ih closed.2 spInside
              rcases ih closed.1 spInside with
                exhausted | invalid | zero | one
              · rw [exhausted]
                exact Or.inl rfl
              · rw [invalid]
                exact right
              · rw [zero]
                exact right
              · rw [one]
                exact Or.inr (Or.inr (Or.inr rfl))

/-- A returned value is one of the three answers. -/
theorem Answers.of_value
    {outcome : Outcome Fault Int} {result : Int}
    (answers : Answers outcome) (returned : outcome = .value result) :
    result = -1 ∨ result = 0 ∨ result = 1 := by
  rcases answers with exhausted | invalid | zero | one
  · simp [exhausted] at returned
  · simp_all
  · simp_all
  · simp_all

theorem Answers.ne_fault
    {outcome : Outcome Fault Int} (answers : Answers outcome)
    (reason : Fault) :
    outcome ≠ .fault reason := by
  rcases answers with exhausted | invalid | zero | one
  · simp [exhausted]
  · simp [invalid]
  · simp [zero]
  · simp [one]

/--
On every closed program, from every instruction and every position of the
string, the two matchers are equal as partial functions: neither leaves its
arrays, one returns a value exactly when the other returns the same value,
and that value is -1, 0 or 1.
-/
theorem recursive_yields_iff
    (program : ClosedProgram) (input : CString) (pc sp : Nat)
    (pcInside : pc < program.insts.length)
    (spInside : sp ≤ input.chars.length) :
    (∀ result,
      Yields (fun fuel => recursive program.insts input fuel pc sp) result ↔
        Yields (fun fuel => recursiveloop program.insts input fuel pc sp)
          result) ∧
      (∀ result,
        Yields (fun fuel => recursive program.insts input fuel pc sp)
            result →
          result = -1 ∨ result = 0 ∨ result = 1) ∧
      ∀ fuel reason,
        recursive program.insts input fuel pc sp ≠ .fault reason ∧
          recursiveloop program.insts input fuel pc sp ≠ .fault reason := by
  have same :
      (fun fuel => recursive program.insts input fuel pc sp) =
        fun fuel => recursiveloop program.insts input fuel pc sp :=
    funext fun fuel =>
      recursive_eq_recursiveloop program.insts input fuel pc sp
  have answers (fuel : Nat) :=
    recursiveloop_answers program input fuel pcInside spInside
  refine ⟨?_, ?_, ?_⟩
  · intro result
    rw [same]
  · rw [same]
    rintro result ⟨fuel, returned⟩
    exact (answers fuel).of_value returned
  · intro fuel reason
    rw [recursive_eq_recursiveloop]
    exact ⟨(answers fuel).ne_fault reason, (answers fuel).ne_fault reason⟩

/--
A program with a cycle of silent moves and an invalid opcode: a `Split` whose
left branch jumps back to it, and whose right branch has opcode 7.
-/
def silentLoop : ClosedProgram where
  insts := [⟨3, 0, 1, 2⟩, ⟨2, 0, 0, 0⟩, ⟨7, 0, 0, 0⟩]
  nonempty := by decide
  closed := by decide

/-- The matchers on the program with a silent cycle, from its `Split`. -/
theorem recursive_yields_iff_silentLoop :
    (∀ result,
      Yields (fun fuel => recursive silentLoop.insts letter fuel 0 1)
          result ↔
        Yields (fun fuel => recursiveloop silentLoop.insts letter fuel 0 1)
          result) ∧
      (∀ result,
        Yields (fun fuel => recursive silentLoop.insts letter fuel 0 1)
            result →
          result = -1 ∨ result = 0 ∨ result = 1) ∧
      ∀ fuel reason,
        recursive silentLoop.insts letter fuel 0 1 ≠ .fault reason ∧
          recursiveloop silentLoop.insts letter fuel 0 1 ≠ .fault reason :=
  recursive_yields_iff silentLoop letter 0 1 (by decide) (by decide)

end CodingExamples.RegexVm.Recursive
