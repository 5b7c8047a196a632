import CodingExamples.RegexVm.Automaton

/-!
# The backtracking matcher `recursiveloop`

The matcher explores the runs of a program depth first: the left branch of a
`Split` by a recursive call, everything else by the next pass of its loop.
One unit of fuel pays for one pass.

`recursiveloop_verdict` is the partial correctness of the search, for every
program whose targets stay inside it.  It needs no assumption on cycles,
because an answer is only given once every explored branch has answered.
Termination needs that silent moves form no cycle, and is proved by induction
on the remaining input and, for equal inputs, on the silent moves.
-/

namespace CodingExamples.RegexVm.Backtracking

open CodingExamples.Library
open CodingExamples.Library.Outcome
open CodingExamples.Library.PrefixAcceptance
open CodingExamples.RegexVm.Common
open CodingExamples.RegexVm.Automaton

/-- How one pass of the `while (1)` loop ends. -/
inductive Pass where
  | returned (result : Int)
  | continued (pc sp : Nat)
deriving DecidableEq, Repr

/-- The body of the loop; `call` is the recursive call. -/
def recursiveloopPass (insts : List Inst) (input : CString)
    (call : Nat → Nat → Outcome Fault Int) (pc sp : Nat) :
    Outcome Fault Pass := do
  let inst ← fetch insts pc
  match inst.op with
  | some .Char =>
      let ch ← input.read sp
      if ch.toInt ≠ inst.c then
        pure (.returned 0)
      else
        pure (.continued (pc + 1) (sp + 1))
  | some .Match => pure (.returned 1)
  | some .Jmp => pure (.continued inst.x sp)
  | some .Split =>
      let left ← call inst.x sp
      if left = 1 then
        pure (.returned 1)
      else
        pure (.continued inst.y sp)
  -- No case applies: the `return -1` after the switch.
  | none => pure (.returned (-1))

/-- `recursiveloop(pc, sp)`, with fuel for its passes and its recursion. -/
def recursiveloop (insts : List Inst) (input : CString) :
    Nat → Nat → Nat → Outcome Fault Int
  | 0, _, _ => .timeout
  | fuel + 1, pc, sp => do
      let pass ←
        recursiveloopPass insts input (recursiveloop insts input fuel) pc sp
      match pass with
      | .returned result => pure result
      | .continued pc sp => recursiveloop insts input fuel pc sp

/-! ## Fuel -/

theorem recursiveloopPass_mono
    (insts : List Inst) (input : CString)
    {small large : Nat → Nat → Outcome Fault Int}
    (approximation :
      ∀ pc sp, Approximates (small pc sp) (large pc sp))
    (pc sp : Nat) :
    Approximates
      (recursiveloopPass insts input small pc sp)
      (recursiveloopPass insts input large pc sp) := by
  refine (Approximates.refl (fetch insts pc)).bind fun inst => ?_
  split
  · exact Approximates.refl _
  · exact Approximates.refl _
  · exact Approximates.refl _
  · exact
      (approximation inst.x sp).bind fun left => Approximates.refl _
  · exact Approximates.refl _

theorem recursiveloop_stable
    (insts : List Inst) (input : CString) (pc sp : Nat) :
    Stable (fun fuel => recursiveloop insts input fuel pc sp) := by
  intro fuel
  induction fuel generalizing pc sp with
  | zero => exact Approximates.timeout _
  | succ fuel ih =>
      have first :=
        recursiveloopPass_mono insts input
          (fun nextPc nextSp => ih nextPc nextSp) pc sp
      refine first.bind fun pass => ?_
      cases pass with
      | returned result => exact Approximates.refl _
      | continued nextPc nextSp => exact ih nextPc nextSp

/-! ## One pass from each opcode -/

section Pass

variable {insts : List Inst} {input : CString} {pc sp fuel : Nat}
  {inst : Inst}

theorem recursiveloop_char
    (fetched : insts[pc]? = some inst) (code : inst.op = some .Char) :
    recursiveloop insts input (fuel + 1) pc sp =
      (input.read sp >>= fun ch =>
        if ch.toInt = inst.c then
          recursiveloop insts input fuel (pc + 1) (sp + 1)
        else
          .value 0) := by
  rw [recursiveloop, recursiveloopPass, fetch, fetched]
  simp only [ofOption_some, value_bind, code]
  cases input.read sp with
  | timeout => rfl
  | fault reason => rfl
  | value ch =>
      by_cases equal : ch.toInt = inst.c <;> simp [equal]

theorem recursiveloop_match
    (fetched : insts[pc]? = some inst) (code : inst.op = some .Match) :
    recursiveloop insts input (fuel + 1) pc sp = .value 1 := by
  rw [recursiveloop, recursiveloopPass, fetch, fetched]
  simp [code]

theorem recursiveloop_jmp
    (fetched : insts[pc]? = some inst) (code : inst.op = some .Jmp) :
    recursiveloop insts input (fuel + 1) pc sp =
      recursiveloop insts input fuel inst.x sp := by
  rw [recursiveloop, recursiveloopPass, fetch, fetched]
  simp [code]

theorem recursiveloop_split
    (fetched : insts[pc]? = some inst) (code : inst.op = some .Split) :
    recursiveloop insts input (fuel + 1) pc sp =
      (recursiveloop insts input fuel inst.x sp >>= fun left =>
        if left = 1 then
          .value 1
        else
          recursiveloop insts input fuel inst.y sp) := by
  rw [recursiveloop, recursiveloopPass, fetch, fetched]
  simp only [ofOption_some, value_bind, code]
  cases recursiveloop insts input fuel inst.x sp with
  | timeout => rfl
  | fault reason => rfl
  | value left => by_cases equal : left = 1 <;> simp [equal]

end Pass

/-! ## Partial correctness -/

/-- An outcome that, unless the fuel ran out, is the answer 1 or 0. -/
def Verdict (outcome : Outcome Fault Int) (accepted : Prop) : Prop :=
  outcome = .timeout ∨
    (outcome = .value 1 ∧ accepted) ∨ (outcome = .value 0 ∧ ¬ accepted)

theorem Verdict.congr
    {outcome : Outcome Fault Int} {left right : Prop}
    (verdict : Verdict outcome left) (same : right ↔ left) :
    Verdict outcome right := by
  rwa [Verdict, same]

theorem Verdict.of_value
    {outcome : Outcome Fault Int} {accepted : Prop} {result : Int}
    (verdict : Verdict outcome accepted)
    (returned : outcome = .value result) :
    (result = 1 ∧ accepted) ∨ (result = 0 ∧ ¬ accepted) := by
  rcases verdict with exhausted | ⟨one, accepts⟩ | ⟨zero, rejects⟩
  · simp [exhausted] at returned
  · rw [one] at returned
    exact Or.inl ⟨by simpa using returned.symm, accepts⟩
  · rw [zero] at returned
    exact Or.inr ⟨by simpa using returned.symm, rejects⟩

/-- What the character under `sp` is, when `sp` is inside the string. -/
theorem read_cases
    (input : CString) {sp : Nat} (inside : sp ≤ input.chars.length) :
    (input.chars.drop sp = [] ∧ input.read sp = .value 0) ∨
      ∃ ch rest, input.chars.drop sp = ch :: rest ∧
        input.read sp = .value ch ∧ sp + 1 ≤ input.chars.length ∧
          input.chars.drop (sp + 1) = rest := by
  cases remaining : input.chars.drop sp with
  | nil =>
      have atEnd : sp = input.chars.length :=
        le_antisymm inside (List.drop_eq_nil_iff.mp remaining)
      rw [atEnd]
      exact Or.inl ⟨rfl, input.read_terminator⟩
  | cons ch rest =>
      refine Or.inr
        ⟨ch, rest, rfl, CString.read_of_drop_eq_cons remaining, ?_, ?_⟩
      · have positive : 0 < (input.chars.drop sp).length := by
          simp [remaining]
        rw [List.length_drop] at positive
        omega
      · rw [← List.drop_drop, remaining]
        rfl

/--
Whenever the search answers, the answer is 1 if some run from `pc` accepts a
prefix of the remaining input and 0 otherwise; it never faults.
-/
theorem recursiveloop_verdict
    (program : Program) (input : CString) (fuel : Nat) {pc sp : Nat}
    (pcInside : pc < program.insts.length)
    (spInside : sp ≤ input.chars.length) :
    Verdict (recursiveloop program.insts input fuel pc sp)
      (AcceptsPrefix (automaton program.insts) pc
        (input.chars.drop sp)) := by
  induction fuel generalizing pc sp with
  | zero => exact Or.inl rfl
  | succ fuel ih =>
      have fetched := List.getElem?_eq_getElem pcInside
      cases program.complete_of_fetched fetched with
      | char code inside nonzero =>
          rw [recursiveloop_char fetched code]
          have accepts :=
            accepts_char_iff fetched code (input.chars.drop sp)
          rcases read_cases input spInside with
            ⟨finished, read⟩ | ⟨ch, rest, remaining, read, next, tail⟩
          · -- The terminator never equals the instruction's constant.
            rw [read, value_bind, if_neg (fun equal => nonzero equal.symm)]
            refine Or.inr (Or.inr ⟨rfl, fun accepted => ?_⟩)
            rw [accepts, finished] at accepted
            simp at accepted
          · rw [read, value_bind]
            by_cases equal : ch.toInt = program.insts[pc].c
            · rw [if_pos equal]
              apply (ih inside next).congr
              rw [accepts, remaining, tail]
              simp [equal]
            · rw [if_neg equal]
              refine Or.inr (Or.inr ⟨rfl, fun accepted => ?_⟩)
              rw [accepts, remaining] at accepted
              simp [equal] at accepted
      | accept code =>
          exact Or.inr (Or.inl
            ⟨recursiveloop_match fetched code,
              accepts_match fetched code _⟩)
      | jmp code target =>
          rw [recursiveloop_jmp fetched code]
          exact
            (ih target spInside).congr (accepts_jmp_iff fetched code _)
      | split code left right =>
          rw [recursiveloop_split fetched code]
          have accepts :=
            accepts_split_iff fetched code (input.chars.drop sp)
          rcases ih left spInside with
            exhausted | ⟨one, accepted⟩ | ⟨zero, rejected⟩
          · rw [exhausted]
            exact Or.inl rfl
          · rw [one]
            exact Or.inr (Or.inl ⟨rfl, accepts.mpr (Or.inl accepted)⟩)
          · -- The left branch is exhausted: only the right one is left.
            rw [zero]
            apply (ih right spInside).congr
            rw [accepts]
            exact or_iff_right rejected

/-- A returned value is 1 or 0, and it is 1 exactly for an accepted prefix. -/
theorem recursiveloop_yields
    (program : Program) (input : CString) {pc sp : Nat} {result : Int}
    (pcInside : pc < program.insts.length)
    (spInside : sp ≤ input.chars.length)
    (returned :
      Yields (fun fuel => recursiveloop program.insts input fuel pc sp)
        result) :
    (result = 1 ∧
        AcceptsPrefix (automaton program.insts) pc
          (input.chars.drop sp)) ∨
      (result = 0 ∧
        ¬ AcceptsPrefix (automaton program.insts) pc
          (input.chars.drop sp)) := by
  rcases returned with ⟨fuel, returned⟩
  exact
    (recursiveloop_verdict program input fuel pcInside
      spInside).of_value returned

/-! ## Termination -/

/-- Some amount of fuel lets the search from `(pc, sp)` finish. -/
def Terminates (insts : List Inst) (input : CString) (pc sp : Nat) : Prop :=
  ∃ fuel, recursiveloop insts input fuel pc sp ≠ .timeout

theorem terminates_match
    {insts : List Inst} {input : CString} {pc sp : Nat} {inst : Inst}
    (fetched : insts[pc]? = some inst) (code : inst.op = some .Match) :
    Terminates insts input pc sp :=
  ⟨1, by simp [recursiveloop_match fetched code]⟩

theorem Terminates.jmp
    {insts : List Inst} {input : CString} {pc sp : Nat} {inst : Inst}
    (fetched : insts[pc]? = some inst) (code : inst.op = some .Jmp)
    (target : Terminates insts input inst.x sp) :
    Terminates insts input pc sp := by
  rcases target with ⟨fuel, finished⟩
  refine ⟨fuel + 1, ?_⟩
  rw [recursiveloop_jmp fetched code]
  exact finished

theorem Terminates.split
    {insts : List Inst} {input : CString} {pc sp : Nat} {inst : Inst}
    (fetched : insts[pc]? = some inst) (code : inst.op = some .Split)
    (left : Terminates insts input inst.x sp)
    (right : Terminates insts input inst.y sp) :
    Terminates insts input pc sp := by
  rcases left with ⟨leftFuel, leftFinished⟩
  rcases right with ⟨rightFuel, rightFinished⟩
  refine ⟨max leftFuel rightFuel + 1, ?_⟩
  have leftAnswer :=
    ((recursiveloop_stable insts input inst.x sp).approximates
      (Nat.le_max_left leftFuel rightFuel)).eq_of_ne_timeout leftFinished
  have rightAnswer :=
    ((recursiveloop_stable insts input inst.y sp).approximates
      (Nat.le_max_right leftFuel rightFuel)).eq_of_ne_timeout rightFinished
  rw [recursiveloop_split fetched code, leftAnswer, rightAnswer]
  cases answer : recursiveloop insts input leftFuel inst.x sp with
  | timeout => exact absurd answer leftFinished
  | fault reason => simp
  | value result =>
      rw [value_bind]
      split
      · simp
      · exact rightFinished

/--
If the search ends from every later position, it ends from this one: the
instructions between two characters are explored along silent moves.
-/
theorem terminates_of_later
    (program : Program)
    (acyclic : SilentAcyclic (automaton program.insts))
    (input : CString) {sp : Nat} (spInside : sp ≤ input.chars.length)
    (later :
      ∀ pc < program.insts.length, sp + 1 ≤ input.chars.length →
        Terminates program.insts input pc (sp + 1))
    (pc : Nat) (pcInside : pc < program.insts.length) :
    Terminates program.insts input pc sp := by
  induction pc using (silentMove_wellFounded acyclic).induction with
  | _ pc ih =>
      have fetched := List.getElem?_eq_getElem pcInside
      cases program.complete_of_fetched fetched with
      | char code inside nonzero =>
          rcases read_cases input spInside with
            ⟨_, read⟩ | ⟨ch, rest, _, read, next, _⟩
          · refine ⟨1, ?_⟩
            rw [recursiveloop_char fetched code, read, value_bind,
              if_neg (fun equal => nonzero equal.symm)]
            simp
          · by_cases equal : ch.toInt = program.insts[pc].c
            · rcases later (pc + 1) inside next with ⟨fuel, finished⟩
              refine ⟨fuel + 1, ?_⟩
              rw [recursiveloop_char fetched code, read, value_bind,
                if_pos equal]
              exact finished
            · refine ⟨1, ?_⟩
              rw [recursiveloop_char fetched code, read, value_bind,
                if_neg equal]
              simp
      | accept code => exact terminates_match fetched code
      | jmp code target =>
          exact .jmp fetched code (ih _ (.jmp fetched code) target)
      | split code left right =>
          exact .split fetched code
            (ih _ (.splitLeft fetched code) left)
            (ih _ (.splitRight fetched code) right)

/-- Without silent cycles the search ends from every position. -/
theorem recursiveloop_terminates
    (program : Program)
    (acyclic : SilentAcyclic (automaton program.insts))
    (input : CString) {pc sp : Nat}
    (pcInside : pc < program.insts.length)
    (spInside : sp ≤ input.chars.length) :
    Terminates program.insts input pc sp := by
  induction count : input.chars.length - sp generalizing pc sp with
  | zero =>
      refine
        terminates_of_later program acyclic input spInside ?_ pc pcInside
      intro _ _ next
      omega
  | succ remaining ih =>
      refine
        terminates_of_later program acyclic input spInside ?_ pc pcInside
      intro nextPc nextInside next
      exact ih nextInside next (by omega)

/-- The search decides whatever the acceptance of a prefix is equivalent to. -/
theorem recursiveloop_decides
    (program : Program)
    (acyclic : SilentAcyclic (automaton program.insts))
    (input : CString) {pc sp : Nat}
    (pcInside : pc < program.insts.length)
    (spInside : sp ≤ input.chars.length)
    {accepted : Prop} [Decidable accepted]
    (same :
      AcceptsPrefix (automaton program.insts) pc (input.chars.drop sp) ↔
        accepted) :
    ∃ enough, ∀ fuel ≥ enough,
      recursiveloop program.insts input fuel pc sp =
        .value (if accepted then 1 else 0) := by
  rcases recursiveloop_terminates program acyclic input pcInside
    spInside with ⟨enough, finished⟩
  refine ⟨enough, fun fuel ordered => ?_⟩
  have answer :=
    ((recursiveloop_stable program.insts input pc sp).approximates
      ordered).eq_of_ne_timeout finished
  rw [answer]
  rcases recursiveloop_verdict program input enough pcInside spInside with
    exhausted | ⟨one, accepts⟩ | ⟨zero, rejects⟩
  · exact absurd exhausted finished
  · rw [one, if_pos (same.mp accepts)]
  · rw [zero, if_neg (fun holds => rejects (same.mpr holds))]

open scoped Classical in
/--
Without silent cycles the search from `(pc, sp)` ends without a fault and
answers whether some run from there accepts a prefix of the remaining input.
-/
theorem recursiveloop_correct
    (program : Program)
    (acyclic : SilentAcyclic (automaton program.insts))
    (input : CString) (pc sp : Nat)
    (pcInside : pc < program.insts.length)
    (spInside : sp ≤ input.chars.length) :
    ∃ enough, ∀ fuel ≥ enough,
      recursiveloop program.insts input fuel pc sp =
        .value
          (if AcceptsPrefix (automaton program.insts) pc
              (input.chars.drop sp) then 1 else 0) :=
  recursiveloop_decides program acyclic input pcInside spInside Iff.rfl

open scoped Classical in
/-- The search for `a?a` in the string `a`. -/
theorem recursiveloop_correct_optionalLetter :
    ∃ enough, ∀ fuel ≥ enough,
      recursiveloop optionalLetter.insts letter fuel 0 0 =
        .value
          (if AcceptsPrefix (automaton optionalLetter.insts) 0
              (letter.chars.drop 0) then 1 else 0) :=
  recursiveloop_correct optionalLetter optionalLetter_acyclic letter 0 0
    (by decide) (by decide)

end CodingExamples.RegexVm.Backtracking
