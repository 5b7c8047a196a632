import CodingExamples.RegexVm.Backtracking

/-!
# The program that `main` builds

For a number `n` the array holds the instructions of the pattern `a?^n a^n`:
`n` pairs of a `Split` and a `Char`, and behind them `n` times a `Char` and the
`Match`.  One loop fills both blocks.  The array is not initialised before, and
the fields that an opcode does not use are never set.

The matcher explores up to `2^n` paths through the pairs.  They all lead to the
second block, and those that consume less accept whenever the others do.
-/

namespace CodingExamples.RegexVm.Main

open CodingExamples.Library.PrefixAcceptance
open CodingExamples.RegexVm.Common
open CodingExamples.RegexVm.Automaton
open CodingExamples.RegexVm.Backtracking

/-- `INT_MAX`. -/
def intMax : Nat := 0x7fffffff

/-- The value of an operation code. -/
def codeOf : Opcode → Int
  | .Char => 0
  | .Match => 1
  | .Jmp => 2
  | .Split => 3

/-- The character `'a'`. -/
def letterA : Int8 := 97

/-- `&regex_insts[index]`, where the index is an expression of type `int`. -/
def address (insts : List Inst) (index : Nat) : Option Nat :=
  if index ≤ intMax ∧ index ≤ insts.length then some index else none

/-- Assignments to the fields of `regex_insts[index]`. -/
def assign (insts : List Inst) (index : Nat) (change : Inst → Inst) :
    Option (List Inst) :=
  if index ≤ intMax ∧ index < insts.length then
    some (insts.modify index change)
  else
    none

/-- The body of the loop. -/
def body (n : Nat) (insts : List Inst) (i : Nat) : Option (List Inst) := do
  -- instructions of a?
  let x ← address insts (2 * i + 1)
  let y ← address insts (2 * i + 2)
  let insts ← assign insts (2 * i) fun inst =>
    { inst with opcode := codeOf .Split, x := x, y := y }
  let insts ← assign insts (2 * i + 1) fun inst =>
    { inst with opcode := codeOf .Char, c := letterA.toInt }
  -- instructions of a
  assign insts (2 * n + i) fun inst =>
    { inst with opcode := codeOf .Char, c := letterA.toInt }

/-- `regex_insts`, from what is in its memory before. -/
def regexInsts (n : Nat) (memory : List Inst) : Option (List Inst) := do
  let insts ← (List.range n).foldlM (body n) memory
  assign insts (3 * n) fun inst => { inst with opcode := codeOf .Match }

/-! ## The two blocks -/

/-- The instruction at an index. -/
def Holds (insts : List Inst) (index : Nat) (property : Inst → Prop) : Prop :=
  ∃ inst, insts[index]? = some inst ∧ property inst

/-- A `Split` to the following two instructions. -/
def IsSplit (index : Nat) (inst : Inst) : Prop :=
  inst.op = some .Split ∧ inst.x = index + 1 ∧ inst.y = index + 2

/-- A `Char` that compares with the letter. -/
def IsLetter (inst : Inst) : Prop :=
  inst.op = some .Char ∧ inst.c = letterA.toInt

/-- What a number of passes of the loop have stored. -/
structure Laid (n passes : Nat) (insts : List Inst) : Prop where
  size : insts.length = 3 * n + 1
  split : ∀ i < passes, Holds insts (2 * i) (IsSplit (2 * i))
  optional : ∀ i < passes, Holds insts (2 * i + 1) IsLetter
  letter : ∀ i < passes, Holds insts (2 * n + i) IsLetter

section Assign

variable {insts : List Inst} {index : Nat} {change : Inst → Inst}

theorem Holds.other
    {other : Nat} {property : Inst → Prop}
    (holds : Holds insts other property) (different : index ≠ other) :
    Holds (insts.modify index change) other property := by
  rw [Holds, List.getElem?_modify_ne _ _ different]
  exact holds

/-- The assigned fields are those of the instruction at the index. -/
theorem holds_modify
    (inside : index < insts.length) {property : Inst → Prop}
    (changed : ∀ inst, property (change inst)) :
    Holds (insts.modify index change) index property := by
  refine ⟨change insts[index], ?_, changed _⟩
  rw [List.getElem?_modify_eq, List.getElem?_eq_getElem inside]
  rfl

end Assign

/-- A pass of the loop stays inside of the array. -/
theorem body_eq
    {n i : Nat} (fits : 3 * n + 1 ≤ intMax) (before : i < n)
    {insts : List Inst} (size : insts.length = 3 * n + 1) :
    body n insts i =
      some
        (((insts.modify (2 * i) fun inst =>
            { inst with
              opcode := codeOf .Split, x := 2 * i + 1, y := 2 * i + 2 }).modify
            (2 * i + 1) fun inst =>
              { inst with opcode := codeOf .Char, c := letterA.toInt }).modify
          (2 * n + i) fun inst =>
            { inst with opcode := codeOf .Char, c := letterA.toInt }) := by
  have first : 2 * i + 1 ≤ intMax ∧ 2 * i + 1 ≤ insts.length := by
    omega
  have second : 2 * i + 2 ≤ intMax ∧ 2 * i + 2 ≤ insts.length := by
    omega
  have split : 2 * i ≤ intMax ∧ 2 * i < insts.length := by
    omega
  have optional : 2 * i + 1 ≤ intMax ∧ 2 * i + 1 < insts.length := by
    omega
  have letter : 2 * n + i ≤ intMax ∧ 2 * n + i < insts.length := by
    omega
  simp only [body, address, if_pos first, if_pos second, assign, if_pos split,
    List.length_modify, if_pos optional, if_pos letter, Option.bind_eq_bind,
    Option.bind_some]

/-- The blocks grow by one pair and one letter. -/
theorem Laid.body
    {n passes : Nat} (fits : 3 * n + 1 ≤ intMax) (before : passes < n)
    {insts : List Inst} (laid : Laid n passes insts) :
    ∃ result, Main.body n insts passes = some result ∧
      Laid n (passes + 1) result := by
  refine ⟨_, body_eq fits before laid.size, ?_⟩
  constructor
  case size =>
    rw [List.length_modify, List.length_modify, List.length_modify, laid.size]
  case split =>
    intro i inside
    rcases Nat.lt_succ_iff_lt_or_eq.mp inside with earlier | rfl
    · apply Holds.other _ (by omega)
      apply Holds.other _ (by omega)
      exact (laid.split i earlier).other (by omega)
    · apply Holds.other _ (by omega)
      apply Holds.other _ (by omega)
      apply holds_modify
      · rw [laid.size]
        omega
      · exact fun inst => ⟨rfl, rfl, rfl⟩
  case optional =>
    intro i inside
    rcases Nat.lt_succ_iff_lt_or_eq.mp inside with earlier | rfl
    · apply Holds.other _ (by omega)
      apply Holds.other _ (by omega)
      exact (laid.optional i earlier).other (by omega)
    · apply Holds.other _ (by omega)
      apply holds_modify
      · rw [List.length_modify, laid.size]
        omega
      · exact fun inst => ⟨rfl, rfl⟩
  case letter =>
    intro i inside
    rcases Nat.lt_succ_iff_lt_or_eq.mp inside with earlier | rfl
    · apply Holds.other _ (by omega)
      apply Holds.other _ (by omega)
      exact (laid.letter i earlier).other (by omega)
    · apply holds_modify
      · rw [List.length_modify, List.length_modify, laid.size]
        omega
      · exact fun inst => ⟨rfl, rfl⟩

theorem exists_laid
    {n : Nat} (fits : 3 * n + 1 ≤ intMax) {memory : List Inst}
    (size : memory.length = 3 * n + 1) {passes : Nat} (ordered : passes ≤ n) :
    ∃ insts, (List.range passes).foldlM (body n) memory = some insts ∧
      Laid n passes insts := by
  induction passes with
  | zero =>
      refine ⟨memory, rfl, size, ?_, ?_, ?_⟩ <;>
        exact fun i impossible => absurd impossible (Nat.not_lt_zero i)
  | succ passes ih =>
      rcases ih (Nat.le_of_succ_le ordered) with ⟨insts, before, laid⟩
      rcases laid.body fits ordered with ⟨result, after, next⟩
      refine ⟨result, ?_, next⟩
      rw [List.range_succ, List.foldlM_append, before]
      simp [after]

/-- The two blocks and the last instruction. -/
structure Complete (n : Nat) (insts : List Inst) : Prop where
  blocks : Laid n n insts
  accept : Holds insts (3 * n) fun inst => inst.op = some .Match

theorem exists_complete
    {n : Nat} (fits : 3 * n + 1 ≤ intMax) {memory : List Inst}
    (size : memory.length = 3 * n + 1) :
    ∃ insts, regexInsts n memory = some insts ∧ Complete n insts := by
  rcases exists_laid fits size (Nat.le_refl n) with ⟨insts, filled, laid⟩
  have inside : 3 * n ≤ intMax ∧ 3 * n < insts.length := by
    rw [laid.size]
    omega
  refine
    ⟨insts.modify (3 * n) fun inst => { inst with opcode := codeOf .Match },
      ?_, ⟨?_, ?_, ?_, ?_⟩, ?_⟩
  · rw [regexInsts, filled]
    exact if_pos inside
  · rw [List.length_modify, laid.size]
  · intro i before
    exact (laid.split i before).other (by omega)
  · intro i before
    exact (laid.optional i before).other (by omega)
  · intro i before
    exact (laid.letter i before).other (by omega)
  · exact holds_modify inside.2 fun inst => rfl

/-! ## The program -/

/-- Which instruction is at an index. -/
inductive Kind (n pc : Nat) (inst : Inst) : Prop where
  | split (before : pc < 2 * n) (splits : IsSplit pc inst)
  | letter (before : pc < 3 * n) (compares : IsLetter inst)
  | accept (accepts : inst.op = some .Match)

theorem Holds.of_getElem
    {insts : List Inst} {pc : Nat} {property : Inst → Prop}
    (holds : Holds insts pc property) (inside : pc < insts.length) :
    property insts[pc] := by
  rcases holds with ⟨inst, fetched, proved⟩
  rw [List.getElem?_eq_getElem inside] at fetched
  cases fetched
  exact proved

theorem Complete.kind
    {n pc : Nat} {insts : List Inst} (complete : Complete n insts)
    (inside : pc < insts.length) : Kind n pc insts[pc] := by
  have size := complete.blocks.size
  by_cases pairs : pc < 2 * n
  · rcases Nat.even_or_odd' pc with ⟨i, rfl | rfl⟩
    · exact
        .split pairs ((complete.blocks.split i (by omega)).of_getElem inside)
    · exact
        .letter (by omega)
          ((complete.blocks.optional i (by omega)).of_getElem inside)
  · by_cases letters : pc < 3 * n
    · have letter := complete.blocks.letter (pc - 2 * n) (by omega)
      have index : 2 * n + (pc - 2 * n) = pc := by
        omega
      rw [index] at letter
      exact .letter letters (letter.of_getElem inside)
    · have last : pc = 3 * n := by
        omega
      subst last
      exact .accept (complete.accept.of_getElem inside)

/-- No target and no next instruction is outside of the array. -/
theorem Complete.closed
    {n pc : Nat} {insts : List Inst} (complete : Complete n insts)
    (inside : pc < insts.length) : insts[pc].Closed insts.length pc := by
  have size := complete.blocks.size
  cases complete.kind inside with
  | split before splits =>
      rcases splits with ⟨code, left, right⟩
      rw [Inst.Closed, code]
      dsimp only
      omega
  | letter before compares =>
      rcases compares with ⟨code, constant⟩
      rw [Inst.Closed, code]
      dsimp only
      refine ⟨by omega, ?_⟩
      rw [constant]
      decide
  | accept accepts =>
      rw [Inst.Closed, accepts]
      exact trivial

theorem Complete.valid
    {n pc : Nat} {insts : List Inst} (complete : Complete n insts)
    (inside : pc < insts.length) : insts[pc].op ≠ none := by
  cases complete.kind inside with
  | split before splits =>
      rw [splits.1]
      exact Option.some_ne_none _
  | letter before compares =>
      rw [compares.1]
      exact Option.some_ne_none _
  | accept accepts =>
      rw [accepts]
      exact Option.some_ne_none _

/-- The array is a program. -/
def Complete.program
    {n : Nat} {insts : List Inst} (complete : Complete n insts) :
    Program where
  insts := insts
  nonempty := by
    rw [complete.blocks.size]
    exact Nat.succ_pos _
  closed _ inside := complete.closed inside
  valid _ inside := complete.valid inside

/-- Silent moves go forward. -/
theorem Complete.acyclic
    {n : Nat} {insts : List Inst} (complete : Complete n insts) :
    SilentAcyclic (automaton insts) := by
  apply silentAcyclic_of_forward
  intro pc inside next member
  cases complete.kind inside with
  | split before splits =>
      rcases splits with ⟨code, left, right⟩
      simp only [silentTargets, code, left, right, List.mem_cons,
        List.not_mem_nil, or_false] at member
      omega
  | letter before compares =>
      simp [silentTargets, compares.1] at member
  | accept accepts => simp [silentTargets, accepts] at member

/-! ## What is accepted -/

section Accepts

variable {n : Nat} {insts : List Inst} (complete : Complete n insts)

/-- A `Char` consumes the letter. -/
theorem accepts_letter_iff
    {pc : Nat} (letter : Holds insts pc IsLetter) (text : List Int8) :
    AcceptsPrefix (automaton insts) pc text ↔
      ∃ rest, text = letterA :: rest ∧
        AcceptsPrefix (automaton insts) (pc + 1) rest := by
  rcases letter with ⟨inst, fetched, code, constant⟩
  rw [accepts_char_iff fetched code]
  constructor
  · rintro ⟨ch, rest, same, equal, accepts⟩
    have letter : ch = letterA := by
      apply Int8.toInt_inj.mp
      rw [equal, constant]
    exact ⟨rest, by rw [same, letter], accepts⟩
  · rintro ⟨rest, same, accepts⟩
    exact ⟨letterA, rest, same, constant.symm, accepts⟩

include complete

/-- In the second block, as many letters are needed as there are left. -/
theorem accepts_letters_iff
    (left : Nat) (inside : left ≤ n) (text : List Int8) :
    AcceptsPrefix (automaton insts) (3 * n - left) text ↔
      List.replicate left letterA <+: text := by
  induction left generalizing text with
  | zero =>
      rcases complete.accept with ⟨inst, fetched, code⟩
      exact
        iff_of_true (accepts_match fetched code text) List.nil_prefix
  | succ left ih =>
      have letter := complete.blocks.letter (n - (left + 1)) (by omega)
      have index : 2 * n + (n - (left + 1)) = 3 * n - (left + 1) := by
        omega
      have next : 3 * n - (left + 1) + 1 = 3 * n - left := by
        omega
      rw [index] at letter
      rw [accepts_letter_iff letter, next, List.replicate_succ]
      constructor
      · rintro ⟨rest, rfl, accepts⟩
        rw [List.cons_prefix_cons]
        exact ⟨rfl, (ih (by omega) rest).mp accepts⟩
      · rintro ⟨after, rfl⟩
        refine ⟨List.replicate left letterA ++ after, rfl, ?_⟩
        rw [ih (by omega)]
        exact List.prefix_append _ _

/-- A path that consumes a letter in a pair accepts no more than the others. -/
theorem accepts_pairs_iff
    (left : Nat) (inside : left ≤ n) (text : List Int8) :
    AcceptsPrefix (automaton insts) (2 * n - 2 * left) text ↔
      List.replicate n letterA <+: text := by
  induction left generalizing text with
  | zero =>
      have index : 2 * n - 2 * 0 = 3 * n - n := by
        omega
      rw [index, accepts_letters_iff complete n (Nat.le_refl n)]
  | succ left ih =>
      have index : 2 * (n - (left + 1)) = 2 * n - 2 * (left + 1) := by
        omega
      have next : 2 * n - 2 * (left + 1) + 1 + 1 = 2 * n - 2 * left := by
        omega
      have optional := complete.blocks.optional (n - (left + 1)) (by omega)
      rcases complete.blocks.split (n - (left + 1)) (by omega) with
        ⟨inst, fetched, code, first, second⟩
      rw [index] at optional fetched first second
      rw [accepts_split_iff fetched code, first, second,
        accepts_letter_iff optional, next, ih (by omega)]
      constructor
      · rintro (⟨rest, rfl, accepts⟩ | accepts)
        · rw [ih (by omega)] at accepts
          -- One letter more than in the rest, and one letter less to go.
          have shorter :
              List.replicate n letterA <+:
                letterA :: List.replicate n letterA := by
            rw [← List.replicate_succ, List.replicate_succ']
            exact List.prefix_append _ _
          refine shorter.trans ?_
          rw [List.cons_prefix_cons]
          exact ⟨rfl, accepts⟩
        · exact accepts
      · exact .inr

end Accepts

/--
For every number whose array has an `int` as its size, and whatever
was in the memory of the array: the instructions are a program without a cycle
of silent moves, and on every string the matcher returns 1 if the string begins
with that number of letters, and 0 otherwise.
-/
theorem main_correct
    (n : Nat) (fits : 3 * n + 1 ≤ intMax)
    (memory : List Inst) (size : memory.length = 3 * n + 1) :
    ∃ program : Program,
      regexInsts n memory = some program.insts ∧
        SilentAcyclic (automaton program.insts) ∧
        ∀ input : CString,
          ∃ enough, ∀ fuel ≥ enough,
            recursiveloop program.insts input fuel 0 0 =
              .value
                (if List.replicate n letterA <+: input.chars then
                  1
                else
                  0) := by
  rcases exists_complete fits size with ⟨insts, built, complete⟩
  refine ⟨complete.program, built, complete.acyclic, ?_⟩
  intro input
  have first : 2 * n - 2 * n = 0 := by
    omega
  have accepts := accepts_pairs_iff complete n (Nat.le_refl n) input.chars
  rw [first] at accepts
  apply
    recursiveloop_decides complete.program complete.acyclic input
      complete.program.nonempty (Nat.zero_le _)
  exact accepts

/-- Two letters, in an array that was not initialised. -/
theorem main_correct_two :
    ∃ program : Program,
      regexInsts 2 (List.replicate 7 ⟨9, 8, 7, 6⟩) = some program.insts ∧
        SilentAcyclic (automaton program.insts) ∧
        ∀ input : CString,
          ∃ enough, ∀ fuel ≥ enough,
            recursiveloop program.insts input fuel 0 0 =
              .value
                (if List.replicate 2 letterA <+: input.chars then
                  1
                else
                  0) :=
  main_correct 2 (by decide) _ (by decide)

end CodingExamples.RegexVm.Main
