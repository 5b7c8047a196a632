import CodingExamples.Library.Outcome

/-!
# Instructions, programs and input strings of the regex machines

The backtracking and the breadth-first matcher run the same instruction
array over the same C string.  A pointer into the array is the index of the
instruction, and a `char *` into the string is an offset from its start.
Dereferencing a pointer outside the array or beyond the terminator is a
fault, so that staying inside is something to prove.

`ClosedProgram` and `Program` carry the conditions under which the matchers
are called: every target lies inside the array, no `Char` instruction
compares with the terminator and, for `Program`, every opcode is one of the
four that the machines know.
-/

namespace CodingExamples.RegexVm.Common

open CodingExamples.Library

/-- The operation codes, in the order of the enumeration. -/
inductive Opcode where
  | Char
  | Match
  | Jmp
  | Split
deriving DecidableEq, Repr

/-- One instruction; only the fields that its opcode reads are meaningful. -/
structure Inst where
  opcode : Int
  c : Int
  x : Nat
  y : Nat
deriving DecidableEq, Repr

/-- The case of `switch (pc->opcode)` that is taken, `none` if there is none. -/
def Inst.op (inst : Inst) : Option Opcode :=
  match inst.opcode with
  | 0 => some .Char
  | 1 => some .Match
  | 2 => some .Jmp
  | 3 => some .Split
  | _ => none

/-- The undefined behaviours that a matcher could run into. -/
inductive Fault where
  | outsideProgram
  | pastTerminator
deriving DecidableEq, Repr

/-- Dereference the program counter. -/
def fetch (insts : List Inst) (pc : Nat) : Outcome Fault Inst :=
  .ofOption .outsideProgram insts[pc]?

/-! ## Input strings -/

/-- The characters of a C string before its terminator. -/
structure CString where
  chars : List Int8
  nonzero : ∀ ch ∈ chars, ch ≠ 0

/-- The memory of the string, terminator included. -/
def CString.memory (input : CString) : List Int8 :=
  input.chars ++ [0]

/-- Dereference a string pointer. -/
def CString.read (input : CString) (sp : Nat) : Outcome Fault Int8 :=
  .ofOption .pastTerminator input.memory[sp]?

theorem CString.read_of_drop_eq_cons
    {input : CString} {sp : Nat} {ch : Int8} {rest : List Int8}
    (remaining : input.chars.drop sp = ch :: rest) :
    input.read sp = .value ch := by
  have inside : input.chars[sp]? = some ch := by
    rw [← List.head?_drop, remaining]
    rfl
  have bound : sp < input.chars.length :=
    (List.getElem?_eq_some_iff.mp inside).1
  rw [CString.read, CString.memory, List.getElem?_append_left bound, inside]
  rfl

theorem CString.read_terminator (input : CString) :
    input.read input.chars.length = .value 0 := by
  simp [CString.read, CString.memory]

/-! ## Programs -/

/-- The targets that an instruction uses lie inside a program of that size. -/
def Inst.Closed (count pc : Nat) (inst : Inst) : Prop :=
  match inst.op with
  | some .Char => pc + 1 < count ∧ inst.c ≠ 0
  | some .Match => True
  | some .Jmp => inst.x < count
  | some .Split => inst.x < count ∧ inst.y < count
  | none => True

instance (count pc : Nat) (inst : Inst) :
    Decidable (inst.Closed count pc) := by
  unfold Inst.Closed
  exact
    match inst.op with
    | some .Char => inferInstanceAs (Decidable (_ ∧ _))
    | some .Match => inferInstanceAs (Decidable True)
    | some .Jmp => inferInstanceAs (Decidable (_ < _))
    | some .Split => inferInstanceAs (Decidable (_ ∧ _))
    | none => inferInstanceAs (Decidable True)

/-- An instruction array that its own targets never leave. -/
structure ClosedProgram where
  insts : List Inst
  nonempty : 0 < insts.length
  closed :
    ∀ pc (inside : pc < insts.length),
      (insts[pc]).Closed insts.length pc

/-- A closed program all of whose opcodes are valid. -/
structure Program extends ClosedProgram where
  valid :
    ∀ pc (inside : pc < insts.length), (insts[pc]).op ≠ none

theorem ClosedProgram.closed_of_fetched
    (program : ClosedProgram) {pc : Nat} {inst : Inst}
    (fetched : program.insts[pc]? = some inst) :
    inst.Closed program.insts.length pc := by
  rcases List.getElem?_eq_some_iff.mp fetched with ⟨inside, rfl⟩
  exact program.closed pc inside

theorem Program.valid_of_fetched
    (program : Program) {pc : Nat} {inst : Inst}
    (fetched : program.insts[pc]? = some inst) :
    inst.op ≠ none := by
  rcases List.getElem?_eq_some_iff.mp fetched with ⟨inside, rfl⟩
  exact program.valid pc inside

section Targets

variable {count pc : Nat} {inst : Inst}

theorem Inst.Closed.char
    (closed : inst.Closed count pc) (code : inst.op = some .Char) :
    pc + 1 < count ∧ inst.c ≠ 0 := by
  rwa [Inst.Closed, code] at closed

theorem Inst.Closed.jmp
    (closed : inst.Closed count pc) (code : inst.op = some .Jmp) :
    inst.x < count := by
  rwa [Inst.Closed, code] at closed

theorem Inst.Closed.split
    (closed : inst.Closed count pc) (code : inst.op = some .Split) :
    inst.x < count ∧ inst.y < count := by
  rwa [Inst.Closed, code] at closed

end Targets

/-- The cases of a valid instruction whose targets lie inside a program. -/
inductive Inst.Complete (count pc : Nat) (inst : Inst) : Prop where
  | char (code : inst.op = some .Char) (next : pc + 1 < count)
      (nonzero : inst.c ≠ 0)
  | accept (code : inst.op = some .Match)
  | jmp (code : inst.op = some .Jmp) (target : inst.x < count)
  | split (code : inst.op = some .Split) (left : inst.x < count)
      (right : inst.y < count)

theorem Program.complete_of_fetched
    (program : Program) {pc : Nat} {inst : Inst}
    (fetched : program.insts[pc]? = some inst) :
    inst.Complete program.insts.length pc := by
  have closed := program.closed_of_fetched fetched
  cases code : inst.op with
  | none => exact absurd code (program.valid_of_fetched fetched)
  | some opcode =>
      cases opcode with
      | Char =>
          have inside := closed.char code
          exact .char code inside.1 inside.2
      | Match => exact .accept code
      | Jmp => exact .jmp code (closed.jmp code)
      | Split =>
          have inside := closed.split code
          exact .split code inside.1 inside.2

/-- The program that `main` builds for `n = 1`, the pattern `a?a`. -/
def optionalLetter : Program where
  insts :=
    [⟨3, 0, 1, 2⟩, ⟨0, 97, 0, 0⟩, ⟨0, 97, 0, 0⟩, ⟨1, 0, 0, 0⟩]
  nonempty := by decide
  closed := by decide
  valid := by decide

/-- The subject string `a`. -/
def letter : CString where
  chars := [97]
  nonzero := by simp

end CodingExamples.RegexVm.Common
