import CodingExamples.Library.PrefixAcceptance
import CodingExamples.RegexVm.Common

/-!
# The automaton of an instruction array

What a program accepts does not depend on how a matcher explores it.  `Move`
is one nondeterministic move of a thread: `Char` consumes an equal character,
`Jmp` and `Split` move silently.  The moves make the instruction array an
automaton whose states are instruction indices, and the characterisations at
the end read off, for each opcode, when a thread standing there can accept a
prefix of the remaining text.
-/

namespace CodingExamples.RegexVm.Automaton

open CodingExamples.Library.PrefixAcceptance
open CodingExamples.RegexVm.Common

/-- One move of a thread, labelled by the character it consumes. -/
inductive Move (insts : List Inst) : Nat → Option Int8 → Nat → Prop where
  | char {pc : Nat} {inst : Inst} {ch : Int8}
      (fetched : insts[pc]? = some inst)
      (code : inst.op = some .Char)
      (equal : ch.toInt = inst.c) :
      Move insts pc (some ch) (pc + 1)
  | jmp {pc : Nat} {inst : Inst}
      (fetched : insts[pc]? = some inst)
      (code : inst.op = some .Jmp) :
      Move insts pc none inst.x
  | splitLeft {pc : Nat} {inst : Inst}
      (fetched : insts[pc]? = some inst)
      (code : inst.op = some .Split) :
      Move insts pc none inst.x
  | splitRight {pc : Nat} {inst : Inst}
      (fetched : insts[pc]? = some inst)
      (code : inst.op = some .Split) :
      Move insts pc none inst.y

/-- The instruction array as an automaton; `Match` instructions accept. -/
def automaton (insts : List Inst) : εNFA Int8 Nat where
  step pc label := {next | Move insts pc label next}
  start := {0}
  accept := {pc | ∃ inst, insts[pc]? = some inst ∧ inst.op = some .Match}

theorem mem_step_iff
    {insts : List Inst} {pc next : Nat} {label : Option Int8} :
    next ∈ (automaton insts).step pc label ↔ Move insts pc label next :=
  Iff.rfl

theorem mem_accept_iff {insts : List Inst} {pc : Nat} :
    pc ∈ (automaton insts).accept ↔
      ∃ inst, insts[pc]? = some inst ∧ inst.op = some .Match :=
  Iff.rfl

/-! ## The moves of a fetched instruction -/

section Fetched

variable {insts : List Inst} {pc : Nat} {inst : Inst}

theorem move_some_iff
    (fetched : insts[pc]? = some inst) {ch : Int8} {next : Nat} :
    Move insts pc (some ch) next ↔
      inst.op = some .Char ∧ ch.toInt = inst.c ∧ next = pc + 1 := by
  constructor
  · intro move
    cases move with
    | char source code equal =>
        cases fetched.symm.trans source
        exact ⟨code, equal, rfl⟩
  · rintro ⟨code, equal, rfl⟩
    exact .char fetched code equal

theorem move_none_iff
    (fetched : insts[pc]? = some inst) {next : Nat} :
    Move insts pc none next ↔
      (inst.op = some .Jmp ∧ next = inst.x) ∨
        (inst.op = some .Split ∧ (next = inst.x ∨ next = inst.y)) := by
  constructor
  · intro move
    cases move with
    | jmp source code =>
        cases fetched.symm.trans source
        exact Or.inl ⟨code, rfl⟩
    | splitLeft source code =>
        cases fetched.symm.trans source
        exact Or.inr ⟨code, Or.inl rfl⟩
    | splitRight source code =>
        cases fetched.symm.trans source
        exact Or.inr ⟨code, Or.inr rfl⟩
  · rintro (⟨code, rfl⟩ | ⟨code, rfl | rfl⟩)
    · exact .jmp fetched code
    · exact .splitLeft fetched code
    · exact .splitRight fetched code

theorem accepting_iff (fetched : insts[pc]? = some inst) :
    pc ∈ (automaton insts).accept ↔ inst.op = some .Match := by
  rw [mem_accept_iff, fetched]
  simp

/-! ## Accepting from each opcode -/

theorem accepts_char_iff
    (fetched : insts[pc]? = some inst) (code : inst.op = some .Char)
    (text : List Int8) :
    AcceptsPrefix (automaton insts) pc text ↔
      ∃ ch rest, text = ch :: rest ∧ ch.toInt = inst.c ∧
        AcceptsPrefix (automaton insts) (pc + 1) rest := by
  rw [acceptsPrefix_iff]
  simp [accepting_iff fetched, mem_step_iff, move_some_iff fetched,
    move_none_iff fetched, code]

theorem accepts_match
    (fetched : insts[pc]? = some inst) (code : inst.op = some .Match)
    (text : List Int8) :
    AcceptsPrefix (automaton insts) pc text :=
  .ofAccepting _ ((accepting_iff fetched).mpr code) text

theorem accepts_jmp_iff
    (fetched : insts[pc]? = some inst) (code : inst.op = some .Jmp)
    (text : List Int8) :
    AcceptsPrefix (automaton insts) pc text ↔
      AcceptsPrefix (automaton insts) inst.x text := by
  rw [acceptsPrefix_iff]
  simp [accepting_iff fetched, mem_step_iff, move_some_iff fetched,
    move_none_iff fetched, code]

theorem accepts_split_iff
    (fetched : insts[pc]? = some inst) (code : inst.op = some .Split)
    (text : List Int8) :
    AcceptsPrefix (automaton insts) pc text ↔
      AcceptsPrefix (automaton insts) inst.x text ∨
        AcceptsPrefix (automaton insts) inst.y text := by
  rw [acceptsPrefix_iff]
  simp [accepting_iff fetched, mem_step_iff, move_some_iff fetched,
    move_none_iff fetched, code]

end Fetched

/-! ## Staying inside the program -/

theorem Move.source_inside
    {insts : List Inst} {pc next : Nat} {label : Option Int8}
    (move : Move insts pc label next) : pc < insts.length := by
  cases move with
  | char fetched => exact (List.getElem?_eq_some_iff.mp fetched).1
  | jmp fetched => exact (List.getElem?_eq_some_iff.mp fetched).1
  | splitLeft fetched => exact (List.getElem?_eq_some_iff.mp fetched).1
  | splitRight fetched => exact (List.getElem?_eq_some_iff.mp fetched).1

theorem Move.target_inside
    (program : ClosedProgram) {pc next : Nat} {label : Option Int8}
    (move : Move program.insts pc label next) :
    next < program.insts.length := by
  cases move with
  | char fetched code =>
      exact ((program.closed_of_fetched fetched).char code).1
  | jmp fetched code =>
      exact (program.closed_of_fetched fetched).jmp code
  | splitLeft fetched code =>
      exact ((program.closed_of_fetched fetched).split code).1
  | splitRight fetched code =>
      exact ((program.closed_of_fetched fetched).split code).2

/-! ## Silent moves -/

/-- The targets that an instruction reaches without consuming a character. -/
def silentTargets (inst : Inst) : List Nat :=
  match inst.op with
  | some .Jmp => [inst.x]
  | some .Split => [inst.x, inst.y]
  | _ => []

theorem mem_silentTargets_of_move
    {insts : List Inst} {pc next : Nat} {inst : Inst}
    (fetched : insts[pc]? = some inst) (move : Move insts pc none next) :
    next ∈ silentTargets inst := by
  rw [silentTargets]
  rcases (move_none_iff fetched).mp move with
    ⟨code, rfl⟩ | ⟨code, rfl | rfl⟩ <;> simp [code]

/-- A program whose silent targets all lie further on has no silent cycle. -/
theorem silentAcyclic_of_forward
    {insts : List Inst}
    (forward :
      ∀ pc (inside : pc < insts.length),
        ∀ next ∈ silentTargets insts[pc], pc < next) :
    SilentAcyclic (automaton insts) := by
  refine SilentAcyclic.ofRank _ id fun pc next move => ?_
  have inside : pc < insts.length := Move.source_inside move
  exact
    forward pc inside next
      (mem_silentTargets_of_move (List.getElem?_eq_getElem inside) move)


theorem optionalLetter_acyclic :
    SilentAcyclic (automaton optionalLetter.insts) :=
  silentAcyclic_of_forward (by decide)

/-- Without silent cycles, silent moves cannot go on forever. -/
theorem silentMove_wellFounded
    {insts : List Inst} (acyclic : SilentAcyclic (automaton insts)) :
    WellFounded
      (fun target source => SilentMove (automaton insts) source target) :=
  acyclic.wellFounded _ (Set.finite_lt_nat insts.length)
    (fun _ _ move => Move.source_inside move)

end CodingExamples.RegexVm.Automaton
