import CodingExamples.Library.Execution
import CodingExamples.RegexVm.Thompson

/-!
# The steps of `thompsonvm`

The same matcher, with all its variables and one step for each point of the
program at which a list can change: both lists exist at all times, a `Split`
appends two threads one after the other, and the swap of the lists comes
before the one that is now `nlist` is cleared.
-/

namespace CodingExamples.RegexVm.ThompsonMachine

open CodingExamples.Library
open CodingExamples.RegexVm.Common
open CodingExamples.RegexVm.Thompson

/-- What `thompsonvm` does next. -/
inductive Phase where
  /-- The condition of the outer loop. -/
  | test
  /-- The condition of the inner loop, and the `switch`. -/
  | loop (i : Nat)
  /-- The second `addthread` of a `Split`. -/
  | splitRight (i y : Nat)
  /-- The inner loop has ended. -/
  | swap
  | clear
  | returned (result : Int)
deriving DecidableEq, Repr

/-- The variables, and the threads that have been processed at each position. -/
structure State where
  phase : Phase
  sp : Nat
  clist : List Nat
  nlist : List Nat
  processed : List (Nat × Nat)
deriving DecidableEq, Repr

/-- The first state in which the outer loop is tested. -/
def start : State where
  phase := .test
  sp := 0
  clist := addthread [] 0
  nlist := []
  processed := []

/-- The `switch` for the thread with index `i`; `ch` is `*sp`. -/
def dispatch (inst : Inst) (ch : Int8) (pc i : Nat) (state : State) : State :=
  let state :=
    { state with processed := state.processed ++ [(state.sp, pc)] }
  match inst.op with
  | some .Char =>
      { state with
        nlist :=
          if ch.toInt = inst.c then
            addthread state.nlist (pc + 1)
          else
            state.nlist
        phase := .loop (i + 1) }
  | some .Match => { state with phase := .returned 1 }
  | some .Jmp =>
      { state with
        clist := addthread state.clist inst.x
        phase := .loop (i + 1) }
  | some .Split =>
      { state with
        clist := addthread state.clist inst.x
        phase := .splitRight i inst.y }
  | none => { state with phase := .loop (i + 1) }

/-- One step; there is none after the return, and none outside of the arrays. -/
def next (insts : List Inst) (input : CString) (state : State) (_ : Unit) :
    Option State :=
  match state.phase with
  | .test => do
      let ch ← input.memory[state.sp]?
      if ch = 0 then
        return { state with phase := .returned 0 }
      else
        return { state with phase := .loop 0 }
  | .loop i =>
      match state.clist[i]? with
      | none => some { state with phase := .swap }
      | some pc => do
          let inst ← insts[pc]?
          let ch ← input.memory[state.sp]?
          return dispatch inst ch pc i state
  | .splitRight i y =>
      some
        { state with
          clist := addthread state.clist y
          phase := .loop (i + 1) }
  | .swap =>
      some
        { state with
          clist := state.nlist
          nlist := state.clist
          phase := .clear }
  | .clear =>
      some
        { state with
          nlist := []
          sp := state.sp + 1
          phase := .test }
  | .returned _ => none

end CodingExamples.RegexVm.ThompsonMachine
