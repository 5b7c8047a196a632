import CodingExamples.RegexVm.Backtracking
import CodingExamples.RegexVm.Thompson

/-!
# Where the two matchers agree

`main` runs both matchers on the same program and string.  They answer the
same question only if a `Match` that is reached at the terminator does not
decide: the breadth-first scan stops at the terminator without looking at the
threads that survived the last character.
-/

namespace CodingExamples.RegexVm.Agreement

open CodingExamples.Library.Outcome
open CodingExamples.Library.PrefixAcceptance
open CodingExamples.RegexVm.Common
open CodingExamples.RegexVm.Automaton
open CodingExamples.RegexVm.Backtracking
open CodingExamples.RegexVm.Thompson

/-- Acceptance by position: some prefix, the whole string included. -/
theorem acceptsPrefix_iff_acceptsAt
    (insts : List Inst) (input : CString) :
    AcceptsPrefix (automaton insts) 0 input.chars ↔
      ∃ count ≤ input.chars.length, AcceptsAt insts input count :=
  acceptsPrefix_iff_evalFrom (automaton insts) 0 input.chars

/-- A prefix is the whole string or a proper prefix. -/
theorem acceptsPrefix_iff_proper_or_whole
    (insts : List Inst) (input : CString) :
    AcceptsPrefix (automaton insts) 0 input.chars ↔
      AcceptsProperPrefix insts input ∨
        AcceptsAt insts input input.chars.length := by
  rw [acceptsPrefix_iff_acceptsAt]
  constructor
  · rintro ⟨count, bound, accepts⟩
    rcases lt_or_eq_of_le bound with before | rfl
    · exact Or.inl ⟨count, before, accepts⟩
    · exact Or.inr accepts
  · rintro (⟨count, before, accepts⟩ | accepts)
    · exact ⟨count, before.le, accepts⟩
    · exact ⟨_, le_rfl, accepts⟩

theorem recursiveloop_yields_one_iff
    (program : Program) (input : CString)
    (terminates :
      ∃ result,
        Yields
          (fun fuel => recursiveloop program.insts input fuel 0 0) result) :
    Yields (fun fuel => recursiveloop program.insts input fuel 0 0) 1 ↔
      AcceptsPrefix (automaton program.insts) 0 input.chars := by
  constructor
  · intro one
    rcases recursiveloop_yields program input program.nonempty
        (Nat.zero_le _) one with ⟨_, accepted⟩ | ⟨impossible, _⟩
    · exact accepted
    · exact absurd impossible (by decide)
  · intro accepted
    rcases terminates with ⟨result, returned⟩
    rcases recursiveloop_yields program input program.nonempty
        (Nat.zero_le _) returned with ⟨one, _⟩ | ⟨_, rejected⟩
    · rwa [one] at returned
    · exact absurd accepted rejected

/--
Where the search ends, the two matchers agree exactly on the programs and
strings for which a `Match` reached at the terminator is not the only one:
if the whole string is accepted, so is a proper prefix of it.
-/
theorem thompsonvm_agrees_iff
    (program : Program) (input : CString)
    (terminates :
      ∃ result,
        Yields
          (fun fuel => recursiveloop program.insts input fuel 0 0) result) :
    (Yields (thompsonvm program.insts input) 1 ↔
        Yields (fun fuel => recursiveloop program.insts input fuel 0 0) 1) ↔
      (AcceptsAt program.insts input input.chars.length →
        AcceptsProperPrefix program.insts input) := by
  rw [thompsonvm_yields_iff,
    recursiveloop_yields_one_iff program input terminates,
    acceptsPrefix_iff_proper_or_whole]
  constructor
  · intro agree whole
    exact agree.mpr (Or.inr whole)
  · intro proper
    constructor
    · exact Or.inl
    · rintro (accepts | whole)
      · exact accepts
      · exact proper whole

/-- The pattern `a?a` on the string `a`, where the search ends. -/
theorem thompsonvm_agrees_iff_optionalLetter :
    (Yields (thompsonvm optionalLetter.insts letter) 1 ↔
        Yields
          (fun fuel => recursiveloop optionalLetter.insts letter fuel 0 0)
          1) ↔
      (AcceptsAt optionalLetter.insts letter letter.chars.length →
        AcceptsProperPrefix optionalLetter.insts letter) :=
  thompsonvm_agrees_iff optionalLetter letter ⟨1, 5, by decide⟩

/-- The search matches `a?a` on the string `a`, the scan does not. -/
theorem thompsonvm_disagrees_optionalLetter :
    Yields
        (fun fuel => recursiveloop optionalLetter.insts letter fuel 0 0) 1 ∧
      ¬ Yields (thompsonvm optionalLetter.insts letter) 1 := by
  refine ⟨⟨5, by decide⟩, fun one => ?_⟩
  have zero : Yields (thompsonvm optionalLetter.insts letter) 0 :=
    ⟨6, by decide⟩
  exact
    absurd
      (Yields.unique (thompsonvm_stable _ _) one zero) (by decide)

end CodingExamples.RegexVm.Agreement
