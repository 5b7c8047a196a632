import CodingExamples.RegexVm.Main
import CodingExamples.RegexVm.Recursive
import CodingExamples.RegexVm.ThompsonRun
import Mathlib.Tactic.Linarith

/-!
# The cost of backtracking

`Searches` is the evaluation of `recursiveloop` together with the number of
passes of its loops, those of the calls included.  On the program that `main`
builds, and on as many letters as its pattern needs, that number doubles with
every pair, because every path through the pairs but the last one fails in the
second block.  The breadth-first matcher needs a number of steps that is
quadratic in the length.
-/

namespace CodingExamples.RegexVm.Passes

open CodingExamples.Library
open CodingExamples.Library.Execution
open CodingExamples.Library.Outcome
open CodingExamples.RegexVm.Common
open CodingExamples.RegexVm.Backtracking
open CodingExamples.RegexVm.Main
open CodingExamples.RegexVm.Recursive (recursiveloop_invalid)
open CodingExamples.RegexVm.ThompsonRun

/-- `recursiveloop(pc, sp)` returns the result after so many passes. -/
inductive Searches (insts : List Inst) (input : CString) :
    Nat → Nat → Int → Nat → Prop where
  | differ {pc sp : Nat} {inst : Inst} {ch : Int8}
      (fetched : insts[pc]? = some inst) (code : inst.op = some .Char)
      (read : input.read sp = .value ch) (different : ch.toInt ≠ inst.c) :
      Searches insts input pc sp 0 1
  | consume {pc sp passes : Nat} {inst : Inst} {ch : Int8} {result : Int}
      (fetched : insts[pc]? = some inst) (code : inst.op = some .Char)
      (read : input.read sp = .value ch) (equal : ch.toInt = inst.c)
      (rest : Searches insts input (pc + 1) (sp + 1) result passes) :
      Searches insts input pc sp result (passes + 1)
  | accept {pc sp : Nat} {inst : Inst}
      (fetched : insts[pc]? = some inst) (code : inst.op = some .Match) :
      Searches insts input pc sp 1 1
  | jmp {pc sp passes : Nat} {inst : Inst} {result : Int}
      (fetched : insts[pc]? = some inst) (code : inst.op = some .Jmp)
      (rest : Searches insts input inst.x sp result passes) :
      Searches insts input pc sp result (passes + 1)
  | found {pc sp passes : Nat} {inst : Inst}
      (fetched : insts[pc]? = some inst) (code : inst.op = some .Split)
      (left : Searches insts input inst.x sp 1 passes) :
      Searches insts input pc sp 1 (passes + 1)
  | retry {pc sp tried passes : Nat} {inst : Inst} {first result : Int}
      (fetched : insts[pc]? = some inst) (code : inst.op = some .Split)
      (left : Searches insts input inst.x sp first tried)
      (failed : first ≠ 1)
      (right : Searches insts input inst.y sp result passes) :
      Searches insts input pc sp result (tried + passes + 1)
  | invalid {pc sp : Nat} {inst : Inst}
      (fetched : insts[pc]? = some inst) (code : inst.op = none) :
      Searches insts input pc sp (-1) 1

section Searches

variable {insts : List Inst} {input : CString} {pc sp : Nat}

theorem searches_of_recursiveloop
    {fuel : Nat} {result : Int}
    (returned : recursiveloop insts input fuel pc sp = .value result) :
    ∃ passes, Searches insts input pc sp result passes := by
  induction fuel generalizing pc sp result with
  | zero => cases returned
  | succ fuel ih =>
      cases fetched : insts[pc]? with
      | none =>
          rw [recursiveloop, recursiveloopPass, fetch, fetched] at returned
          cases returned
      | some inst =>
          cases code : inst.op with
          | none =>
              rw [recursiveloop_invalid fetched code] at returned
              cases returned
              exact ⟨1, .invalid fetched code⟩
          | some opcode =>
              cases opcode with
              | Char =>
                  rw [recursiveloop_char fetched code,
                    bind_eq_value_iff] at returned
                  rcases returned with ⟨ch, read, returned⟩
                  split at returned
                  case isTrue equal =>
                    rcases ih returned with ⟨passes, rest⟩
                    exact ⟨_, .consume fetched code read equal rest⟩
                  case isFalse different =>
                    cases returned
                    exact ⟨1, .differ fetched code read different⟩
              | Match =>
                  rw [recursiveloop_match fetched code] at returned
                  cases returned
                  exact ⟨1, .accept fetched code⟩
              | Jmp =>
                  rw [recursiveloop_jmp fetched code] at returned
                  rcases ih returned with ⟨passes, rest⟩
                  exact ⟨_, .jmp fetched code rest⟩
              | Split =>
                  rw [recursiveloop_split fetched code,
                    bind_eq_value_iff] at returned
                  rcases returned with ⟨first, tried, returned⟩
                  rcases ih tried with ⟨triedPasses, left⟩
                  split at returned
                  case isTrue one =>
                    cases returned
                    rw [one] at left
                    exact ⟨_, .found fetched code left⟩
                  case isFalse failed =>
                    rcases ih returned with ⟨passes, right⟩
                    exact ⟨_, .retry fetched code left failed right⟩

theorem Searches.exists_fuel
    {result : Int} {passes : Nat}
    (searches : Searches insts input pc sp result passes) :
    ∃ fuel, recursiveloop insts input fuel pc sp = .value result := by
  induction searches with
  | differ fetched code read different =>
      refine ⟨1, ?_⟩
      rw [recursiveloop_char fetched code, read, value_bind,
        if_neg different]
  | consume fetched code read equal rest ih =>
      rcases ih with ⟨fuel, returned⟩
      refine ⟨fuel + 1, ?_⟩
      rw [recursiveloop_char fetched code, read, value_bind, if_pos equal,
        returned]
  | accept fetched code => exact ⟨1, recursiveloop_match fetched code⟩
  | jmp fetched code rest ih =>
      rcases ih with ⟨fuel, returned⟩
      refine ⟨fuel + 1, ?_⟩
      rw [recursiveloop_jmp fetched code, returned]
  | found fetched code left ih =>
      rcases ih with ⟨fuel, returned⟩
      refine ⟨fuel + 1, ?_⟩
      rw [recursiveloop_split fetched code, returned, value_bind, if_pos rfl]
  | @retry pc sp tried passes inst first result fetched code left failed
      right leftIh rightIh =>
      rcases leftIh with ⟨leftFuel, leftReturned⟩
      rcases rightIh with ⟨rightFuel, rightReturned⟩
      refine ⟨max leftFuel rightFuel + 1, ?_⟩
      have leftAnswer :=
        (recursiveloop_stable insts input inst.x sp).eq_of_le
          (Nat.le_max_left leftFuel rightFuel) leftReturned
      have rightAnswer :=
        (recursiveloop_stable insts input inst.y sp).eq_of_le
          (Nat.le_max_right leftFuel rightFuel) rightReturned
      rw [recursiveloop_split fetched code, leftAnswer, value_bind,
        if_neg failed, rightAnswer]
  | invalid fetched code => exact ⟨1, recursiveloop_invalid fetched code⟩

/-- The search evaluates to what the function yields. -/
theorem exists_searches_iff (result : Int) :
    (∃ passes, Searches insts input pc sp result passes) ↔
      Yields (fun fuel => recursiveloop insts input fuel pc sp) result := by
  constructor
  · rintro ⟨passes, searches⟩
    exact searches.exists_fuel
  · rintro ⟨fuel, returned⟩
    exact searches_of_recursiveloop returned

/-! ## Read backwards -/

section Inversion

variable {inst : Inst} {result : Int} {passes : Nat}

theorem Searches.of_char
    (fetched : insts[pc]? = some inst) (code : inst.op = some .Char)
    (searches : Searches insts input pc sp result passes) :
    ∃ ch, input.read sp = .value ch ∧
      (ch.toInt ≠ inst.c ∧ result = 0 ∧ passes = 1 ∨
        ch.toInt = inst.c ∧
          ∃ rest, Searches insts input (pc + 1) (sp + 1) result rest ∧
            passes = rest + 1) := by
  cases searches <;> simp_all

theorem Searches.of_match
    (fetched : insts[pc]? = some inst) (code : inst.op = some .Match)
    (searches : Searches insts input pc sp result passes) :
    result = 1 ∧ passes = 1 := by
  cases searches <;> simp_all

theorem Searches.of_jmp
    (fetched : insts[pc]? = some inst) (code : inst.op = some .Jmp)
    (searches : Searches insts input pc sp result passes) :
    ∃ rest, Searches insts input inst.x sp result rest ∧
      passes = rest + 1 := by
  cases searches <;> simp_all

theorem Searches.of_split
    (fetched : insts[pc]? = some inst) (code : inst.op = some .Split)
    (searches : Searches insts input pc sp result passes) :
    ∃ first tried, Searches insts input inst.x sp first tried ∧
      (first = 1 ∧ result = 1 ∧ passes = tried + 1 ∨
        first ≠ 1 ∧
          ∃ rest, Searches insts input inst.y sp result rest ∧
            passes = tried + rest + 1) := by
  cases searches with
  | found again _ left =>
      cases fetched.symm.trans again
      exact ⟨1, _, left, .inl ⟨rfl, rfl, rfl⟩⟩
  | retry again _ left failed right =>
      cases fetched.symm.trans again
      exact ⟨_, _, left, .inr ⟨failed, _, right, rfl⟩⟩
  | differ again other => simp_all
  | consume again other => simp_all
  | accept again other => simp_all
  | jmp again other => simp_all
  | invalid again other => simp_all

theorem Searches.of_none
    (fetched : insts[pc]? = some inst) (code : inst.op = none)
    (searches : Searches insts input pc sp result passes) :
    result = -1 ∧ passes = 1 := by
  cases searches <;> simp_all

end Inversion

/-- Result and number of passes are determined. -/
theorem Searches.unique
    {result other : Int} {passes count : Nat}
    (searches : Searches insts input pc sp result passes)
    (again : Searches insts input pc sp other count) :
    other = result ∧ count = passes := by
  induction searches generalizing other count with
  | differ fetched code read different =>
      rcases again.of_char fetched code with ⟨ch, readAgain, cases⟩
      rw [read] at readAgain
      cases readAgain
      rcases cases with ⟨_, rfl, rfl⟩ | ⟨equal, _⟩
      · exact ⟨rfl, rfl⟩
      · exact absurd equal different
  | consume fetched code read equal rest ih =>
      rcases again.of_char fetched code with ⟨ch, readAgain, cases⟩
      rw [read] at readAgain
      cases readAgain
      rcases cases with ⟨different, _⟩ | ⟨_, steps, restAgain, rfl⟩
      · exact absurd equal different
      · rcases ih restAgain with ⟨rfl, rfl⟩
        exact ⟨rfl, rfl⟩
  | accept fetched code => exact again.of_match fetched code
  | jmp fetched code rest ih =>
      rcases again.of_jmp fetched code with ⟨steps, restAgain, rfl⟩
      rcases ih restAgain with ⟨rfl, rfl⟩
      exact ⟨rfl, rfl⟩
  | found fetched code left ih =>
      rcases again.of_split fetched code with
        ⟨first, tried, leftAgain, cases⟩
      rcases ih leftAgain with ⟨rfl, rfl⟩
      rcases cases with ⟨_, rfl, rfl⟩ | ⟨failed, _⟩
      · exact ⟨rfl, rfl⟩
      · exact absurd rfl failed
  | retry fetched code left failed right leftIh rightIh =>
      rcases again.of_split fetched code with
        ⟨first, tried, leftAgain, cases⟩
      rcases leftIh leftAgain with ⟨rfl, rfl⟩
      rcases cases with ⟨one, _⟩ | ⟨_, rest, rightAgain, rfl⟩
      · exact absurd one failed
      · rcases rightIh rightAgain with ⟨rfl, rfl⟩
        exact ⟨rfl, rfl⟩
  | invalid fetched code => exact again.of_none fetched code

end Searches

/-! ## The program of `main` -/

/-- So many letters. -/
def letters (n : Nat) : CString where
  chars := List.replicate n letterA
  nonzero := by
    intro ch member
    rw [List.eq_of_mem_replicate member]
    decide

theorem read_letters_of_lt
    {n sp : Nat} (inside : sp < n) : (letters n).read sp = .value letterA := by
  have remaining :
      (letters n).chars.drop sp =
        letterA :: List.replicate (n - (sp + 1)) letterA := by
    show (List.replicate n letterA).drop sp = _
    rw [List.drop_replicate, ← List.replicate_succ]
    congr 1
    omega
  exact CString.read_of_drop_eq_cons remaining

theorem read_letters_end (n : Nat) : (letters n).read n = .value 0 := by
  have terminator := (letters n).read_terminator
  have size : (letters n).chars.length = n := List.length_replicate
  rwa [size] at terminator

/-- A `Char` for the letter, before the end. -/
theorem searches_letter
    {insts : List Inst} {n pc sp passes : Nat} {result : Int}
    (letter : Holds insts pc IsLetter) (inside : sp < n)
    (rest : Searches insts (letters n) (pc + 1) (sp + 1) result passes) :
    Searches insts (letters n) pc sp result (passes + 1) := by
  rcases letter with ⟨inst, fetched, code, constant⟩
  exact
    .consume fetched code (read_letters_of_lt inside) constant.symm rest

section Complete

variable {n : Nat} {insts : List Inst} (complete : Complete n insts)

include complete

/-- The second block fails at the end if letters have been used before. -/
theorem searches_letters
    (left sp : Nat) (inside : left ≤ n) (within : sp ≤ n) :
    Searches insts (letters n) (3 * n - left) sp
      (if left ≤ n - sp then 1 else 0) (min left (n - sp) + 1) := by
  induction left generalizing sp with
  | zero =>
      rcases complete.accept with ⟨inst, fetched, code⟩
      rw [if_pos (Nat.zero_le _), Nat.zero_min]
      exact .accept fetched code
  | succ left ih =>
      have letter := complete.blocks.letter (n - (left + 1)) (by omega)
      have index : 2 * n + (n - (left + 1)) = 3 * n - (left + 1) := by
        omega
      have next : 3 * n - (left + 1) + 1 = 3 * n - left := by
        omega
      rw [index] at letter
      rcases within.lt_or_eq with before | rfl
      · have rest := ih (sp + 1) (by omega) before
        rw [← next] at rest
        have searches := searches_letter letter before rest
        have passes :
            min left (n - (sp + 1)) + 1 + 1 =
              min (left + 1) (n - sp) + 1 := by
          omega
        have same : left ≤ n - (sp + 1) ↔ left + 1 ≤ n - sp := by
          omega
        rw [passes] at searches
        simp only [same] at searches
        exact searches
      · rcases letter with ⟨inst, fetched, code, constant⟩
        rw [Nat.sub_self, if_neg (Nat.not_succ_le_zero left),
          Nat.min_zero]
        apply Searches.differ fetched code (read_letters_end sp)
        rw [constant]
        decide

/-- Each pair is tried with and without its letter. -/
theorem searches_pairs
    (left sp : Nat) (inside : sp + left ≤ n) :
    ∃ passes,
      Searches insts (letters n) (2 * n - 2 * left) sp
          (if sp = 0 then 1 else 0) passes ∧
        2 * (passes + 2) + 2 ^ left * left =
          2 ^ left * (2 * (n - sp + 3)) := by
  induction left generalizing sp with
  | zero =>
      have block :=
        searches_letters complete n sp (Nat.le_refl n) (by omega)
      have index : 3 * n - n = 2 * n - 2 * 0 := by
        omega
      have same : n ≤ n - sp ↔ sp = 0 := by
        omega
      have shorter : min n (n - sp) = n - sp := by
        omega
      simp only [same, shorter, index] at block
      refine ⟨n - sp + 1, block, ?_⟩
      rw [pow_zero]
      omega
  | succ left ih =>
      have index : 2 * (n - (left + 1)) = 2 * n - 2 * (left + 1) := by
        omega
      have next : 2 * n - 2 * (left + 1) + 1 + 1 = 2 * n - 2 * left := by
        omega
      have optional := complete.blocks.optional (n - (left + 1)) (by omega)
      rcases complete.blocks.split (n - (left + 1)) (by omega) with
        ⟨inst, fetched, code, first, second⟩
      rw [index] at optional fetched first second
      -- The letter is used, and missing later on.
      rcases ih (sp + 1) (by omega) with ⟨tried, tail, triedCount⟩
      rw [if_neg (Nat.succ_ne_zero sp), ← next] at tail
      have failing := searches_letter optional (by omega) tail
      rcases ih sp (by omega) with ⟨passes, without, count⟩
      rw [← next] at without
      refine ⟨tried + 1 + passes + 1, ?_, ?_⟩
      · apply Searches.retry fetched code _ zero_ne_one
        · rw [second]
          exact without
        · rw [first]
          exact failing
      · have shift : n - sp = n - (sp + 1) + 1 := by
          omega
        rw [shift] at count ⊢
        rw [pow_succ]
        linarith

end Complete

/--
On the string of `n` letters, where the pattern matches, the search takes
exactly `2 ^ (n - 1) * (n + 6) - 2` passes, and the breadth-first matcher
returns after at most `n * (6 * n + 6) + 1` steps.
-/
theorem passes_exponential
    (n : Nat) (fits : 3 * n + 1 ≤ intMax)
    (memory : List Inst) (size : memory.length = 3 * n + 1) :
    ∃ program : Program,
      regexInsts n memory = some program.insts ∧
        (∃ passes,
          (∀ result count,
            Searches program.insts (letters n) 0 0 result count ↔
              result = 1 ∧ count = passes) ∧
            2 * (passes + 2) = 2 ^ n * (n + 6)) ∧
        (∃ final result,
          Reachable (ThompsonMachine.next program.insts (letters n))
              ThompsonMachine.start final ∧
            final.phase = .returned result) ∧
        ∀ steps final,
          run (ThompsonMachine.next program.insts (letters n))
              ThompsonMachine.start steps = some final →
            steps.length ≤ n * (6 * n + 6) + 1 := by
  rcases exists_complete fits size with ⟨insts, built, complete⟩
  refine
    ⟨complete.program, built, ?_, exists_returned complete.program _, ?_⟩
  · rcases searches_pairs complete n 0 (by omega) with
      ⟨passes, searches, count⟩
    rw [Nat.sub_self, if_pos rfl] at searches
    refine ⟨passes, ?_, ?_⟩
    · intro result other
      constructor
      · exact searches.unique
      · rintro ⟨rfl, rfl⟩
        exact searches
    · rw [Nat.sub_zero] at count
      linarith
  · intro steps final ran
    have bound :=
      length_add_measure_le (fun _ _ _ valid step => valid.next step)
        (valid_start complete.program (letters n)) ran
    have measure :
        remaining complete.program.insts (letters n) ThompsonMachine.start =
          n * (6 * n + 6) + 1 := by
      show ((letters n).chars.length - 0) *
        (2 * complete.program.insts.length + 4) + 1 = _
      have length : (letters n).chars.length = n := List.length_replicate
      have count : complete.program.insts.length = 3 * n + 1 :=
        complete.blocks.size
      have width : 2 * (3 * n + 1) + 4 = 6 * n + 6 := by
        omega
      rw [length, count, Nat.sub_zero, width]
    rw [measure] at bound
    exact (Nat.le_add_right _ _).trans bound

theorem passes_exponential_ten :
    ∃ program : Program,
      regexInsts 10 (List.replicate 31 ⟨9, 8, 7, 6⟩) = some program.insts ∧
        Searches program.insts (letters 10) 0 0 1 8190 := by
  rcases passes_exponential 10 (by decide) (List.replicate 31 ⟨9, 8, 7, 6⟩)
      (by decide) with
    ⟨program, built, ⟨passes, searches, count⟩, _⟩
  refine ⟨program, built, ?_⟩
  rw [searches]
  refine ⟨rfl, ?_⟩
  omega

end CodingExamples.RegexVm.Passes
