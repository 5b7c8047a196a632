import CodingExamples.Library.Worklist
import CodingExamples.RegexVm.Automaton

/-!
# The breadth-first matcher `thompsonvm`

The matcher keeps the instructions at which some thread stands after the
characters read so far.  For one character it scans `clist` from the front:
silent instructions append their targets to `clist` itself, so the scan also
reaches them, and a matching `Char` appends its successor to `nlist`.

`ThreadInvariant` says what the two lists contain in the middle of a scan.
At the end of a scan `clist` is the silent closure of its first contents and
`nlist` holds the successors by the current character.  The scan over the
whole string therefore follows the reachable sets of the automaton, and
answers 1 exactly when one of them contains a `Match` instruction before the
terminator is reached.
-/

namespace CodingExamples.RegexVm.Thompson

open CodingExamples.Library
open CodingExamples.Library.Outcome
open CodingExamples.Library.PrefixAcceptance
open CodingExamples.Library.Worklist
open CodingExamples.RegexVm.Common
open CodingExamples.RegexVm.Automaton

/-- Append the thread unless the scan over the list finds an equal one. -/
def addthread (list : List Nat) (t : Nat) : List Nat :=
  if list.any (fun other => other == t) then list else list ++ [t]

/-- How the threads of one character, or one of them, end. -/
inductive ThreadPass where
  | matched
  | next (clist nlist : List Nat)
deriving DecidableEq, Repr

/-- The switch of the inner loop for the thread at `pc`. -/
def threadPass (insts : List Inst) (ch : Int8) (pc : Nat)
    (clist nlist : List Nat) : Outcome Fault ThreadPass := do
  let inst ← fetch insts pc
  match inst.op with
  | some .Char =>
      if ch.toInt = inst.c then
        pure (.next clist (addthread nlist (pc + 1)))
      else
        pure (.next clist nlist)
  | some .Match => pure .matched
  | some .Jmp => pure (.next (addthread clist inst.x) nlist)
  | some .Split =>
      pure (.next (addthread (addthread clist inst.x) inst.y) nlist)
  | none => pure (.next clist nlist)

/-- The inner loop from index `i`; `clist` may grow while it runs. -/
def threadLoop (insts : List Inst) (ch : Int8) :
    Nat → Nat → List Nat → List Nat → Outcome Fault ThreadPass
  | 0, _, _, _ => .timeout
  | fuel + 1, i, clist, nlist =>
      match clist[i]? with
      | none => pure (.next clist nlist)
      | some pc => do
          let pass ← threadPass insts ch pc clist nlist
          match pass with
          | .matched => pure .matched
          | .next clist nlist => threadLoop insts ch fuel (i + 1) clist nlist

/-- The outer loop from `sp`; the cleared list is always the new `nlist`. -/
def charLoop (insts : List Inst) (input : CString) :
    Nat → Nat → List Nat → Outcome Fault Int
  | 0, _, _ => .timeout
  | fuel + 1, sp, clist => do
      let ch ← input.read sp
      if ch = 0 then
        pure 0
      else
        let pass ← threadLoop insts ch fuel 0 clist []
        match pass with
        | .matched => pure 1
        | .next _ nlist => charLoop insts input fuel (sp + 1) nlist

/-- `thompsonvm(prog, input)`, with fuel for the passes of its loops. -/
def thompsonvm (insts : List Inst) (input : CString) (fuel : Nat) :
    Outcome Fault Int :=
  charLoop insts input fuel 0 (addthread [] 0)

/-! ## Fuel -/

theorem threadLoop_stable
    (insts : List Inst) (ch : Int8) (i : Nat) (clist nlist : List Nat) :
    Stable (fun fuel => threadLoop insts ch fuel i clist nlist) := by
  intro fuel
  induction fuel generalizing i clist nlist with
  | zero => exact Approximates.timeout _
  | succ fuel ih =>
      simp only [threadLoop] at ih ⊢
      cases clist[i]? with
      | none => exact Approximates.refl _
      | some pc =>
          refine (Approximates.refl _).bind fun pass => ?_
          cases pass with
          | matched => exact Approximates.refl _
          | next grown nextGrown => exact ih _ _ _

theorem charLoop_stable
    (insts : List Inst) (input : CString) (sp : Nat) (clist : List Nat) :
    Stable (fun fuel => charLoop insts input fuel sp clist) := by
  intro fuel
  induction fuel generalizing sp clist with
  | zero => exact Approximates.timeout _
  | succ fuel ih =>
      refine (Approximates.refl (input.read sp)).bind fun ch => ?_
      split
      · exact Approximates.refl _
      · refine (threadLoop_stable insts ch 0 clist [] fuel).bind fun pass => ?_
        cases pass with
        | matched => exact Approximates.refl _
        | next grown nextGrown => exact ih _ _

theorem thompsonvm_stable (insts : List Inst) (input : CString) :
    Stable (thompsonvm insts input) :=
  charLoop_stable insts input 0 (addthread [] 0)

/-! ## The invariant of the inner loop -/

theorem addthread_eq_appendNew (list : List Nat) (t : Nat) :
    addthread list t = appendNew list t := by
  rw [addthread, appendNew]
  by_cases present : t ∈ list <;> simp [present]

/--
The lists after the threads below index `i` have been processed for the
character `ch`, when the scan began with the threads of `start`.
-/
structure ThreadInvariant (program : Program) (ch : Int8)
    (start : List Nat) (i : Nat) (clist nlist : List Nat) : Prop where
  nodup : clist.Nodup
  inside : ∀ pc ∈ clist, pc < program.insts.length
  index_le : i ≤ clist.length
  started : ∀ pc ∈ start, pc ∈ clist
  reached :
    ∀ pc ∈ clist,
      pc ∈ (automaton program.insts).εClosure {pc | pc ∈ start}
  closed :
    ∀ pc ∈ clist.take i, ∀ next,
      Move program.insts pc none next → next ∈ clist
  rejecting :
    ∀ pc ∈ clist.take i, pc ∉ (automaton program.insts).accept
  nextNodup : nlist.Nodup
  next_iff :
    ∀ next, next ∈ nlist ↔
      ∃ pc ∈ clist.take i, Move program.insts pc (some ch) next

namespace ThreadInvariant

variable {program : Program} {ch : Int8} {start : List Nat} {i : Nat}
  {clist nlist : List Nat}

theorem initial
    (symbol : Int8) (nodup : start.Nodup)
    (inside : ∀ pc ∈ start, pc < program.insts.length) :
    ThreadInvariant program symbol start 0 start [] where
  nodup := nodup
  inside := inside
  index_le := Nat.zero_le _
  started _ member := member
  reached _ member := εNFA.subset_εClosure _ _ member
  closed := by simp
  rejecting := by simp
  nextNodup := List.nodup_nil
  next_iff := by simp

/--
Processing the thread at index `i` keeps the invariant when it appends to
`clist` its silent successors and to `nlist` its successors by `ch`.
-/
theorem advance
    (invariant : ThreadInvariant program ch start i clist nlist)
    {pc : Nat} (current : clist[i]? = some pc)
    (rejects : pc ∉ (automaton program.insts).accept)
    {grown nextGrown : List Nat}
    (extension : clist <+: grown) (nodup : grown.Nodup)
    (members :
      ∀ next, next ∈ grown ↔
        next ∈ clist ∨ Move program.insts pc none next)
    (nextNodup : nextGrown.Nodup)
    (nextMembers :
      ∀ next, next ∈ nextGrown ↔
        next ∈ nlist ∨ Move program.insts pc (some ch) next) :
    ThreadInvariant program ch start (i + 1) grown nextGrown := by
  have bound : i + 1 ≤ clist.length :=
    (List.getElem?_eq_some_iff.mp current).1
  have processed : grown.take (i + 1) = clist.take (i + 1) :=
    take_eq_of_prefix extension bound
  have currentMember : pc ∈ clist := List.mem_of_getElem? current
  exact
    { nodup := nodup
      inside := by
        intro next member
        rcases (members next).mp member with old | move
        · exact invariant.inside next old
        · exact Move.target_inside program.toClosedProgram move
      index_le := bound.trans extension.length_le
      started := by
        intro state member
        exact (members state).mpr (Or.inl (invariant.started state member))
      reached := by
        intro next member
        rcases (members next).mp member with old | move
        · exact invariant.reached next old
        · exact
            εNFA.εClosure.step pc next move
              (invariant.reached pc currentMember)
      closed := by
        intro state member next move
        rw [processed, mem_take_succ_iff current] at member
        rcases member with old | rfl
        · exact (members next).mpr
            (Or.inl (invariant.closed state old next move))
        · exact (members next).mpr (Or.inr move)
      rejecting := by
        intro state member
        rw [processed, mem_take_succ_iff current] at member
        rcases member with old | rfl
        · exact invariant.rejecting state old
        · exact rejects
      nextNodup := nextNodup
      next_iff := by
        intro next
        rw [nextMembers, invariant.next_iff, processed]
        constructor
        · rintro (⟨state, member, move⟩ | move)
          · exact
              ⟨state, (mem_take_succ_iff current).mpr (Or.inl member), move⟩
          · exact
              ⟨pc, (mem_take_succ_iff current).mpr (Or.inr rfl), move⟩
        · rintro ⟨state, member, move⟩
          rcases (mem_take_succ_iff current).mp member with old | rfl
          · exact Or.inl ⟨state, old, move⟩
          · exact Or.inr move }

/-- After the scan, `clist` is the silent closure of its first contents. -/
theorem clist_eq_closure
    (invariant :
      ThreadInvariant program ch start clist.length clist nlist) :
    {pc | pc ∈ clist} =
      (automaton program.insts).εClosure {pc | pc ∈ start} := by
  refine
    eq_εClosure_of_closed _ invariant.started invariant.reached ?_
  intro pc member next move
  refine invariant.closed pc ?_ next move
  rw [List.take_length]
  exact member

theorem nlist_inside
    (invariant : ThreadInvariant program ch start i clist nlist) :
    ∀ next ∈ nlist, next < program.insts.length := by
  intro next member
  rcases (invariant.next_iff next).mp member with ⟨pc, _, move⟩
  exact Move.target_inside program.toClosedProgram move

end ThreadInvariant

/-! ## The scan of one character -/

/-- One thread either is at a `Match` or keeps the invariant. -/
theorem threadPass_spec
    {program : Program} {ch : Int8} {start : List Nat} {i : Nat}
    {clist nlist : List Nat}
    (invariant : ThreadInvariant program ch start i clist nlist)
    {pc : Nat} (current : clist[i]? = some pc) :
    (threadPass program.insts ch pc clist nlist = .value .matched ∧
        pc ∈ (automaton program.insts).accept) ∨
      ∃ grown nextGrown,
        threadPass program.insts ch pc clist nlist =
            .value (.next grown nextGrown) ∧
          ThreadInvariant program ch start (i + 1) grown nextGrown := by
  have inside := invariant.inside pc (List.mem_of_getElem? current)
  have fetched := List.getElem?_eq_getElem inside
  have advance := invariant.advance current
  rw [threadPass, fetch, fetched]
  simp only [ofOption_some, value_bind, addthread_eq_appendNew]
  simp only [accepting_iff fetched, move_none_iff fetched,
    move_some_iff fetched] at advance ⊢
  cases code : (program.insts[pc]).op with
  | none => exact absurd code (program.valid_of_fetched fetched)
  | some opcode =>
      simp only [code] at advance
      cases opcode with
      | Char =>
          refine Or.inr ?_
          by_cases equal : ch.toInt = (program.insts[pc]).c
          · refine
              ⟨clist, appendNew nlist (pc + 1), by simp [equal],
                advance (by simp) List.prefix_rfl invariant.nodup (by simp)
                  (nodup_appendNew invariant.nextNodup _) ?_⟩
            simp [equal]
          · refine
              ⟨clist, nlist, by simp [equal],
                advance (by simp) List.prefix_rfl invariant.nodup (by simp)
                  invariant.nextNodup ?_⟩
            simp [equal]
      | Match => exact Or.inl ⟨rfl, rfl⟩
      | Jmp =>
          refine Or.inr
            ⟨appendNew clist (program.insts[pc]).x, nlist, rfl,
              advance (by simp) (prefix_appendNew _ _)
                (nodup_appendNew invariant.nodup _) ?_
                invariant.nextNodup (by simp)⟩
          simp
      | Split =>
          refine Or.inr
            ⟨appendNew (appendNew clist (program.insts[pc]).x)
                (program.insts[pc]).y,
              nlist, rfl,
              advance (by simp)
                ((prefix_appendNew _ _).trans (prefix_appendNew _ _))
                (nodup_appendNew (nodup_appendNew invariant.nodup _) _) ?_
                invariant.nextNodup (by simp)⟩
          simp [or_assoc]

/--
With fuel for one pass per instruction the scan ends: either at a `Match`
that is silently reachable from its first threads, or with every thread
processed.
-/
theorem threadLoop_spec
    {program : Program} {ch : Int8} {start : List Nat}
    (fuel : Nat) {i : Nat} {clist nlist : List Nat}
    (invariant : ThreadInvariant program ch start i clist nlist)
    (enough : program.insts.length < i + fuel) :
    (threadLoop program.insts ch fuel i clist nlist = .value .matched ∧
        ∃ pc ∈ (automaton program.insts).εClosure {pc | pc ∈ start},
          pc ∈ (automaton program.insts).accept) ∨
      ∃ grown nextGrown,
        threadLoop program.insts ch fuel i clist nlist =
            .value (.next grown nextGrown) ∧
          ThreadInvariant program ch start grown.length grown
            nextGrown := by
  induction fuel generalizing i clist nlist with
  | zero =>
      have short :=
        length_le_of_nodup invariant.nodup invariant.inside
      have bound := invariant.index_le
      omega
  | succ fuel ih =>
      rw [threadLoop]
      cases current : clist[i]? with
      | none =>
          have finished : i = clist.length :=
            le_antisymm invariant.index_le
              (List.getElem?_eq_none_iff.mp current)
          refine Or.inr ⟨clist, nlist, rfl, ?_⟩
          rw [← finished]
          exact invariant
      | some pc =>
          rcases threadPass_spec invariant current with
            ⟨matched, accepting⟩ | ⟨grown, nextGrown, passed, kept⟩
          · refine Or.inl ⟨by simp [matched], pc, ?_, accepting⟩
            exact invariant.reached pc (List.mem_of_getElem? current)
          · simp only [passed, value_bind]
            exact ih kept (by omega)

/-! ## The scan of the whole string -/

/-- Some thread can stand at a `Match` after exactly `count` characters. -/
def AcceptsAt (insts : List Inst) (input : CString) (count : Nat) : Prop :=
  ∃ pc ∈ (automaton insts).evalFrom {0} (input.chars.take count),
    pc ∈ (automaton insts).accept

/-- Some thread can stand at a `Match` before the terminator is reached. -/
def AcceptsProperPrefix (insts : List Inst) (input : CString) : Prop :=
  ∃ count < input.chars.length, AcceptsAt insts input count

/-- The threads that start the scan at position `sp`. -/
structure CharInvariant (program : Program) (input : CString)
    (sp : Nat) (clist : List Nat) : Prop where
  nodup : clist.Nodup
  inside : ∀ pc ∈ clist, pc < program.insts.length
  reached :
    (automaton program.insts).εClosure {pc | pc ∈ clist} =
      (automaton program.insts).evalFrom {0} (input.chars.take sp)

theorem CharInvariant.initial (program : Program) (input : CString) :
    CharInvariant program input 0 (addthread [] 0) where
  nodup := by simp [addthread]
  inside := by simpa [addthread] using program.nonempty
  reached := by simp [addthread]

/-- The `nlist` of a finished scan starts the scan of the next character. -/
theorem CharInvariant.next
    {program : Program} {input : CString} {sp : Nat} {ch : Int8}
    {start clist nlist : List Nat}
    (invariant : CharInvariant program input sp start)
    (current : input.chars[sp]? = some ch)
    (scanned :
      ThreadInvariant program ch start clist.length clist nlist) :
    CharInvariant program input (sp + 1) nlist where
  nodup := scanned.nextNodup
  inside := scanned.nlist_inside
  reached := by
    rw [evalFrom_take_succ _ current, ← invariant.reached,
      ← scanned.clist_eq_closure]
    congr 1
    ext next
    rw [Set.mem_ofPred_eq, scanned.next_iff, List.take_length]
    rfl

/-- A scan that finds no `Match` proves that no thread stands at one. -/
theorem not_acceptsAt_of_scanned
    {program : Program} {input : CString} {sp : Nat} {ch : Int8}
    {start clist nlist : List Nat}
    (invariant : CharInvariant program input sp start)
    (scanned :
      ThreadInvariant program ch start clist.length clist nlist) :
    ¬ AcceptsAt program.insts input sp := by
  rintro ⟨pc, member, accepting⟩
  rw [← invariant.reached, ← scanned.clist_eq_closure] at member
  refine scanned.rejecting pc ?_ accepting
  rw [List.take_length]
  exact member

/--
With enough fuel the scan from `sp` ends without a fault and answers whether
a `Match` can be reached at some position from `sp` on, the terminator
excluded.
-/
theorem charLoop_spec
    {program : Program} {input : CString}
    (fuel : Nat) {sp : Nat} {clist : List Nat}
    (invariant : CharInvariant program input sp clist)
    (spInside : sp ≤ input.chars.length)
    (enough :
      program.insts.length + (input.chars.length - sp) < fuel) :
    (charLoop program.insts input fuel sp clist = .value 1 ∧
        ∃ count, sp ≤ count ∧ count < input.chars.length ∧
          AcceptsAt program.insts input count) ∨
      (charLoop program.insts input fuel sp clist = .value 0 ∧
        ∀ count, sp ≤ count → count < input.chars.length →
          ¬ AcceptsAt program.insts input count) := by
  induction fuel generalizing sp clist with
  | zero => omega
  | succ fuel ih =>
      rw [charLoop]
      cases remaining : input.chars.drop sp with
      | nil =>
          have atEnd : sp = input.chars.length :=
            le_antisymm spInside (List.drop_eq_nil_iff.mp remaining)
          rw [atEnd, input.read_terminator]
          refine Or.inr ⟨rfl, fun count after before => ?_⟩
          omega
      | cons ch rest =>
          have current : input.chars[sp]? = some ch := by
            rw [← List.head?_drop, remaining]
            rfl
          have bound : sp < input.chars.length :=
            (List.getElem?_eq_some_iff.mp current).1
          have nonzero : ch ≠ 0 :=
            input.nonzero ch (List.mem_of_getElem? current)
          rw [CString.read_of_drop_eq_cons remaining, value_bind,
            if_neg nonzero]
          rcases threadLoop_spec fuel
              (ThreadInvariant.initial ch invariant.nodup invariant.inside)
              (by omega) with
            ⟨matched, pc, member, accepting⟩ |
              ⟨grown, nextGrown, passed, scanned⟩
          · rw [invariant.reached] at member
            exact Or.inl
              ⟨by simp [matched], sp, le_rfl, bound, pc, member, accepting⟩
          · have rejected := not_acceptsAt_of_scanned invariant scanned
            simp only [passed, value_bind]
            rcases ih (invariant.next current scanned) bound (by omega) with
              ⟨one, count, after, before, accepts⟩ | ⟨zero, rejects⟩
            · exact Or.inl ⟨one, count, by omega, before, accepts⟩
            · refine Or.inr ⟨zero, fun count after before => ?_⟩
              rcases eq_or_lt_of_le after with rfl | later
              · exact rejected
              · exact rejects count later before

open scoped Classical in
/--
`thompsonvm` always ends, and answers 1 exactly when some thread can stand at
a `Match` before the terminator is reached.
-/
theorem thompsonvm_spec
    (program : Program) (input : CString) (fuel : Nat)
    (enough : program.insts.length + input.chars.length < fuel) :
    thompsonvm program.insts input fuel =
      .value
        (if AcceptsProperPrefix program.insts input then 1 else 0) := by
  rw [thompsonvm]
  rcases charLoop_spec fuel (CharInvariant.initial program input)
      (Nat.zero_le _) enough with
    ⟨one, count, _, before, accepts⟩ | ⟨zero, rejects⟩
  · rw [one, if_pos ⟨count, before, accepts⟩]
  · rw [zero, if_neg]
    rintro ⟨count, before, accepts⟩
    exact rejects count (Nat.zero_le _) before accepts

theorem thompsonvm_yields_iff (program : Program) (input : CString) :
    Yields (thompsonvm program.insts input) 1 ↔
      AcceptsProperPrefix program.insts input := by
  classical
  have answer :
      Yields (thompsonvm program.insts input)
        (if AcceptsProperPrefix program.insts input then 1 else 0) :=
    ⟨_, thompsonvm_spec program input _ (Nat.lt_succ_self _)⟩
  constructor
  · intro one
    have same :=
      Yields.unique (thompsonvm_stable program.insts input) one answer
    by_contra rejects
    simp [rejects] at same
  · intro accepts
    rwa [if_pos accepts] at answer

end CodingExamples.RegexVm.Thompson
