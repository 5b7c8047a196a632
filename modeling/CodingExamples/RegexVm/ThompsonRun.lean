import CodingExamples.RegexVm.ThompsonMachine

/-!
# The run of `thompsonvm`

Each phase of the machine has an invariant of its own: within the inner loop
it is that of the scan of one position, with the threads processed so far.
From it follow what the lists are when the inner loop ends, that no list ever
holds an instruction twice, and that the run ends: at each position the
threads that have not been processed are instructions, each of them once.
-/

namespace CodingExamples.RegexVm.ThompsonRun

open CodingExamples.Library
open CodingExamples.Library.Outcome
open CodingExamples.Library.Execution
open CodingExamples.Library.Worklist
open CodingExamples.RegexVm.Common
open CodingExamples.RegexVm.Automaton
open CodingExamples.RegexVm.Thompson
open CodingExamples.RegexVm.ThompsonMachine

variable {program : Program} {input : CString}

/-! ## The lists -/

/-- Instructions of the program, none of them twice. -/
structure Distinct (program : Program) (list : List Nat) : Prop where
  nodup : list.Nodup
  inside : ∀ pc ∈ list, pc < program.insts.length

theorem Distinct.length_le
    {list : List Nat} (distinct : Distinct program list) :
    list.length ≤ program.insts.length :=
  length_le_of_nodup distinct.nodup distinct.inside

theorem Distinct.nil : Distinct program [] where
  nodup := List.nodup_nil
  inside := by simp

theorem Distinct.addthread
    {list : List Nat} (distinct : Distinct program list) {t : Nat}
    (inside : t < program.insts.length) :
    Distinct program (addthread list t) where
  nodup := by
    rw [addthread_eq_appendNew]
    exact nodup_appendNew distinct.nodup t
  inside := by
    intro pc member
    rw [addthread_eq_appendNew, mem_appendNew] at member
    rcases member with old | rfl
    · exact distinct.inside pc old
    · exact inside

theorem prefix_addthread (list : List Nat) (t : Nat) :
    list <+: addthread list t := by
  rw [addthread_eq_appendNew]
  exact prefix_appendNew list t

/-! ## The threads that have been processed -/

/-- All threads so far belong to earlier positions, each of them once. -/
structure Past (sp : Nat) (processed : List (Nat × Nat)) : Prop where
  nodup : processed.Nodup
  before : ∀ entry ∈ processed, entry.1 < sp

/-- The threads of one position follow those of earlier ones. -/
theorem Past.append
    {sp : Nat} {past : List (Nat × Nat)} (earlier : Past sp past)
    {threads : List Nat} (nodup : threads.Nodup) :
    Past (sp + 1) (past ++ threads.map (Prod.mk sp)) where
  nodup := by
    refine List.nodup_append.mpr ⟨earlier.nodup, ?_, ?_⟩
    · exact nodup.map (Prod.mk_right_injective sp)
    · intro entry old other new same
      rcases List.mem_map.mp new with ⟨pc, _, rfl⟩
      have below := earlier.before entry old
      rw [same] at below
      exact Nat.lt_irrefl sp below
  before := by
    intro entry member
    rcases List.mem_append.mp member with old | new
    · exact Nat.lt_succ_of_lt (earlier.before entry old)
    · rcases List.mem_map.mp new with ⟨pc, _, rfl⟩
      exact Nat.lt_succ_self sp

/-! ## The scan of one position -/

/-- The inner loop at index `i` of position `sp`. -/
structure Scan (program : Program) (input : CString) (sp : Nat) (ch : Int8)
    (first : List Nat) (i : Nat) (clist nlist : List Nat)
    (processed : List (Nat × Nat)) : Prop where
  begun : CharInvariant program input sp first
  current : input.chars[sp]? = some ch
  threads : ThreadInvariant program ch first i clist nlist
  rejected : ∀ count < sp, ¬ AcceptsAt program.insts input count
  history :
    ∃ past, Past sp past ∧
      processed = past ++ (clist.take i).map (Prod.mk sp)

section Scan

variable {sp i pc : Nat} {ch : Int8} {first clist nlist : List Nat}
  {processed : List (Nat × Nat)}

theorem Scan.clist_distinct
    (scan : Scan program input sp ch first i clist nlist processed) :
    Distinct program clist :=
  ⟨scan.threads.nodup, scan.threads.inside⟩

theorem Scan.nlist_distinct
    (scan : Scan program input sp ch first i clist nlist processed) :
    Distinct program nlist :=
  ⟨scan.threads.nextNodup, scan.threads.nlist_inside⟩

theorem Scan.lt_length
    (scan : Scan program input sp ch first i clist nlist processed) :
    sp < input.chars.length :=
  (List.getElem?_eq_some_iff.mp scan.current).1

theorem Scan.past
    (scan : Scan program input sp ch first i clist nlist processed) :
    Past (sp + 1) processed := by
  rcases scan.history with ⟨past, earlier, rfl⟩
  exact earlier.append (scan.threads.nodup.sublist (List.take_sublist i clist))

/-- The thread at the index comes next. -/
theorem Scan.history_concat
    (scan : Scan program input sp ch first i clist nlist processed)
    (thread : clist[i]? = some pc) :
    ∃ past, Past sp past ∧
      processed ++ [(sp, pc)] =
        past ++ (clist.take (i + 1)).map (Prod.mk sp) := by
  rcases scan.history with ⟨past, earlier, rfl⟩
  refine ⟨past, earlier, ?_⟩
  rw [List.take_add_one, thread]
  simp

theorem Scan.past_concat
    (scan : Scan program input sp ch first i clist nlist processed)
    (thread : clist[i]? = some pc) :
    Past (sp + 1) (processed ++ [(sp, pc)]) := by
  rcases scan.history_concat thread with ⟨past, earlier, same⟩
  rw [same]
  exact
    earlier.append
      (scan.threads.nodup.sublist (List.take_sublist (i + 1) clist))

theorem Scan.lt_program
    (scan : Scan program input sp ch first i clist nlist processed)
    (thread : clist[i]? = some pc) :
    i < program.insts.length :=
  (List.getElem?_eq_some_iff.mp thread).1.trans_le
    scan.clist_distinct.length_le

/-- The threads stand where the automaton can after the characters so far. -/
theorem Scan.reachable
    (scan : Scan program input sp ch first i clist nlist processed)
    (member : pc ∈ clist) :
    pc ∈ (automaton program.insts).evalFrom {0} (input.chars.take sp) := by
  rw [← scan.begun.reached]
  exact scan.threads.reached pc member

/-- Processing a thread only appends to `clist`. -/
theorem prefix_of_threadPass
    {insts : List Inst} {grown nextGrown : List Nat}
    (passed :
      threadPass insts ch pc clist nlist = .value (.next grown nextGrown)) :
    clist <+: grown := by
  rw [threadPass, bind_eq_value_iff] at passed
  rcases passed with ⟨inst, _, passed⟩
  cases code : inst.op with
  | none =>
      simp only [code] at passed
      cases passed
      exact List.prefix_rfl
  | some opcode =>
      cases opcode with
      | Char =>
          simp only [code] at passed
          split at passed <;> cases passed <;> exact List.prefix_rfl
      | Match =>
          simp only [code] at passed
          cases passed
      | Jmp =>
          simp only [code] at passed
          cases passed
          exact prefix_addthread clist inst.x
      | Split =>
          simp only [code] at passed
          cases passed
          exact
            (prefix_addthread clist inst.x).trans
              (prefix_addthread (addthread clist inst.x) inst.y)

/-- A thread without a `Match` takes the scan to the next index. -/
theorem Scan.pass
    (scan : Scan program input sp ch first i clist nlist processed)
    (thread : clist[i]? = some pc) {grown nextGrown : List Nat}
    (passed :
      threadPass program.insts ch pc clist nlist =
        .value (.next grown nextGrown)) :
    Scan program input sp ch first (i + 1) grown nextGrown
      (processed ++ [(sp, pc)]) where
  begun := scan.begun
  current := scan.current
  threads := by
    rcases threadPass_spec scan.threads thread with
      ⟨matched, _⟩ | ⟨grown', nextGrown', passed', kept⟩
    · rw [passed] at matched
      cases matched
    · rw [passed] at passed'
      cases passed'
      exact kept
  rejected := scan.rejected
  history := by
    have bound : i + 1 ≤ clist.length :=
      (List.getElem?_eq_some_iff.mp thread).1
    have same : grown.take (i + 1) = clist.take (i + 1) :=
      take_eq_of_prefix (prefix_of_threadPass passed) bound
    rw [same]
    exact scan.history_concat thread

end Scan

/-! ## The invariant of the machine -/

/-- What holds in each phase. -/
inductive Valid (program : Program) (input : CString) : State → Prop where
  | test {sp : Nat} {clist : List Nat} {processed : List (Nat × Nat)}
      (begun : CharInvariant program input sp clist)
      (within : sp ≤ input.chars.length)
      (rejected : ∀ count < sp, ¬ AcceptsAt program.insts input count)
      (past : Past sp processed) :
      Valid program input ⟨.test, sp, clist, [], processed⟩
  | loop {sp i : Nat} {ch : Int8} {first clist nlist : List Nat}
      {processed : List (Nat × Nat)}
      (scan : Scan program input sp ch first i clist nlist processed) :
      Valid program input ⟨.loop i, sp, clist, nlist, processed⟩
  | splitRight {sp i pc : Nat} {ch : Int8} {first clist nlist : List Nat}
      {processed : List (Nat × Nat)} {inst : Inst}
      (scan : Scan program input sp ch first i clist nlist processed)
      (thread : clist[i]? = some pc)
      (fetched : program.insts[pc]? = some inst)
      (code : inst.op = some .Split) :
      Valid program input
        ⟨.splitRight i inst.y, sp, addthread clist inst.x, nlist,
          processed ++ [(sp, pc)]⟩
  | swap {sp : Nat} {ch : Int8} {first clist nlist : List Nat}
      {processed : List (Nat × Nat)}
      (scan :
        Scan program input sp ch first clist.length clist nlist processed) :
      Valid program input ⟨.swap, sp, clist, nlist, processed⟩
  | clear {sp : Nat} {clist nlist : List Nat}
      {processed : List (Nat × Nat)}
      (begun : CharInvariant program input (sp + 1) clist)
      (within : sp < input.chars.length)
      (rejected :
        ∀ count < sp + 1, ¬ AcceptsAt program.insts input count)
      (past : Past (sp + 1) processed)
      (old : Distinct program nlist) :
      Valid program input ⟨.clear, sp, clist, nlist, processed⟩
  | returned {result : Int} {sp : Nat} {clist nlist : List Nat}
      {processed : List (Nat × Nat)}
      (current : Distinct program clist) (next : Distinct program nlist)
      (past : Past (sp + 1) processed)
      (answer :
        result = 1 ∧ AcceptsProperPrefix program.insts input ∨
          result = 0 ∧ ¬ AcceptsProperPrefix program.insts input) :
      Valid program input ⟨.returned result, sp, clist, nlist, processed⟩

theorem valid_start (program : Program) (input : CString) :
    Valid program input start :=
  .test (CharInvariant.initial program input) (Nat.zero_le _)
    (fun count below => absurd below (Nat.not_lt_zero count))
    ⟨List.nodup_nil, by simp⟩

theorem distinct_of_begun
    {sp : Nat} {list : List Nat}
    (begun : CharInvariant program input sp list) : Distinct program list :=
  ⟨begun.nodup, begun.inside⟩

/-- No list, and no position, has an instruction twice. -/
theorem Valid.distinct {state : State} (valid : Valid program input state) :
    Distinct program state.clist ∧ Distinct program state.nlist ∧
      state.processed.Nodup := by
  cases valid with
  | test begun within rejected past =>
      exact ⟨distinct_of_begun begun, Distinct.nil, past.nodup⟩
  | loop scan =>
      exact ⟨scan.clist_distinct, scan.nlist_distinct, scan.past.nodup⟩
  | splitRight scan thread fetched code =>
      have inside := (program.closed_of_fetched fetched).split code
      exact
        ⟨scan.clist_distinct.addthread inside.1, scan.nlist_distinct,
          (scan.past_concat thread).nodup⟩
  | swap scan =>
      exact ⟨scan.clist_distinct, scan.nlist_distinct, scan.past.nodup⟩
  | clear begun within rejected past old =>
      exact ⟨distinct_of_begun begun, old, past.nodup⟩
  | returned current next past answer =>
      exact ⟨current, next, past.nodup⟩

/-! ## One step -/

/-- An upper bound for the number of steps until the return. -/
def remaining (insts : List Inst) (input : CString) (state : State) : Nat :=
  let width := 2 * insts.length + 4
  match state.phase with
  | .test => (input.chars.length - state.sp) * width + 1
  | .loop i =>
      (input.chars.length - state.sp - 1) * width +
        2 * (insts.length - i) + 4
  | .splitRight i _ =>
      (input.chars.length - state.sp - 1) * width +
        2 * (insts.length - i) + 3
  | .swap => (input.chars.length - state.sp - 1) * width + 3
  | .clear => (input.chars.length - state.sp - 1) * width + 2
  | .returned _ => 0

/-- A step that keeps the invariant and comes closer to the return. -/
def Advances (program : Program) (input : CString) (state : State) : Prop :=
  ∃ result, next program.insts input state () = some result ∧
    Valid program input result ∧
      remaining program.insts input result <
        remaining program.insts input state

theorem memory_of_chars
    {sp : Nat} {ch : Int8} (current : input.chars[sp]? = some ch) :
    input.memory[sp]? = some ch := by
  rw [CString.memory,
    List.getElem?_append_left (List.getElem?_eq_some_iff.mp current).1,
    current]

theorem memory_length (input : CString) :
    input.memory[input.chars.length]? = some 0 := by
  simp [CString.memory]

theorem advances_test
    {sp : Nat} {clist : List Nat} {processed : List (Nat × Nat)}
    (begun : CharInvariant program input sp clist)
    (within : sp ≤ input.chars.length)
    (rejected : ∀ count < sp, ¬ AcceptsAt program.insts input count)
    (past : Past sp processed) :
    Advances program input ⟨.test, sp, clist, [], processed⟩ := by
  rcases Nat.lt_or_eq_of_le within with inside | atEnd
  · have current : input.chars[sp]? = some input.chars[sp] :=
      List.getElem?_eq_getElem inside
    have nonzero : input.chars[sp] ≠ 0 :=
      input.nonzero _ (List.getElem_mem inside)
    refine ⟨⟨.loop 0, sp, clist, [], processed⟩, ?_, ?_, ?_⟩
    · simp [next, memory_of_chars current, nonzero]
    · exact
        .loop
          { begun := begun
            current := current
            threads :=
              ThreadInvariant.initial _ begun.nodup begun.inside
            rejected := rejected
            history := ⟨processed, past, by simp⟩ }
    · have one : input.chars.length - sp = input.chars.length - sp - 1 + 1 := by
        omega
      simp only [remaining]
      rw [one, Nat.add_mul, Nat.add_sub_cancel]
      omega
  · subst atEnd
    refine
      ⟨⟨.returned 0, input.chars.length, clist, [], processed⟩, ?_, ?_, ?_⟩
    · simp [next, memory_length]
    · refine .returned (distinct_of_begun begun) Distinct.nil ?_ ?_
      · exact
          ⟨past.nodup, fun entry member =>
            Nat.lt_succ_of_lt (past.before entry member)⟩
      · refine Or.inr ⟨rfl, ?_⟩
        rintro ⟨count, below, accepts⟩
        exact rejected count below accepts
    · exact Nat.succ_pos _

section Loop

variable {sp i pc : Nat} {ch : Int8} {first clist nlist : List Nat}
  {processed : List (Nat × Nat)} {inst : Inst}

/-- The inner loop dispatches on the instruction of a thread. -/
theorem next_thread
    (scan : Scan program input sp ch first i clist nlist processed)
    (thread : clist[i]? = some pc)
    (fetched : program.insts[pc]? = some inst) :
    next program.insts input ⟨.loop i, sp, clist, nlist, processed⟩ () =
      some
        (dispatch inst ch pc i ⟨.loop i, sp, clist, nlist, processed⟩) := by
  simp [next, thread, fetched, memory_of_chars scan.current]

/-- A thread that only appends to the lists. -/
theorem advances_of_pass
    (scan : Scan program input sp ch first i clist nlist processed)
    (thread : clist[i]? = some pc)
    (fetched : program.insts[pc]? = some inst)
    {grown nextGrown : List Nat}
    (passed :
      threadPass program.insts ch pc clist nlist =
        .value (.next grown nextGrown))
    (dispatched :
      dispatch inst ch pc i ⟨.loop i, sp, clist, nlist, processed⟩ =
        ⟨.loop (i + 1), sp, grown, nextGrown, processed ++ [(sp, pc)]⟩) :
    Advances program input ⟨.loop i, sp, clist, nlist, processed⟩ := by
  refine ⟨_, next_thread scan thread fetched, ?_⟩
  rw [dispatched]
  refine ⟨.loop (scan.pass thread passed), ?_⟩
  have inside := scan.lt_program thread
  simp only [remaining]
  omega

theorem threadPass_of_fetched
    (fetched : program.insts[pc]? = some inst) :
    threadPass program.insts ch pc clist nlist =
      match inst.op with
      | some .Char =>
          if ch.toInt = inst.c then
            pure (.next clist (addthread nlist (pc + 1)))
          else
            pure (.next clist nlist)
      | some .Match => pure .matched
      | some .Jmp => pure (.next (addthread clist inst.x) nlist)
      | some .Split =>
          pure (.next (addthread (addthread clist inst.x) inst.y) nlist)
      | none => pure (.next clist nlist) := by
  rw [threadPass, fetch, fetched]
  rfl

/-- A `Match` ends the run. -/
theorem advances_match
    (scan : Scan program input sp ch first i clist nlist processed)
    (thread : clist[i]? = some pc)
    (fetched : program.insts[pc]? = some inst)
    (code : inst.op = some .Match) :
    Advances program input ⟨.loop i, sp, clist, nlist, processed⟩ := by
  have accepts : AcceptsAt program.insts input sp :=
    ⟨pc, scan.reachable (List.mem_of_getElem? thread),
      (accepting_iff fetched).mpr code⟩
  refine ⟨_, next_thread scan thread fetched, ?_⟩
  simp only [dispatch, code]
  refine ⟨?_, Nat.succ_pos _⟩
  exact
    .returned scan.clist_distinct scan.nlist_distinct
      (scan.past_concat thread) (Or.inl ⟨rfl, sp, scan.lt_length, accepts⟩)

/-- A `Split` appends its first target, and then the second one. -/
theorem advances_split
    (scan : Scan program input sp ch first i clist nlist processed)
    (thread : clist[i]? = some pc)
    (fetched : program.insts[pc]? = some inst)
    (code : inst.op = some .Split) :
    Advances program input ⟨.loop i, sp, clist, nlist, processed⟩ := by
  refine ⟨_, next_thread scan thread fetched, ?_⟩
  simp only [dispatch, code]
  refine ⟨.splitRight scan thread fetched code, ?_⟩
  simp only [remaining]
  omega

theorem advances_splitRight
    (scan : Scan program input sp ch first i clist nlist processed)
    (thread : clist[i]? = some pc)
    (fetched : program.insts[pc]? = some inst)
    (code : inst.op = some .Split) :
    Advances program input
      ⟨.splitRight i inst.y, sp, addthread clist inst.x, nlist,
        processed ++ [(sp, pc)]⟩ := by
  refine ⟨_, rfl, .loop (scan.pass thread ?_), ?_⟩
  · rw [threadPass_of_fetched fetched, code]
    rfl
  · have inside := scan.lt_program thread
    simp only [remaining]
    omega

/-- The inner loop ends, or processes a thread. -/
theorem advances_loop
    (scan : Scan program input sp ch first i clist nlist processed) :
    Advances program input ⟨.loop i, sp, clist, nlist, processed⟩ := by
  cases thread : clist[i]? with
  | none =>
      have finished : i = clist.length :=
        le_antisymm scan.threads.index_le
          (List.getElem?_eq_none_iff.mp thread)
      refine
        ⟨⟨.swap, sp, clist, nlist, processed⟩, by simp [next, thread],
          .swap (finished ▸ scan), ?_⟩
      simp only [remaining]
      omega
  | some pc =>
      have inside :=
        scan.clist_distinct.inside pc (List.mem_of_getElem? thread)
      have fetched := List.getElem?_eq_getElem inside
      have passed : threadPass program.insts ch pc clist nlist = _ :=
        threadPass_of_fetched fetched
      cases code : program.insts[pc].op with
      | none => exact absurd code (program.valid_of_fetched fetched)
      | some opcode =>
          rw [code] at passed
          cases opcode with
          | Char =>
              by_cases equal : ch.toInt = program.insts[pc].c
              · simp only [if_pos equal] at passed
                exact
                  advances_of_pass scan thread fetched passed
                    (by simp only [dispatch, code, if_pos equal])
              · simp only [if_neg equal] at passed
                exact
                  advances_of_pass scan thread fetched passed
                    (by simp only [dispatch, code, if_neg equal])
          | Match => exact advances_match scan thread fetched code
          | Jmp =>
              exact
                advances_of_pass scan thread fetched passed
                  (by simp only [dispatch, code])
          | Split => exact advances_split scan thread fetched code

theorem advances_swap
    (scan :
      Scan program input sp ch first clist.length clist nlist processed) :
    Advances program input ⟨.swap, sp, clist, nlist, processed⟩ := by
  refine ⟨_, rfl, ?_, Nat.lt_succ_self _⟩
  refine
    .clear (scan.begun.next scan.current scan.threads) scan.lt_length ?_
      scan.past scan.clist_distinct
  intro count below
  rcases Nat.lt_succ_iff_lt_or_eq.mp below with earlier | rfl
  · exact scan.rejected count earlier
  · exact not_acceptsAt_of_scanned scan.begun scan.threads

end Loop

theorem advances_clear
    {sp : Nat} {clist nlist : List Nat} {processed : List (Nat × Nat)}
    (begun : CharInvariant program input (sp + 1) clist)
    (within : sp < input.chars.length)
    (rejected : ∀ count < sp + 1, ¬ AcceptsAt program.insts input count)
    (past : Past (sp + 1) processed) :
    Advances program input ⟨.clear, sp, clist, nlist, processed⟩ := by
  refine ⟨_, rfl, .test begun within rejected past, ?_⟩
  simp only [remaining, ← Nat.sub_sub]
  exact Nat.lt_succ_self _

/-- Unless it has returned, the machine goes on. -/
theorem Valid.advances {state : State} (valid : Valid program input state)
    (running : ∀ result, state.phase ≠ .returned result) :
    Advances program input state := by
  cases valid with
  | test begun within rejected past =>
      exact advances_test begun within rejected past
  | loop scan => exact advances_loop scan
  | splitRight scan thread fetched code =>
      exact advances_splitRight scan thread fetched code
  | swap scan => exact advances_swap scan
  | clear begun within rejected past old =>
      exact advances_clear begun within rejected past
  | returned => exact absurd rfl (running _)

/-! ## The whole run -/

theorem next_of_returned
    {insts : List Inst} {state : State} {result : Int}
    (returned : state.phase = .returned result) (action : Unit) :
    next insts input state action = none := by
  rw [next, returned]

theorem Valid.next
    {state result : State} {action : Unit}
    (valid : Valid program input state)
    (step :
      ThompsonMachine.next program.insts input state action = some result) :
    Valid program input result ∧
      remaining program.insts input result <
        remaining program.insts input state := by
  have running (value : Int) : state.phase ≠ .returned value := by
    intro returned
    rw [next_of_returned returned] at step
    cases step
  rcases valid.advances running with ⟨other, stepAgain, kept, less⟩
  rw [step, Option.some.injEq] at stepAgain
  rw [stepAgain]
  exact ⟨kept, less⟩

theorem valid_of_reachable
    {state : State}
    (reachable :
      Reachable (ThompsonMachine.next program.insts input) start state) :
    Valid program input state :=
  reachable.invariant
    (fun _ _ _ valid step => (valid.next step).1) (valid_start program input)

/-- The run ends with a return. -/
theorem exists_returned (program : Program) (input : CString) :
    ∃ final result,
      Reachable (ThompsonMachine.next program.insts input) start final ∧
        final.phase = .returned result := by
  rcases exists_stuck (fun _ _ _ valid step => valid.next step)
      (valid_start program input) with
    ⟨final, reachable, stuck⟩
  by_contra going
  have running (result : Int) : final.phase ≠ .returned result := by
    intro returned
    exact going ⟨final, result, reachable, returned⟩
  rcases (valid_of_reachable reachable).advances running with
    ⟨_, step, _⟩
  have stopped :
      ThompsonMachine.next program.insts input final () = none :=
    stuck ()
  rw [stopped] at step
  cases step

/-- What a return says. -/
theorem answer_of_returned
    {final : State} {result : Int}
    (reachable :
      Reachable (ThompsonMachine.next program.insts input) start final)
    (returned : final.phase = .returned result) :
    result = 1 ∧ AcceptsProperPrefix program.insts input ∨
      result = 0 ∧ ¬ AcceptsProperPrefix program.insts input := by
  have valid := valid_of_reachable reachable
  cases valid with
  | returned current next past answer =>
      cases returned
      exact answer
  | test => cases returned
  | loop => cases returned
  | splitRight => cases returned
  | swap => cases returned
  | clear => cases returned

/-- The machine returns what the function yields. -/
theorem returned_iff_yields
    (program : Program) (input : CString) (result : Int) :
    (∃ final,
      Reachable (ThompsonMachine.next program.insts input) start final ∧
        final.phase = .returned result) ↔
      Yields (thompsonvm program.insts input) result := by
  classical
  have yields {value : Int}
      (answer :
        value = 1 ∧ AcceptsProperPrefix program.insts input ∨
          value = 0 ∧ ¬ AcceptsProperPrefix program.insts input) :
      Yields (thompsonvm program.insts input) value := by
    refine ⟨_, (thompsonvm_spec program input _ (Nat.lt_succ_self _)).trans ?_⟩
    rcases answer with ⟨rfl, accepts⟩ | ⟨rfl, rejects⟩
    · rw [if_pos accepts]
    · rw [if_neg rejects]
  constructor
  · rintro ⟨final, reachable, returned⟩
    exact yields (answer_of_returned reachable returned)
  · intro yielded
    rcases exists_returned program input with
      ⟨final, value, reachable, returned⟩
    have same :=
      Yields.unique (thompsonvm_stable program.insts input) yielded
        (yields (answer_of_returned reachable returned))
    exact ⟨final, reachable, same ▸ returned⟩

/-- Some run from the first instruction stands there after the characters. -/
def StandsAt (insts : List Inst) (input : CString) (count pc : Nat) : Prop :=
  ∃ labels, labels.reduceOption = input.chars.take count ∧
    (automaton insts).IsPath 0 pc labels

theorem standsAt_iff {insts : List Inst} {count pc : Nat} :
    StandsAt insts input count pc ↔
      pc ∈ (automaton insts).evalFrom {0} (input.chars.take count) :=
  ((automaton insts).mem_evalFrom_iff_exists_path).symm

/--
Whenever the inner loop has ended at a position, `clist` holds the
instructions at which some run can stand after the characters before it; and
the matcher returns 1 exactly if one of them is a `Match`, at some position
before the terminator.
-/
theorem clist_iff_standsAt (program : Program) (input : CString) :
    (∀ state,
      Reachable (ThompsonMachine.next program.insts input) start state →
        state.phase = .swap →
          state.sp < input.chars.length ∧
            ∀ pc, pc ∈ state.clist ↔
              StandsAt program.insts input state.sp pc) ∧
      ((∃ final,
        Reachable (ThompsonMachine.next program.insts input) start final ∧
          final.phase = .returned 1) ↔
        ∃ count < input.chars.length, ∃ pc,
          StandsAt program.insts input count pc ∧
            ∃ inst, program.insts[pc]? = some inst ∧
              inst.op = some .Match) := by
  constructor
  · intro state reachable ended
    have valid := valid_of_reachable reachable
    cases valid with
    | swap scan =>
        refine ⟨scan.lt_length, ?_⟩
        intro pc
        rw [standsAt_iff, ← scan.begun.reached,
          ← scan.threads.clist_eq_closure]
        rfl
    | test => cases ended
    | loop => cases ended
    | splitRight => cases ended
    | clear => cases ended
    | returned => cases ended
  · rw [returned_iff_yields, thompsonvm_yields_iff]
    simp only [AcceptsProperPrefix, AcceptsAt, standsAt_iff, mem_accept_iff]

/-- A `Split` and a `Jmp` that leads back to it, before the letter `a`. -/
def cycle : Program where
  insts := [⟨3, 0, 1, 2⟩, ⟨2, 0, 0, 0⟩, ⟨0, 97, 0, 0⟩, ⟨1, 0, 0, 0⟩]
  nonempty := by decide
  closed := by decide
  valid := by decide

/-- The end of the inner loop at the first position. -/
def scanned : State where
  phase := .swap
  sp := 0
  clist := [0, 1, 2]
  nlist := [3]
  processed := [(0, 0), (0, 1), (0, 2)]

theorem reachable_scanned :
    Reachable (ThompsonMachine.next cycle.insts letter) start scanned :=
  ⟨List.replicate 6 (), rfl⟩

theorem clist_iff_standsAt_cycle :
    StandsAt cycle.insts letter 0 2 ∧ ¬ StandsAt cycle.insts letter 0 3 := by
  have ended :=
    (clist_iff_standsAt cycle letter).1 scanned reachable_scanned rfl
  constructor
  · exact (ended.2 2).mp (by decide)
  · exact mt (ended.2 3).mpr (by decide)

/--
The matcher ends, after a bounded number of steps, and at all times neither
list holds an instruction twice, both are at most as long as the program, and
no instruction has been processed twice at one position.
-/
theorem run_bounded (program : Program) (input : CString) :
    (∃ final result,
      Reachable (ThompsonMachine.next program.insts input) start final ∧
        final.phase = .returned result) ∧
      (∀ steps final,
        run (ThompsonMachine.next program.insts input) start steps =
            some final →
          steps.length ≤
            input.chars.length * (2 * program.insts.length + 4) + 1) ∧
      ∀ state,
        Reachable (ThompsonMachine.next program.insts input) start state →
          state.clist.Nodup ∧ state.nlist.Nodup ∧
            state.clist.length ≤ program.insts.length ∧
              state.nlist.length ≤ program.insts.length ∧
                state.processed.Nodup := by
  refine ⟨exists_returned program input, ?_, ?_⟩
  · intro steps final ran
    have bound :=
      length_add_measure_le (fun _ _ _ valid step => valid.next step)
        (valid_start program input) ran
    exact (Nat.le_add_right _ _).trans bound
  · intro state reachable
    rcases (valid_of_reachable reachable).distinct with
      ⟨current, following, processed⟩
    exact
      ⟨current.nodup, following.nodup, current.length_le,
        following.length_le, processed⟩

theorem run_bounded_cycle :
    scanned.clist.Nodup ∧ scanned.nlist.Nodup ∧
      scanned.clist.length ≤ cycle.insts.length ∧
        scanned.nlist.length ≤ cycle.insts.length ∧
          scanned.processed.Nodup :=
  (run_bounded cycle letter).2.2 scanned reachable_scanned

end CodingExamples.RegexVm.ThompsonRun
