import CodingExamples.Library.ArrayStack
import CodingExamples.Library.Execution
import CodingExamples.RegexVm.Backtracking

/-!
# The backtracking machine `backtrackingvm`

The machine explores the same runs as `recursiveloop`, with the alternatives
that a pending call would still try kept in an array of 25 threads.  It gives
up with -1 when a `Split` finds the array full.

The machine is first related to one that keeps its threads in a list, and the
latter to the recursion, uniformly in the threads that are already saved.
`Visits` counts the calls that are pending in the recursion when it visits a
position, which is the number of alternatives that the machine has saved.
-/

namespace CodingExamples.RegexVm.Backtrackingvm

open CodingExamples.Library
open CodingExamples.Library.ArrayStack
open CodingExamples.Library.Outcome
open CodingExamples.RegexVm.Common
open CodingExamples.RegexVm.Backtracking

/-- `MAXTHREAD`. -/
def maxThread : Nat := 25

structure Thread where
  pc : Nat
  sp : Nat
deriving DecidableEq, Repr

/-- Whether the machine is about to pop a thread or is running one. -/
inductive Control where
  | scheduling
  | running (thread : Thread)
deriving DecidableEq, Repr

/-- The local variables of `backtrackingvm`; unwritten slots are `none`. -/
structure Vm where
  ready : List (Option Thread)
  nready : Int
  control : Control
deriving DecidableEq, Repr

/-- The undefined behaviours that the machine could run into. -/
inductive Undefined where
  | access (fault : Fault)
  | outsideReady
  | uninitialized
deriving DecidableEq, Repr

/-- A dereference made by the machine. -/
def access {Result : Type} :
    Outcome Fault Result → Outcome Undefined Result
  | .timeout => .timeout
  | .fault reason => .fault (.access reason)
  | .value result => .value result

/-- The value of `ready[index]`. -/
def load (ready : List (Option Thread)) (index : Int) :
    Outcome Undefined Thread :=
  if index < 0 then
    .fault .outsideReady
  else
    match ready[index.toNat]? with
    | none => .fault .outsideReady
    | some none => .fault .uninitialized
    | some (some thread) => .value thread

/-- The assignment `ready[index] = thread`. -/
def store (ready : List (Option Thread)) (index : Int) (thread : Thread) :
    Outcome Undefined (List (Option Thread)) :=
  if index < 0 ∨ ready.length ≤ index then
    .fault .outsideReady
  else
    .value (ready.set index.toNat (some thread))

/-- How one pass of either loop ends. -/
inductive Turn (State : Type) where
  | returned (result : Int)
  | continued (state : State)
deriving DecidableEq, Repr

/-- One pass of the outer loop up to its inner one, or of the inner loop. -/
def step (insts : List Inst) (input : CString) (vm : Vm) :
    Outcome Undefined (Turn Vm) :=
  match vm.control with
  | .scheduling =>
      if vm.nready > 0 then do
        let thread ← load vm.ready (vm.nready - 1)
        pure (.continued
          { vm with nready := vm.nready - 1, control := .running thread })
      else
        pure (.returned 0)
  | .running ⟨pc, sp⟩ => do
      let inst ← access (fetch insts pc)
      match inst.op with
      | some .Char =>
          let ch ← access (input.read sp)
          if ch.toInt ≠ inst.c then
            -- `goto Dead`
            pure (.continued { vm with control := .scheduling })
          else
            pure (.continued
              { vm with control := .running ⟨pc + 1, sp + 1⟩ })
      | some .Match => pure (.returned 1)
      | some .Jmp =>
          pure (.continued { vm with control := .running ⟨inst.x, sp⟩ })
      | some .Split =>
          if vm.nready ≥ maxThread then
            pure (.returned (-1))
          else
            let ready ← store vm.ready vm.nready ⟨inst.y, sp⟩
            pure (.continued
              { ready, nready := vm.nready + 1,
                control := .running ⟨inst.x, sp⟩ })
      -- No case applies: the inner loop runs the same instruction again.
      | none => pure (.continued vm)

/-- Run passes until one of them returns. -/
def execute (insts : List Inst) (input : CString) :
    Nat → Vm → Outcome Undefined Int
  | 0, _ => .timeout
  | fuel + 1, vm => do
      let turn ← step insts input vm
      match turn with
      | .returned result => pure result
      | .continued vm => execute insts input fuel vm

/-- The machine after `ready[0] = thread(prog, input); nready = 1`. -/
def initial : Vm where
  ready := some ⟨0, 0⟩ :: List.replicate (maxThread - 1) none
  nready := 1
  control := .scheduling

/-- `backtrackingvm(prog, input)`, with fuel for its passes. -/
def backtrackingvm (insts : List Inst) (input : CString) (fuel : Nat) :
    Outcome Undefined Int :=
  execute insts input fuel initial

/-! ## The machine with a list of threads -/

/-- The saved threads, the next one to run first, and the control. -/
structure Search where
  saved : List Thread
  control : Control

/-- One pass, with the threads in a list. -/
def searchStep (insts : List Inst) (input : CString) (search : Search) :
    Outcome Undefined (Turn Search) :=
  match search.control with
  | .scheduling =>
      match search.saved with
      | [] => pure (.returned 0)
      | thread :: saved => pure (.continued ⟨saved, .running thread⟩)
  | .running ⟨pc, sp⟩ => do
      let inst ← access (fetch insts pc)
      match inst.op with
      | some .Char =>
          let ch ← access (input.read sp)
          if ch.toInt ≠ inst.c then
            pure (.continued ⟨search.saved, .scheduling⟩)
          else
            pure (.continued ⟨search.saved, .running ⟨pc + 1, sp + 1⟩⟩)
      | some .Match => pure (.returned 1)
      | some .Jmp =>
          pure (.continued ⟨search.saved, .running ⟨inst.x, sp⟩⟩)
      | some .Split =>
          if search.saved.length ≥ maxThread then
            pure (.returned (-1))
          else
            pure (.continued
              ⟨⟨inst.y, sp⟩ :: search.saved, .running ⟨inst.x, sp⟩⟩)
      | none => pure (.continued search)

/-- Run passes of the machine with a list until one of them returns. -/
def searchExecute (insts : List Inst) (input : CString) :
    Nat → Search → Outcome Undefined Int
  | 0, _ => .timeout
  | fuel + 1, search => do
      let turn ← searchStep insts input search
      match turn with
      | .returned result => pure result
      | .continued search => searchExecute insts input fuel search

/-- The array and the counter of the machine hold the saved threads. -/
structure Represents (vm : Vm) (search : Search) : Prop where
  control : vm.control = search.control
  size : vm.ready.length = maxThread
  count : vm.nready = search.saved.length
  holds : Holds vm.ready search.saved

theorem Represents.saved_le
    {vm : Vm} {search : Search} (represents : Represents vm search) :
    search.saved.length ≤ maxThread := by
  rw [← represents.size]
  exact represents.holds.length_le

theorem initial_represents :
    Represents initial ⟨[⟨0, 0⟩], .scheduling⟩ where
  control := rfl
  size := rfl
  count := rfl
  holds := ⟨rfl, trivial⟩

/-- The turns of two machines whose states are related correspond. -/
inductive Corresponds :
    Outcome Undefined (Turn Vm) → Outcome Undefined (Turn Search) → Prop where
  | fault (reason : Fault) :
      Corresponds (.fault (.access reason)) (.fault (.access reason))
  | returned (result : Int) :
      Corresponds (.value (.returned result)) (.value (.returned result))
  | continued {vm : Vm} {search : Search}
      (represents : Represents vm search) :
      Corresponds (.value (.continued vm)) (.value (.continued search))

/-- Popping reads the slot that the newest thread was stored in. -/
theorem load_newest
    {ready : List (Option Thread)} {thread : Thread} {saved : List Thread}
    (holds : Holds ready (thread :: saved)) :
    load ready saved.length = .value thread := by
  rw [load, if_neg (by omega), Int.toNat_natCast, holds.1]

/-- Below the bound the slot at the counter can be written. -/
theorem store_next
    {ready : List (Option Thread)} {saved : List Thread} (thread : Thread)
    (room : saved.length < ready.length) :
    store ready saved.length thread =
      .value (ready.set saved.length (some thread)) := by
  rw [store, if_neg (by omega), Int.toNat_natCast]

/-- One pass of the machine is one pass of the machine with a list. -/
theorem Represents.corresponds
    (insts : List Inst) (input : CString) {vm : Vm} {search : Search}
    (represents : Represents vm search) :
    Corresponds (step insts input vm) (searchStep insts input search) := by
  rcases vm with ⟨ready, nready, control⟩
  rcases search with ⟨saved, other⟩
  rcases represents with ⟨same, size, count, holds⟩
  simp only at same size count holds
  subst same count
  cases control with
  | scheduling =>
      cases saved with
      | nil => exact .returned 0
      | cons thread saved =>
          have positive : ((thread :: saved).length : Int) > 0 := by
            simp only [List.length_cons]
            omega
          have index :
              ((thread :: saved).length : Int) - 1 = saved.length := by
            simp
          simp only [step, searchStep]
          rw [if_pos positive, index, load_newest holds]
          exact .continued ⟨rfl, size, rfl, holds.2⟩
  | running thread =>
      rcases thread with ⟨pc, sp⟩
      simp only [step, searchStep]
      rw [fetch]
      cases insts[pc]? with
      | none => exact .fault _
      | some inst =>
          simp only [ofOption_some, access, value_bind]
          cases inst.op with
          | none => exact .continued ⟨rfl, size, rfl, holds⟩
          | some opcode =>
              cases opcode with
              | Char =>
                  simp only [CString.read]
                  cases input.memory[sp]? with
                  | none => exact .fault _
                  | some ch =>
                      simp only [ofOption_some, value_bind]
                      split
                      · exact .continued ⟨rfl, size, rfl, holds⟩
                      · exact .continued ⟨rfl, size, rfl, holds⟩
              | Match => exact .returned 1
              | Jmp => exact .continued ⟨rfl, size, rfl, holds⟩
              | Split =>
                  simp only [ge_iff_le, Nat.cast_le]
                  by_cases full : maxThread ≤ saved.length
                  · rw [if_pos full, if_pos full]
                    exact .returned (-1)
                  · have room : saved.length < ready.length := by omega
                    rw [if_neg full, if_neg full, store_next _ room]
                    exact .continued
                      ⟨rfl, by simpa using size, by simp,
                        holds.push room _⟩

/-- The two machines give the same outcome with the same fuel. -/
theorem Represents.execute_eq
    (insts : List Inst) (input : CString) (fuel : Nat) {vm : Vm}
    {search : Search} (represents : Represents vm search) :
    execute insts input fuel vm = searchExecute insts input fuel search := by
  induction fuel generalizing vm search with
  | zero => rfl
  | succ fuel ih =>
      have turn := represents.corresponds insts input
      rw [execute, searchExecute]
      revert turn
      generalize step insts input vm = concrete
      generalize searchStep insts input search = listed
      intro turn
      cases turn with
      | fault reason => rfl
      | returned result => rfl
      | continued represents => exact ih represents

/-! ## One pass of the search -/

section Pass

variable {insts : List Inst} {input : CString} {saved : List Thread}
  {pc sp fuel : Nat} {inst : Inst}

theorem searchExecute_pop (thread : Thread) :
    searchExecute insts input (fuel + 1)
        ⟨thread :: saved, .scheduling⟩ =
      searchExecute insts input fuel ⟨saved, .running thread⟩ :=
  rfl

theorem searchExecute_finished :
    searchExecute insts input (fuel + 1) ⟨[], .scheduling⟩ = .value 0 :=
  rfl

theorem searchExecute_char {ch : Int8}
    (fetched : insts[pc]? = some inst) (code : inst.op = some .Char)
    (read : input.read sp = .value ch) :
    searchExecute insts input (fuel + 1) ⟨saved, .running ⟨pc, sp⟩⟩ =
      if ch.toInt = inst.c then
        searchExecute insts input fuel
          ⟨saved, .running ⟨pc + 1, sp + 1⟩⟩
      else
        searchExecute insts input fuel ⟨saved, .scheduling⟩ := by
  simp only [searchExecute, searchStep, fetch, fetched, ofOption_some,
    access, value_bind, code, read]
  by_cases equal : ch.toInt = inst.c
  · rw [if_neg (not_not.mpr equal), if_pos equal]
    rfl
  · rw [if_pos equal, if_neg equal]
    rfl

theorem searchExecute_match
    (fetched : insts[pc]? = some inst) (code : inst.op = some .Match) :
    searchExecute insts input (fuel + 1) ⟨saved, .running ⟨pc, sp⟩⟩ =
      .value 1 := by
  simp [searchExecute, searchStep, fetch, fetched, access, code]

theorem searchExecute_jmp
    (fetched : insts[pc]? = some inst) (code : inst.op = some .Jmp) :
    searchExecute insts input (fuel + 1) ⟨saved, .running ⟨pc, sp⟩⟩ =
      searchExecute insts input fuel ⟨saved, .running ⟨inst.x, sp⟩⟩ := by
  simp [searchExecute, searchStep, fetch, fetched, access, code]

theorem searchExecute_split
    (fetched : insts[pc]? = some inst) (code : inst.op = some .Split)
    (room : saved.length < maxThread) :
    searchExecute insts input (fuel + 1) ⟨saved, .running ⟨pc, sp⟩⟩ =
      searchExecute insts input fuel
        ⟨⟨inst.y, sp⟩ :: saved, .running ⟨inst.x, sp⟩⟩ := by
  simp only [searchExecute, searchStep, fetch, fetched, ofOption_some,
    access, value_bind, code, if_neg (Nat.not_le.mpr room),
    pure_eq_value]

theorem searchExecute_full
    (fetched : insts[pc]? = some inst) (code : inst.op = some .Split)
    (full : maxThread ≤ saved.length) :
    searchExecute insts input (fuel + 1) ⟨saved, .running ⟨pc, sp⟩⟩ =
      .value (-1) := by
  simp only [searchExecute, searchStep, fetch, fetched, ofOption_some,
    access, value_bind, code, ge_iff_le, if_pos full, pure_eq_value]

end Pass

/-! ## The recursion -/

/-- A character that is not the terminator has a position after it. -/
theorem read_inside
    (input : CString) {sp : Nat} (inside : sp ≤ input.chars.length) :
    ∃ ch, input.read sp = .value ch ∧
      ∀ constant : Int, constant ≠ 0 → ch.toInt = constant →
        sp + 1 ≤ input.chars.length := by
  rcases read_cases input inside with
    ⟨_, read⟩ | ⟨ch, _, _, read, next, _⟩
  · refine ⟨0, read, ?_⟩
    intro constant nonzero equal
    exact absurd equal.symm nonzero
  · refine ⟨ch, read, ?_⟩
    intro _ _ _
    exact next

section Answers

variable {insts : List Inst} {input : CString} {pc sp : Nat} {inst : Inst}
  {result : Int}

/-- What `recursiveloop(pc, sp)` returns, if it returns. -/
def Answer (insts : List Inst) (input : CString) (pc sp : Nat)
    (result : Int) : Prop :=
  ∃ fuel, recursiveloop insts input fuel pc sp = .value result

theorem Answer.char {ch : Int8}
    (fetched : insts[pc]? = some inst) (code : inst.op = some .Char)
    (read : input.read sp = .value ch) (equal : ch.toInt = inst.c)
    (answer : Answer insts input (pc + 1) (sp + 1) result) :
    Answer insts input pc sp result := by
  rcases answer with ⟨fuel, returned⟩
  refine ⟨fuel + 1, ?_⟩
  rw [recursiveloop_char fetched code, read, value_bind, if_pos equal]
  exact returned

theorem Answer.mismatch {ch : Int8}
    (fetched : insts[pc]? = some inst) (code : inst.op = some .Char)
    (read : input.read sp = .value ch) (different : ch.toInt ≠ inst.c) :
    Answer insts input pc sp 0 := by
  refine ⟨1, ?_⟩
  rw [recursiveloop_char fetched code, read, value_bind,
    if_neg different]

theorem Answer.jmp
    (fetched : insts[pc]? = some inst) (code : inst.op = some .Jmp)
    (answer : Answer insts input inst.x sp result) :
    Answer insts input pc sp result := by
  rcases answer with ⟨fuel, returned⟩
  refine ⟨fuel + 1, ?_⟩
  rw [recursiveloop_jmp fetched code]
  exact returned

theorem Answer.left
    (fetched : insts[pc]? = some inst) (code : inst.op = some .Split)
    (answer : Answer insts input inst.x sp 1) :
    Answer insts input pc sp 1 := by
  rcases answer with ⟨fuel, returned⟩
  refine ⟨fuel + 1, ?_⟩
  rw [recursiveloop_split fetched code, returned]
  rfl

theorem Answer.right {rejected : Int}
    (fetched : insts[pc]? = some inst) (code : inst.op = some .Split)
    (first : Answer insts input inst.x sp rejected)
    (other : rejected ≠ 1)
    (answer : Answer insts input inst.y sp result) :
    Answer insts input pc sp result := by
  rcases first with ⟨firstFuel, firstReturned⟩
  rcases answer with ⟨fuel, returned⟩
  refine ⟨max firstFuel fuel + 1, ?_⟩
  have firstAtMaximum :=
    (recursiveloop_stable insts input inst.x sp).eq_of_le
      (Nat.le_max_left firstFuel fuel) firstReturned
  have atMaximum :=
    (recursiveloop_stable insts input inst.y sp).eq_of_le
      (Nat.le_max_right firstFuel fuel) returned
  rw [recursiveloop_split fetched code, firstAtMaximum, value_bind,
    if_neg other]
  exact atMaximum

end Answers

/--
`Visits insts input pc sp depth target position`: the search of
`recursiveloop(pc, sp)` looks at the instruction `target` with the string
pointer `position` while `depth` of its recursive calls have not returned.
Each of these calls will be followed by the other branch of its `Split`.
-/
inductive Visits (insts : List Inst) (input : CString) :
    Nat → Nat → Nat → Nat → Nat → Prop where
  | here (pc sp : Nat) : Visits insts input pc sp 0 pc sp
  | char {pc sp depth target position : Nat} {inst : Inst} {ch : Int8}
      (fetched : insts[pc]? = some inst) (code : inst.op = some .Char)
      (read : input.read sp = .value ch) (equal : ch.toInt = inst.c)
      (visits : Visits insts input (pc + 1) (sp + 1) depth target position) :
      Visits insts input pc sp depth target position
  | jmp {pc sp depth target position : Nat} {inst : Inst}
      (fetched : insts[pc]? = some inst) (code : inst.op = some .Jmp)
      (visits : Visits insts input inst.x sp depth target position) :
      Visits insts input pc sp depth target position
  | left {pc sp depth target position : Nat} {inst : Inst}
      (fetched : insts[pc]? = some inst) (code : inst.op = some .Split)
      (visits : Visits insts input inst.x sp depth target position) :
      Visits insts input pc sp (depth + 1) target position
  | right {pc sp depth target position : Nat} {inst : Inst} {rejected : Int}
      (fetched : insts[pc]? = some inst) (code : inst.op = some .Split)
      (first : Answer insts input inst.x sp rejected)
      (other : rejected ≠ 1)
      (visits : Visits insts input inst.y sp depth target position) :
      Visits insts input pc sp depth target position

/-- The search reaches a `Split` with that many alternatives saved. -/
def ReachesSplit (insts : List Inst) (input : CString)
    (pc sp depth : Nat) : Prop :=
  ∃ target position inst,
    Visits insts input pc sp depth target position ∧
      insts[target]? = some inst ∧ inst.op = some .Split

/-- A visit of one search, with more calls pending, is a visit of another. -/
theorem ReachesSplit.of_visits
    {insts : List Inst} {input : CString}
    {pc sp depth fromPc fromSp more : Nat}
    (visits :
      ∀ target position, Visits insts input pc sp depth target position →
        Visits insts input fromPc fromSp more target position)
    (reaches : ReachesSplit insts input pc sp depth) :
    ReachesSplit insts input fromPc fromSp more := by
  rcases reaches with ⟨target, position, inst, visited, here⟩
  exact ⟨target, position, inst, visits target position visited, here⟩

/--
With that many threads already saved, the search finds the array full at a
`Split`.
-/
def Overflows (insts : List Inst) (input : CString)
    (saved pc sp : Nat) : Prop :=
  ∃ depth, saved + depth = maxThread ∧
    ReachesSplit insts input pc sp depth

theorem Overflows.of_visits
    {insts : List Inst} {input : CString} {saved pc sp fromPc fromSp : Nat}
    (visits :
      ∀ depth target position,
        Visits insts input pc sp depth target position →
          Visits insts input fromPc fromSp depth target position)
    (overflows : Overflows insts input saved pc sp) :
    Overflows insts input saved fromPc fromSp := by
  rcases overflows with ⟨depth, sum, reaches⟩
  exact ⟨depth, sum, reaches.of_visits (visits depth)⟩

theorem Overflows.left
    {insts : List Inst} {input : CString} {saved pc sp : Nat} {inst : Inst}
    (fetched : insts[pc]? = some inst) (code : inst.op = some .Split)
    (overflows : Overflows insts input (saved + 1) inst.x sp) :
    Overflows insts input saved pc sp := by
  rcases overflows with ⟨depth, sum, reaches⟩
  refine ⟨depth + 1, by omega, reaches.of_visits ?_⟩
  intro target position visits
  exact visits.left fetched code

/-! ## From the machine to the recursion -/

/--
What an answer of the machine says about the recursion that its current
thread stands for: the thread has matched, or it has overflowed the array, or
it has died and the answer is that of the threads that were saved.
-/
inductive Ending (insts : List Inst) (input : CString)
    (saved : List Thread) (fuel pc sp : Nat) (result : Int) : Prop where
  | matched (one : result = 1) (answer : Answer insts input pc sp 1)
  | overflowed (full : result = -1)
      (overflows : Overflows insts input saved.length pc sp)
  | died (answer : Answer insts input pc sp 0) (less : Nat)
      (ordered : less < fuel)
      (later :
        searchExecute insts input less ⟨saved, .scheduling⟩ =
          .value result)

/-- A thread that goes on elsewhere with the same threads saved. -/
theorem Ending.of_continued
    {insts : List Inst} {input : CString} {saved : List Thread}
    {fuel pc sp more fromPc fromSp : Nat} {result : Int}
    (ending : Ending insts input saved fuel pc sp result)
    (ordered : fuel ≤ more)
    (answers :
      ∀ value, Answer insts input pc sp value →
        Answer insts input fromPc fromSp value)
    (visits :
      ∀ depth target position,
        Visits insts input pc sp depth target position →
          Visits insts input fromPc fromSp depth target position) :
    Ending insts input saved more fromPc fromSp result := by
  cases ending with
  | matched one answer => exact .matched one (answers 1 answer)
  | overflowed full overflows =>
      exact .overflowed full (overflows.of_visits visits)
  | died answer less below later =>
      exact .died (answers 0 answer) less (below.trans_le ordered) later

theorem searchExecute_ending
    (program : Program) (input : CString) (fuel : Nat) {saved : List Thread}
    {pc sp : Nat} {result : Int}
    (pcInside : pc < program.insts.length)
    (spInside : sp ≤ input.chars.length)
    (bounded : saved.length ≤ maxThread)
    (returned :
      searchExecute program.insts input fuel ⟨saved, .running ⟨pc, sp⟩⟩ =
        .value result) :
    Ending program.insts input saved fuel pc sp result := by
  -- The thread that a `Split` saves is resumed with less fuel, not one less.
  induction fuel using Nat.strong_induction_on
    generalizing saved pc sp with
  | _ fuel ih =>
      cases fuel with
      | zero => cases returned
      | succ fuel =>
          have shorter := Nat.lt_succ_self fuel
          have fetched := List.getElem?_eq_getElem pcInside
          cases program.complete_of_fetched fetched with
          | char code next nonzero =>
              rcases read_inside input spInside with ⟨ch, read, inside⟩
              rw [searchExecute_char fetched code read] at returned
              by_cases equal : ch.toInt = program.insts[pc].c
              · rw [if_pos equal] at returned
                have ending :=
                  ih fuel shorter next (inside _ nonzero equal) bounded
                    returned
                apply ending.of_continued shorter.le
                · intro value answer
                  exact answer.char fetched code read equal
                · intro depth last position visits
                  exact visits.char fetched code read equal
              · rw [if_neg equal] at returned
                have answer := Answer.mismatch fetched code read equal
                exact .died answer fuel shorter returned
          | accept code =>
              rw [searchExecute_match fetched code] at returned
              cases returned
              exact .matched rfl ⟨1, recursiveloop_match fetched code⟩
          | jmp code target =>
              rw [searchExecute_jmp fetched code] at returned
              have ending :=
                ih fuel shorter target spInside bounded returned
              apply ending.of_continued shorter.le
              · intro value answer
                exact answer.jmp fetched code
              · intro depth last position visits
                exact visits.jmp fetched code
          | split code left right =>
              by_cases room : saved.length < maxThread
              · rw [searchExecute_split fetched code room] at returned
                have oneMore :
                    (⟨program.insts[pc].y, sp⟩ :: saved :
                      List Thread).length ≤ maxThread := room
                cases ih fuel shorter left spInside oneMore returned with
                | matched one answer =>
                    exact .matched one (answer.left fetched code)
                | overflowed full overflows =>
                    exact .overflowed full (overflows.left fetched code)
                | died first less ordered later =>
                    -- The thread saved here is the next one to run.
                    cases less with
                    | zero => cases later
                    | succ less =>
                        rw [searchExecute_pop] at later
                        have below : less < fuel + 1 := by omega
                        have ending :=
                          ih less below right spInside bounded later
                        apply ending.of_continued below.le
                        · intro value answer
                          exact
                            .right fetched code first (by decide) answer
                        · intro depth last position visits
                          exact
                            visits.right fetched code first (by decide)
              · have full : maxThread ≤ saved.length := Nat.not_lt.mp room
                rw [searchExecute_full fetched code full] at returned
                cases returned
                have sum : saved.length + 0 = maxThread :=
                  le_antisymm bounded full
                exact
                  .overflowed rfl
                    ⟨0, sum, pc, sp, _, .here pc sp, fetched, code⟩

/-! ## From the recursion to the machine -/

section Halts

variable {insts : List Inst} {input : CString} {saved : List Thread}
  {pc sp : Nat} {inst : Inst} {result : Int}

/-- The machine with a list returns that value. -/
def Halts (insts : List Inst) (input : CString) (search : Search)
    (result : Int) : Prop :=
  ∃ fuel, searchExecute insts input fuel search = .value result

theorem Halts.pop {thread : Thread}
    (halts : Halts insts input ⟨saved, .running thread⟩ result) :
    Halts insts input ⟨thread :: saved, .scheduling⟩ result := by
  rcases halts with ⟨fuel, returned⟩
  exact ⟨fuel + 1, returned⟩

theorem Halts.char {ch : Int8}
    (fetched : insts[pc]? = some inst) (code : inst.op = some .Char)
    (read : input.read sp = .value ch) (equal : ch.toInt = inst.c)
    (halts :
      Halts insts input ⟨saved, .running ⟨pc + 1, sp + 1⟩⟩ result) :
    Halts insts input ⟨saved, .running ⟨pc, sp⟩⟩ result := by
  rcases halts with ⟨fuel, returned⟩
  refine ⟨fuel + 1, ?_⟩
  rw [searchExecute_char fetched code read, if_pos equal]
  exact returned

theorem Halts.mismatch {ch : Int8}
    (fetched : insts[pc]? = some inst) (code : inst.op = some .Char)
    (read : input.read sp = .value ch) (different : ch.toInt ≠ inst.c)
    (halts : Halts insts input ⟨saved, .scheduling⟩ result) :
    Halts insts input ⟨saved, .running ⟨pc, sp⟩⟩ result := by
  rcases halts with ⟨fuel, returned⟩
  refine ⟨fuel + 1, ?_⟩
  rw [searchExecute_char fetched code read, if_neg different]
  exact returned

theorem Halts.jmp
    (fetched : insts[pc]? = some inst) (code : inst.op = some .Jmp)
    (halts : Halts insts input ⟨saved, .running ⟨inst.x, sp⟩⟩ result) :
    Halts insts input ⟨saved, .running ⟨pc, sp⟩⟩ result := by
  rcases halts with ⟨fuel, returned⟩
  refine ⟨fuel + 1, ?_⟩
  rw [searchExecute_jmp fetched code]
  exact returned

theorem Halts.split
    (fetched : insts[pc]? = some inst) (code : inst.op = some .Split)
    (room : saved.length < maxThread)
    (halts :
      Halts insts input
        ⟨⟨inst.y, sp⟩ :: saved, .running ⟨inst.x, sp⟩⟩ result) :
    Halts insts input ⟨saved, .running ⟨pc, sp⟩⟩ result := by
  rcases halts with ⟨fuel, returned⟩
  refine ⟨fuel + 1, ?_⟩
  rw [searchExecute_split fetched code room]
  exact returned

theorem halts_of_full
    (fetched : insts[pc]? = some inst) (code : inst.op = some .Split)
    (full : maxThread ≤ saved.length) :
    Halts insts input ⟨saved, .running ⟨pc, sp⟩⟩ (-1) :=
  ⟨1, searchExecute_full fetched code full⟩

end Halts

/--
What an answer of the recursion says about the machine that runs the same
thread: it overflows its array, or it returns 1 for a match, or it gets back
to the threads that were saved.
-/
inductive Answered (insts : List Inst) (input : CString)
    (saved : List Thread) (pc sp : Nat) (answer : Int) : Prop where
  | overflowed
      (halts : Halts insts input ⟨saved, .running ⟨pc, sp⟩⟩ (-1))
  | matched (one : answer = 1)
      (halts : Halts insts input ⟨saved, .running ⟨pc, sp⟩⟩ 1)
  | died (zero : answer = 0)
      (resumes :
        ∀ result, Halts insts input ⟨saved, .scheduling⟩ result →
          Halts insts input ⟨saved, .running ⟨pc, sp⟩⟩ result)

/-- A machine that gets to another thread with the same threads saved. -/
theorem Answered.of_continued
    {insts : List Inst} {input : CString} {saved : List Thread}
    {pc sp fromPc fromSp : Nat} {answer : Int}
    (answered : Answered insts input saved pc sp answer)
    (continues :
      ∀ result, Halts insts input ⟨saved, .running ⟨pc, sp⟩⟩ result →
        Halts insts input ⟨saved, .running ⟨fromPc, fromSp⟩⟩ result) :
    Answered insts input saved fromPc fromSp answer := by
  cases answered with
  | overflowed halts => exact .overflowed (continues (-1) halts)
  | matched one halts => exact .matched one (continues 1 halts)
  | died zero resumes =>
      exact .died zero fun result halts =>
        continues result (resumes result halts)

theorem recursiveloop_answered
    (program : Program) (input : CString) (fuel : Nat)
    (saved : List Thread) {pc sp : Nat} {answer : Int}
    (pcInside : pc < program.insts.length)
    (spInside : sp ≤ input.chars.length)
    (returned :
      recursiveloop program.insts input fuel pc sp = .value answer) :
    Answered program.insts input saved pc sp answer := by
  induction fuel generalizing saved pc sp answer with
  | zero => cases returned
  | succ fuel ih =>
      have fetched := List.getElem?_eq_getElem pcInside
      cases program.complete_of_fetched fetched with
      | char code next nonzero =>
          rcases read_inside input spInside with ⟨ch, read, inside⟩
          rw [recursiveloop_char fetched code, read, value_bind] at returned
          by_cases equal : ch.toInt = program.insts[pc].c
          · rw [if_pos equal] at returned
            have answered :=
              ih saved next (inside _ nonzero equal) returned
            apply answered.of_continued
            intro result halts
            exact halts.char fetched code read equal
          · rw [if_neg equal] at returned
            cases returned
            apply Answered.died rfl
            intro result halts
            exact halts.mismatch fetched code read equal
      | accept code =>
          rw [recursiveloop_match fetched code] at returned
          cases returned
          exact .matched rfl ⟨1, searchExecute_match fetched code⟩
      | jmp code target =>
          rw [recursiveloop_jmp fetched code] at returned
          apply (ih saved target spInside returned).of_continued
          intro result halts
          exact halts.jmp fetched code
      | split code left right =>
          by_cases room : saved.length < maxThread
          · rw [recursiveloop_split fetched code] at returned
            cases first :
                recursiveloop program.insts input fuel
                  program.insts[pc].x sp with
            | timeout =>
                rw [first] at returned
                cases returned
            | fault reason =>
                rw [first] at returned
                cases returned
            | value leftAnswer =>
                rw [first, value_bind] at returned
                cases ih (⟨_, sp⟩ :: saved) left spInside first with
                | overflowed halts =>
                    exact .overflowed (halts.split fetched code room)
                | matched one halts =>
                    rw [if_pos one] at returned
                    cases returned
                    exact .matched rfl (halts.split fetched code room)
                | died zero resumes =>
                    -- The machine pops the right branch where the loop
                    -- continues with it.
                    rw [if_neg (by rw [zero]; decide)] at returned
                    apply (ih saved right spInside returned).of_continued
                    intro result halts
                    exact
                      (resumes result halts.pop).split fetched code room
          · have full : maxThread ≤ saved.length := Nat.not_lt.mp room
            exact .overflowed (halts_of_full fetched code full)

/-- A visit that fills the array makes the machine give up. -/
theorem Visits.halts
    {program : Program} {input : CString}
    {pc sp depth target position : Nat}
    (visits :
      Visits program.insts input pc sp depth target position)
    {split : Inst} (fetchedSplit : program.insts[target]? = some split)
    (codeSplit : split.op = some .Split) {saved : List Thread}
    (sum : saved.length + depth = maxThread)
    (pcInside : pc < program.insts.length)
    (spInside : sp ≤ input.chars.length) :
    Halts program.insts input ⟨saved, .running ⟨pc, sp⟩⟩ (-1) := by
  induction visits generalizing saved with
  | here pc sp => exact halts_of_full fetchedSplit codeSplit (by omega)
  | @char pc sp depth target position inst ch fetched code read equal _
      ih =>
      have closed := (program.closed_of_fetched fetched).char code
      rcases read_inside input spInside with ⟨other, readAgain, inside⟩
      rw [read] at readAgain
      cases readAgain
      have halts :=
        ih fetchedSplit sum closed.1 (inside inst.c closed.2 equal)
      exact halts.char fetched code read equal
  | jmp fetched code _ ih =>
      have target := (program.closed_of_fetched fetched).jmp code
      exact (ih fetchedSplit sum target spInside).jmp fetched code
  | @left pc sp depth target position inst fetched code _ ih =>
      have closed := (program.closed_of_fetched fetched).split code
      by_cases room : saved.length < maxThread
      · have sumLeft :
            (⟨inst.y, sp⟩ :: saved : List Thread).length + depth =
              maxThread := by
          simp only [List.length_cons]
          omega
        exact
          (ih fetchedSplit sumLeft closed.1 spInside).split fetched code
            room
      · exact halts_of_full fetched code (Nat.not_lt.mp room)
  | @right pc sp depth target position inst rejected fetched code first
      other _ ih =>
      have closed := (program.closed_of_fetched fetched).split code
      by_cases room : saved.length < maxThread
      · rcases first with ⟨fuel, returned⟩
        have answered :=
          recursiveloop_answered program input fuel
            (⟨inst.y, sp⟩ :: saved) closed.1 spInside returned
        cases answered with
        | overflowed halts => exact halts.split fetched code room
        | matched one _ => exact absurd one other
        | died _ resumes =>
            have halts := ih fetchedSplit sum closed.2 spInside
            exact (resumes (-1) halts.pop).split fetched code room
      · exact halts_of_full fetched code (Nat.not_lt.mp room)

/-! ## The states of a run -/

/-- The transitions of the machine; each state has at most one. -/
def next (insts : List Inst) (input : CString) (vm : Vm) (_ : Unit) :
    Option Vm :=
  match step insts input vm with
  | .value (.continued later) => some later
  | _ => none

/-- A pass of the machine keeps the array and the counter in step. -/
theorem Represents.preserved
    {insts : List Inst} {input : CString} {vm later : Vm} {search : Search}
    (represents : Represents vm search)
    (stepped : next insts input vm () = some later) :
    ∃ further, Represents later further := by
  have turn := represents.corresponds insts input
  rw [next] at stepped
  revert turn stepped
  generalize step insts input vm = concrete
  generalize searchStep insts input search = listed
  intro stepped turn
  cases turn with
  | fault reason => cases stepped
  | returned result => cases stepped
  | continued further =>
      cases stepped
      exact ⟨_, further⟩

/-- In every state of a run the array and the counter hold some threads. -/
theorem represents_of_reachable
    {insts : List Inst} {input : CString} {vm : Vm}
    (reachable :
      Execution.Reachable (next insts input) initial vm) :
    ∃ search, Represents vm search := by
  have preserved :
      ∀ state action later, (∃ search, Represents state search) →
        next insts input state action = some later →
          ∃ search, Represents later search := by
    rintro state _ later ⟨search, represents⟩ stepped
    exact represents.preserved stepped
  exact reachable.invariant preserved ⟨_, initial_represents⟩

/-- No access to the array of threads leaves it or reads an unwritten slot. -/
theorem Represents.step_ne_fault
    (insts : List Inst) (input : CString) {vm : Vm} {search : Search}
    (represents : Represents vm search) :
    step insts input vm ≠ .fault .outsideReady ∧
      step insts input vm ≠ .fault .uninitialized := by
  have turn := represents.corresponds insts input
  revert turn
  generalize step insts input vm = concrete
  generalize searchStep insts input search = listed
  intro turn
  cases turn with
  | fault reason => simp
  | returned result => simp
  | continued further => simp

/-- What the machine returns is what the list machine returns from the start. -/
theorem backtrackingvm_yields_iff_halts
    (insts : List Inst) (input : CString) (result : Int) :
    Yields (backtrackingvm insts input) result ↔
      Halts insts input ⟨[⟨0, 0⟩], .scheduling⟩ result := by
  have same (fuel : Nat) :
      backtrackingvm insts input fuel =
        searchExecute insts input fuel ⟨[⟨0, 0⟩], .scheduling⟩ :=
    initial_represents.execute_eq insts input fuel
  constructor
  · rintro ⟨fuel, returned⟩
    exact ⟨fuel, (same fuel).symm.trans returned⟩
  · rintro ⟨fuel, returned⟩
    exact ⟨fuel, (same fuel).trans returned⟩

/-- The ending of the initial thread: nothing is saved below it. -/
theorem ending_of_halts
    (program : Program) (input : CString) {result : Int}
    (halts :
      Halts program.insts input ⟨[⟨0, 0⟩], .scheduling⟩ result) :
    (result = 1 ∧ Answer program.insts input 0 0 1) ∨
      (result = -1 ∧ ReachesSplit program.insts input 0 0 maxThread) ∨
      (result = 0 ∧ Answer program.insts input 0 0 0) := by
  rcases halts with ⟨fuel, returned⟩
  cases fuel with
  | zero => cases returned
  | succ fuel =>
      rw [searchExecute_pop] at returned
      cases searchExecute_ending program input fuel program.nonempty
        (Nat.zero_le _) (Nat.zero_le _) returned with
      | matched one answer => exact Or.inl ⟨one, answer⟩
      | overflowed full overflows =>
          rcases overflows with ⟨depth, sum, reaches⟩
          rw [List.length_nil, Nat.zero_add] at sum
          rw [sum] at reaches
          exact Or.inr (Or.inl ⟨full, reaches⟩)
      | died answer less ordered later =>
          cases less with
          | zero => cases later
          | succ less =>
              rw [searchExecute_finished] at later
              cases later
              exact Or.inr (Or.inr ⟨rfl, answer⟩)

/-- The machine from its initial thread, when the recursion has answered. -/
theorem halts_of_answer
    (program : Program) (input : CString) {answer : Int}
    (answers : Answer program.insts input 0 0 answer) :
    Halts program.insts input ⟨[⟨0, 0⟩], .scheduling⟩ answer ∨
      Halts program.insts input ⟨[⟨0, 0⟩], .scheduling⟩ (-1) := by
  rcases answers with ⟨fuel, returned⟩
  cases recursiveloop_answered program input fuel [] program.nonempty
    (Nat.zero_le _) returned with
  | overflowed halts => exact Or.inr halts.pop
  | matched one halts =>
      rw [one]
      exact Or.inl halts.pop
  | died zero resumes =>
      rw [zero]
      exact Or.inl (resumes 0 ⟨1, searchExecute_finished⟩).pop

/--
On every program and every string, with cycles of silent moves allowed:
an answer 0 or 1 of the machine is the answer of the recursion; where the
recursion answers, the machine gives the same answer or -1; it gives -1
exactly if the recursion reaches a `Split` with 25 calls pending; and in
every state of a run the counter is between 0 and 25 and every access to the
array is to a written slot of it.
-/
theorem backtrackingvm_refines
    (program : Program) (input : CString) :
    (∀ result, result = 0 ∨ result = 1 →
      Yields (backtrackingvm program.insts input) result →
        Yields (fun fuel => recursiveloop program.insts input fuel 0 0)
          result) ∧
      (∀ result,
        Yields (fun fuel => recursiveloop program.insts input fuel 0 0)
            result →
          Yields (backtrackingvm program.insts input) result ∨
            Yields (backtrackingvm program.insts input) (-1)) ∧
      (Yields (backtrackingvm program.insts input) (-1) ↔
        ReachesSplit program.insts input 0 0 25) ∧
      ∀ vm,
        Execution.Reachable (next program.insts input) initial vm →
          0 ≤ vm.nready ∧ vm.nready ≤ 25 ∧ vm.ready.length = 25 ∧
            step program.insts input vm ≠ .fault .outsideReady ∧
            step program.insts input vm ≠ .fault .uninitialized := by
  refine ⟨?_, ?_, ?_, ?_⟩
  · intro result verdict returned
    rw [backtrackingvm_yields_iff_halts] at returned
    rcases ending_of_halts program input returned with
      ⟨rfl, answer⟩ | ⟨rfl, _⟩ | ⟨rfl, answer⟩
    · exact answer
    · rcases verdict with impossible | impossible <;> cases impossible
    · exact answer
  · intro result answer
    rw [backtrackingvm_yields_iff_halts, backtrackingvm_yields_iff_halts]
    exact halts_of_answer program input answer
  · rw [backtrackingvm_yields_iff_halts]
    constructor
    · intro halts
      rcases ending_of_halts program input halts with
        ⟨impossible, _⟩ | ⟨_, reaches⟩ | ⟨impossible, _⟩
      · cases impossible
      · exact reaches
      · cases impossible
    · rintro ⟨target, position, split, visits, fetched, code⟩
      have halts :
          Halts program.insts input ⟨[], .running ⟨0, 0⟩⟩ (-1) :=
        visits.halts fetched code rfl program.nonempty (Nat.zero_le _)
      exact halts.pop
  · intro vm reachable
    rcases represents_of_reachable reachable with ⟨search, represents⟩
    have bounded := represents.saved_le
    have count := represents.count
    rw [maxThread] at bounded
    refine ⟨by omega, by omega, represents.size, ?_⟩
    exact represents.step_ne_fault program.insts input

/-- On `a?a` and the string `a` both return 1. -/
theorem backtrackingvm_refines_optionalLetter :
    Yields
      (fun fuel => recursiveloop optionalLetter.insts letter fuel 0 0) 1 :=
  (backtrackingvm_refines optionalLetter letter).1 1 (Or.inr rfl)
    ⟨8, by decide⟩

end CodingExamples.RegexVm.Backtrackingvm
