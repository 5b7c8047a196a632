import CodingExamples.Library.Execution
import Mathlib.Data.List.Perm.Basic

/-!
# Loading and unloading the kernel module

`flow_tracker_init` acquires the memory of the flow table and two Netfilter
hooks, and `flow_tracker_exit` gives them back.  A step of the model is one of
these acquisitions or releases, so that packets are handled between them.
Every load attempt starts from a new image of the module, whose static data
is zero.

Memory is a list of live addresses: the array of list heads and the entries
that the hook links into it.  Which list an entry belongs to is the subject of
the table's own model and is left to the environment here; `ModuleTable` shows
that every operation of the table is such a step.

A registration that fails makes `flow_tracker_init` return -1 with whatever
was acquired before it still held.
-/

namespace CodingExamples.FlowTracker.Module

open CodingExamples.Library.Execution

/-- The two hook descriptions of an image. -/
inductive HookOps where
  | nfHookOut
  | nfHookIn
deriving DecidableEq, Repr

/-- `struct flow_table`, with the array that `lists` points to. -/
structure TableMemory where
  lists : Option Nat
  heads : List (List Nat)
  bits : Nat
  numFlows : BitVec 32
deriving DecidableEq, Repr

/-- Where the module is between `insmod` and `rmmod`. -/
inductive Phase where
  | unloaded
  -- In `flow_tracker_init`, before each of the two registrations.
  | registeringOut
  | registeringIn
  | loaded
  -- In `flow_tracker_exit`, after each of the two unregistrations.
  | unregisteringIn
  | freeing
deriving DecidableEq, Repr

structure Kernel where
  phase : Phase
  image : Nat
  paramDev : Option (List (BitVec 8))
  table : TableMemory
  registered : List (Nat × HookOps)
  nextAddress : Nat
  heap : List Nat
deriving DecidableEq, Repr

/-- Static data of an image that was just loaded. -/
def zeroTable : TableMemory where
  lists := none
  heads := []
  bits := 0
  numFlows := 0

/-- Before the first load attempt. -/
def start : Kernel where
  phase := .unloaded
  image := 0
  paramDev := none
  table := zeroTable
  registered := []
  nextAddress := 0
  heap := []

/-! ## The functions of the module -/

/-- The first 32 characters end at a newline. -/
def trim (paramDev : List (BitVec 8)) : List (BitVec 8) :=
  if 10 ∈ paramDev.take 32 then
    paramDev.takeWhile fun byte => byte != 10
  else
    paramDev

/-- `init_table(&table, bits)`. -/
def initTable (vmalloc : Bool) (kernel : Kernel) (bits : Nat) :
    Bool × Kernel :=
  if bits > 16 then
    (false, kernel)
  else if vmalloc then
    (true,
      { kernel with
        table :=
          { lists := some kernel.nextAddress
            heads := List.replicate (1 <<< bits) []
            bits := bits
            numFlows := 0 }
        nextAddress := kernel.nextAddress + 1
        heap := kernel.nextAddress :: kernel.heap })
  else
    (false, { kernel with table := { kernel.table with lists := none } })

/-- `kfree` of the entries of one list after the other. -/
def freeLists : List (List Nat) → List Nat → List Nat
  | [], heap => heap
  | list :: rest, heap => freeLists rest (list.foldl List.erase heap)

/-- `vfree(address)`. -/
def vfree (address : Option Nat) (heap : List Nat) : List Nat :=
  match address with
  | none => heap
  | some address => heap.erase address

/-- `free_table(&table)`, `none` if it leaves the array. -/
def freeTable (kernel : Kernel) : Option Kernel :=
  let numLists := 1 <<< kernel.table.bits
  if numLists ≤ kernel.table.heads.length then
    let heap := freeLists (kernel.table.heads.take numLists) kernel.heap
    some
      { kernel with
        table :=
          { kernel.table with
            heads :=
              List.replicate numLists [] ++
                kernel.table.heads.drop numLists }
        heap := vfree kernel.table.lists heap }
  else
    none

/-- `nf_register_hook(&ops)`; the answer 0 is success. -/
def nfRegisterHook (failed : Bool) (ops : HookOps) (kernel : Kernel) :
    Int × Kernel :=
  if failed then
    (-1, kernel)
  else
    (0,
      { kernel with
        registered := (kernel.image, ops) :: kernel.registered })

/-- `nf_unregister_hook(&ops)`. -/
def nfUnregisterHook (ops : HookOps) (kernel : Kernel) : Kernel :=
  { kernel with registered := kernel.registered.erase (kernel.image, ops) }

/-! ## The steps -/

inductive Action where
  /-- `insmod`, and `flow_tracker_init` up to its first registration. -/
  | init (paramDev : Option (List (BitVec 8))) (vmalloc : Bool)
  | registerOut (failed : Bool)
  | registerIn (failed : Bool)
  /-- `rmmod`, and `flow_tracker_exit` up to its first unregistration. -/
  | exit
  | unregisterIn
  | free
  /-- The outgoing hook links a new entry into a list. -/
  | insert (index : Nat)
  /-- The outgoing hook unlinks and frees the entry at a position. -/
  | delete (index position : Nat)
deriving DecidableEq, Repr

/-- `flow_tracker_init` until it registers its first hook. -/
def flowTrackerInit (paramDev : Option (List (BitVec 8))) (vmalloc : Bool)
    (kernel : Kernel) : Kernel :=
  let image :=
    { kernel with
      image := kernel.image + 1
      paramDev := paramDev.map trim
      table := zeroTable }
  let (success, kernel) := initTable vmalloc image 8
  if success then
    { kernel with phase := .registeringOut }
  else
    { kernel with phase := .unloaded }

/-- One of the two registrations of `flow_tracker_init`. -/
def registerStep (failed : Bool) (ops : HookOps) (continued : Phase)
    (kernel : Kernel) : Kernel :=
  let (error, kernel) := nfRegisterHook failed ops kernel
  if error ≠ 0 then
    -- `return -1`
    { kernel with phase := .unloaded }
  else
    { kernel with phase := continued }

/-- The effect of `insert_table` on the memory of the table. -/
def insertEntry (kernel : Kernel) (index : Nat) : Option Kernel := do
  let list ← kernel.table.heads[index]?
  pure
    { kernel with
      table :=
        { kernel.table with
          heads :=
            kernel.table.heads.set index (kernel.nextAddress :: list)
          numFlows := kernel.table.numFlows + 1 }
      nextAddress := kernel.nextAddress + 1
      heap := kernel.nextAddress :: kernel.heap }

/-- The effect of `delete_table` on the memory of the table. -/
def deleteEntry (kernel : Kernel) (index position : Nat) :
    Option Kernel := do
  let list ← kernel.table.heads[index]?
  let obj ← list[position]?
  pure
    { kernel with
      table :=
        { kernel.table with
          heads := kernel.table.heads.set index (list.eraseIdx position)
          numFlows := kernel.table.numFlows - 1 }
      heap := kernel.heap.erase obj }

/-- The outgoing hook of the current image can run. -/
def outHooked (kernel : Kernel) : Bool :=
  kernel.registered.contains (kernel.image, .nfHookOut)

/-- The transitions; an action that does not fit the phase is not enabled. -/
def next (kernel : Kernel) : Action → Option Kernel
  | .init paramDev vmalloc =>
      if kernel.phase = .unloaded then
        some (flowTrackerInit paramDev vmalloc kernel)
      else
        none
  | .registerOut failed =>
      if kernel.phase = .registeringOut then
        some (registerStep failed .nfHookOut .registeringIn kernel)
      else
        none
  | .registerIn failed =>
      if kernel.phase = .registeringIn then
        some (registerStep failed .nfHookIn .loaded kernel)
      else
        none
  | .exit =>
      if kernel.phase = .loaded then
        some
          { nfUnregisterHook .nfHookOut kernel with
            phase := .unregisteringIn }
      else
        none
  | .unregisterIn =>
      if kernel.phase = .unregisteringIn then
        some { nfUnregisterHook .nfHookIn kernel with phase := .freeing }
      else
        none
  | .free =>
      if kernel.phase = .freeing then
        (freeTable kernel).map fun kernel =>
          { kernel with phase := .unloaded }
      else
        none
  | .insert index =>
      if kernel.phase ≠ .unloaded ∧ outHooked kernel then
        insertEntry kernel index
      else
        none
  | .delete index position =>
      if kernel.phase ≠ .unloaded ∧ outHooked kernel then
        deleteEntry kernel index position
      else
        none

/-! ## What has to hold in every state -/

/-- The array of the table is allocated and has one head for each list. -/
structure Initialised (kernel : Kernel) : Prop where
  allocated :
    ∃ address, kernel.table.lists = some address ∧ address ∈ kernel.heap
  complete : kernel.table.heads.length = 1 <<< kernel.table.bits

/--
A module that is not loaded holds nothing, and while a hook is registered the
table that it uses is initialised.
-/
structure Safe (kernel : Kernel) : Prop where
  unhooked : kernel.phase = .unloaded → kernel.registered = []
  released : kernel.phase = .unloaded → kernel.heap = []
  initialised : kernel.registered ≠ [] → Initialised kernel

/-- The step is not a registration that fails. -/
def Registers : Kernel → Action → Prop
  | _, .registerOut failed => failed = false
  | _, .registerIn failed => failed = false
  | _, _ => True

/-! ## The memory of the table -/

/-- The addresses that the table reaches. -/
def blocks (table : TableMemory) : List Nat :=
  table.lists.toList ++ table.heads.flatten

/-- Replacing one list replaces its entries among those of the table. -/
theorem flatten_set_perm
    {heads : List (List Nat)} {index : Nat} {list : List Nat}
    (found : heads[index]? = some list) (other : List Nat) :
    (heads.set index other).flatten.Perm
      (other ++ (heads.eraseIdx index).flatten) := by
  rcases List.getElem?_eq_some_iff.mp found with ⟨inside, rfl⟩
  have inside' : index < (heads.set index other).length := by
    rwa [List.length_set]
  have moved :=
    (List.getElem_cons_eraseIdx_perm inside').flatten
  rw [List.getElem_set_self, List.eraseIdx_set_eq] at moved
  exact moved.symm

theorem flatten_perm
    {heads : List (List Nat)} {index : Nat} {list : List Nat}
    (found : heads[index]? = some list) :
    heads.flatten.Perm (list ++ (heads.eraseIdx index).flatten) := by
  rcases List.getElem?_eq_some_iff.mp found with ⟨inside, rfl⟩
  exact (List.getElem_cons_eraseIdx_perm inside).flatten.symm

/-- Freeing the entries of a list leaves the other blocks. -/
theorem foldl_erase_perm
    {heap list rest : List Nat} (owned : heap.Perm (list ++ rest)) :
    (list.foldl List.erase heap).Perm rest := by
  induction list generalizing heap with
  | nil => exact owned
  | cons obj list ih =>
      apply ih
      have erased := owned.erase obj
      rwa [List.cons_append, List.erase_cons_head] at erased

/-- Freeing all lists leaves the blocks that are in none of them. -/
theorem freeLists_perm
    {heap rest : List Nat} {lists : List (List Nat)}
    (owned : heap.Perm (lists.flatten ++ rest)) :
    (freeLists lists heap).Perm rest := by
  induction lists generalizing heap with
  | nil => exact owned
  | cons list lists ih =>
      apply ih
      apply foldl_erase_perm
      rwa [List.flatten_cons, List.append_assoc] at owned

/-! ## The invariant -/

/-- The hooks that are registered in each phase. -/
def hooksAt (image : Nat) : Phase → List (Nat × HookOps)
  | .unloaded => []
  | .registeringOut => []
  | .registeringIn => [(image, .nfHookOut)]
  | .loaded => [(image, .nfHookIn), (image, .nfHookOut)]
  | .unregisteringIn => [(image, .nfHookIn)]
  | .freeing => []

/-- Everything that is held belongs to the current phase. -/
structure Accounted (kernel : Kernel) : Prop where
  hooks : kernel.registered = hooksAt kernel.image kernel.phase
  released : kernel.phase = .unloaded → kernel.heap = []
  held :
    kernel.phase ≠ .unloaded →
      kernel.table.lists.isSome ∧
        kernel.table.heads.length = 1 <<< kernel.table.bits ∧
        kernel.heap.Perm (blocks kernel.table)

theorem start_accounted : Accounted start where
  hooks := rfl
  released := by
    intro _
    rfl
  held := by
    intro loaded
    exact absurd rfl loaded

theorem Accounted.safe
    {kernel : Kernel} (accounted : Accounted kernel) :
    Safe kernel where
  unhooked := by
    intro unloaded
    rw [accounted.hooks, unloaded]
    rfl
  released := accounted.released
  initialised := by
    intro hooked
    have loaded : kernel.phase ≠ .unloaded := by
      intro unloaded
      apply hooked
      rw [accounted.hooks, unloaded]
      rfl
    rcases accounted.held loaded with ⟨allocated, complete, owned⟩
    rcases Option.isSome_iff_exists.mp allocated with ⟨address, lists⟩
    refine ⟨⟨address, lists, ?_⟩, complete⟩
    rw [owned.mem_iff, blocks, lists]
    simp

/-- `init_table` fails without memory, or allocates an array of empty lists. -/
theorem flowTrackerInit_accounted
    {kernel : Kernel} (accounted : Accounted kernel)
    (unloaded : kernel.phase = .unloaded)
    (paramDev : Option (List (BitVec 8))) (vmalloc : Bool) :
    Accounted (flowTrackerInit paramDev vmalloc kernel) := by
  have hooks := accounted.hooks
  have empty := accounted.released unloaded
  rw [unloaded] at hooks
  cases vmalloc with
  | false =>
      refine ⟨hooks, fun _ => empty, ?_⟩
      intro loaded
      exact absurd rfl loaded
  | true =>
      refine ⟨hooks, ?_, ?_⟩
      · intro impossible
        cases impossible
      · intro _
        have table :
            (flowTrackerInit paramDev true kernel).table =
              { lists := some kernel.nextAddress
                heads := List.replicate (1 <<< 8) []
                bits := 8
                numFlows := 0 } :=
          rfl
        have heap :
            (flowTrackerInit paramDev true kernel).heap =
              kernel.nextAddress :: kernel.heap :=
          rfl
        rw [blocks, table, heap, empty]
        refine ⟨rfl, List.length_replicate, ?_⟩
        rw [List.flatten_replicate_nil]
        exact List.Perm.refl _

/-- A registration that succeeds adds the hook of the next phase. -/
theorem registerStep_accounted
    {kernel : Kernel} (accounted : Accounted kernel)
    (loading : kernel.phase ≠ .unloaded) {ops : HookOps} {phase : Phase}
    (continues : phase ≠ .unloaded)
    (added :
      hooksAt kernel.image phase =
        (kernel.image, ops) :: hooksAt kernel.image kernel.phase) :
    Accounted (registerStep false ops phase kernel) where
  hooks := by
    show (kernel.image, ops) :: kernel.registered = _
    rw [accounted.hooks, ← added]
    rfl
  released := by
    intro unloaded
    exact absurd unloaded continues
  held := by
    intro _
    exact accounted.held loading

/-- An unregistration removes the hook that the last phase had. -/
theorem nfUnregisterHook_accounted
    {kernel : Kernel} (accounted : Accounted kernel)
    (loaded : kernel.phase ≠ .unloaded) {ops : HookOps} {phase : Phase}
    (continues : phase ≠ .unloaded)
    (removed :
      hooksAt kernel.image phase =
        (hooksAt kernel.image kernel.phase).erase (kernel.image, ops)) :
    Accounted { nfUnregisterHook ops kernel with phase := phase } where
  hooks := by
    show kernel.registered.erase (kernel.image, ops) = _
    rw [accounted.hooks, ← removed]
    rfl
  released := by
    intro unloaded
    exact absurd unloaded continues
  held := by
    intro _
    exact accounted.held loaded

/-- `free_table` stays inside the array and gives back every block. -/
theorem freeTable_accounted
    {kernel : Kernel} (accounted : Accounted kernel)
    (freeing : kernel.phase = .freeing) :
    ∃ freed, freeTable kernel = some freed ∧
      Accounted { freed with phase := .unloaded } := by
  have loaded : kernel.phase ≠ .unloaded := by
    rw [freeing]
    intro impossible
    cases impossible
  rcases accounted.held loaded with ⟨allocated, complete, owned⟩
  rcases Option.isSome_iff_exists.mp allocated with ⟨address, lists⟩
  refine ⟨_, if_pos (Nat.le_of_eq complete.symm), ?_, ?_, ?_⟩
  · show kernel.registered = []
    rw [accounted.hooks, freeing]
    rfl
  · intro _
    show vfree kernel.table.lists
      (freeLists (kernel.table.heads.take (1 <<< kernel.table.bits))
        kernel.heap) = []
    rw [← complete, List.take_length, lists, vfree]
    rw [blocks, lists] at owned
    have arrayLeft :
        (freeLists kernel.table.heads kernel.heap).Perm [address] := by
      apply freeLists_perm
      exact owned.trans List.perm_append_comm
    rw [List.perm_singleton.mp arrayLeft]
    exact List.erase_cons_head address []
  · intro impossible
    exact absurd rfl impossible

/-- An entry that is linked is reached from the table. -/
theorem insertEntry_accounted
    {kernel result : Kernel} (accounted : Accounted kernel)
    (loaded : kernel.phase ≠ .unloaded) {index : Nat}
    (inserted : insertEntry kernel index = some result) :
    Accounted result := by
  rw [insertEntry, Option.bind_eq_bind, Option.bind_eq_some_iff] at inserted
  rcases inserted with ⟨list, found, same⟩
  cases same
  rcases accounted.held loaded with ⟨allocated, complete, owned⟩
  refine ⟨accounted.hooks, ?_, ?_⟩
  · intro unloaded
    exact absurd unloaded loaded
  · intro _
    refine ⟨allocated, by rw [List.length_set]; exact complete, ?_⟩
    have grown :
        (kernel.table.heads.set index (kernel.nextAddress :: list)).flatten.Perm
          (kernel.nextAddress :: kernel.table.heads.flatten) :=
      (flatten_set_perm found _).trans ((flatten_perm found).symm.cons _)
    have middle :
        (kernel.nextAddress :: blocks kernel.table).Perm
          (kernel.table.lists.toList ++
            kernel.nextAddress :: kernel.table.heads.flatten) :=
      List.perm_middle.symm
    exact
      ((owned.cons kernel.nextAddress).trans middle).trans
        (grown.symm.append_left _)

/-- An entry that is unlinked is given back. -/
theorem deleteEntry_accounted
    {kernel result : Kernel} (accounted : Accounted kernel)
    (loaded : kernel.phase ≠ .unloaded) {index position : Nat}
    (deleted : deleteEntry kernel index position = some result) :
    Accounted result := by
  rw [deleteEntry, Option.bind_eq_bind, Option.bind_eq_some_iff] at deleted
  rcases deleted with ⟨list, found, deleted⟩
  rw [Option.bind_eq_bind, Option.bind_eq_some_iff] at deleted
  rcases deleted with ⟨obj, at_position, same⟩
  cases same
  rcases accounted.held loaded with ⟨allocated, complete, owned⟩
  refine ⟨accounted.hooks, ?_, ?_⟩
  · intro unloaded
    exact absurd unloaded loaded
  · intro _
    refine ⟨allocated, by rw [List.length_set]; exact complete, ?_⟩
    rcases List.getElem?_eq_some_iff.mp at_position with ⟨inside, rfl⟩
    have split :
        kernel.table.heads.flatten.Perm
          (list[position] ::
            (kernel.table.heads.set index
              (list.eraseIdx position)).flatten) := by
      have listed :=
        (List.getElem_cons_eraseIdx_perm inside).symm.append_right
          (kernel.table.heads.eraseIdx index).flatten
      exact
        ((flatten_perm found).trans listed).trans
          ((flatten_set_perm found _).symm.cons _)
    have middle :
        (blocks kernel.table).Perm
          (list[position] ::
            (kernel.table.lists.toList ++
              (kernel.table.heads.set index
                (list.eraseIdx position)).flatten)) :=
      (split.append_left _).trans List.perm_middle
    have erased := (owned.trans middle).erase list[position]
    rwa [List.erase_cons_head] at erased

theorem phase_of_insertEntry
    {kernel result : Kernel} {index : Nat}
    (inserted : insertEntry kernel index = some result) :
    result.phase = kernel.phase := by
  rw [insertEntry, Option.bind_eq_bind, Option.bind_eq_some_iff] at inserted
  rcases inserted with ⟨list, _, same⟩
  cases same
  rfl

theorem phase_of_deleteEntry
    {kernel result : Kernel} {index position : Nat}
    (deleted : deleteEntry kernel index position = some result) :
    result.phase = kernel.phase := by
  rw [deleteEntry, Option.bind_eq_bind, Option.bind_eq_some_iff] at deleted
  rcases deleted with ⟨list, _, deleted⟩
  rw [Option.bind_eq_bind, Option.bind_eq_some_iff] at deleted
  rcases deleted with ⟨obj, _, same⟩
  cases same
  rfl

/-! ## Runs -/

/-- Without a failing registration every step accounts for what it leaves. -/
theorem next_accounted
    {kernel result : Kernel} {action : Action}
    (accounted : Accounted kernel) (registers : Registers kernel action)
    (step : next kernel action = some result) :
    Accounted result := by
  cases action with
  | init paramDev vmalloc =>
      rw [next, Option.ite_none_right_eq_some] at step
      rcases step with ⟨unloaded, same⟩
      cases same
      exact flowTrackerInit_accounted accounted unloaded paramDev vmalloc
  | registerOut failed =>
      rw [next, Option.ite_none_right_eq_some] at step
      rcases step with ⟨phase, same⟩
      cases registers
      cases same
      apply registerStep_accounted accounted
      · simp [phase]
      · simp
      · simp [phase, hooksAt]
  | registerIn failed =>
      rw [next, Option.ite_none_right_eq_some] at step
      rcases step with ⟨phase, same⟩
      cases registers
      cases same
      apply registerStep_accounted accounted
      · simp [phase]
      · simp
      · simp [phase, hooksAt]
  | exit =>
      rw [next, Option.ite_none_right_eq_some] at step
      rcases step with ⟨phase, same⟩
      cases same
      apply nfUnregisterHook_accounted accounted
      · simp [phase]
      · simp
      · simp [phase, hooksAt]
  | unregisterIn =>
      rw [next, Option.ite_none_right_eq_some] at step
      rcases step with ⟨phase, same⟩
      cases same
      apply nfUnregisterHook_accounted accounted
      · simp [phase]
      · simp
      · simp [phase, hooksAt]
  | free =>
      rw [next, Option.ite_none_right_eq_some] at step
      rcases step with ⟨phase, same⟩
      rcases freeTable_accounted accounted phase with
        ⟨freed, success, accountedFreed⟩
      rw [success] at same
      cases same
      exact accountedFreed
  | insert index =>
      rw [next, Option.ite_none_right_eq_some] at step
      exact insertEntry_accounted accounted step.1.1 step.2
  | delete index position =>
      rw [next, Option.ite_none_right_eq_some] at step
      exact deleteEntry_accounted accounted step.1.1 step.2

/-- A registration that fails leaves the array behind. -/
theorem registers_of_safe
    {kernel result : Kernel} {action : Action}
    (accounted : Accounted kernel)
    (step : next kernel action = some result) (safe : Safe result) :
    Registers kernel action := by
  have fails (ops : HookOps) (phase : Phase)
      (loading : kernel.phase ≠ .unloaded) :
      ¬ Safe (registerStep true ops phase kernel) := by
    intro safe
    have empty : kernel.heap = [] := safe.released rfl
    rcases accounted.held loading with ⟨allocated, _, owned⟩
    rw [empty, List.nil_perm, blocks, List.append_eq_nil_iff,
      Option.toList_eq_nil_iff] at owned
    rw [owned.1] at allocated
    cases allocated
  cases action with
  | registerOut failed =>
      rw [next, Option.ite_none_right_eq_some] at step
      rcases step with ⟨phase, same⟩
      cases failed with
      | false => rfl
      | true =>
          cases same
          exact absurd safe (fails _ _ (by simp [phase]))
  | registerIn failed =>
      rw [next, Option.ite_none_right_eq_some] at step
      rcases step with ⟨phase, same⟩
      cases failed with
      | false => rfl
      | true =>
          cases same
          exact absurd safe (fails _ _ (by simp [phase]))
  | _ => trivial

/--
In every run of load attempts and unloads, with packets handled while the
outgoing hook is registered: the module holds nothing whenever it is not
loaded, and a registered hook has an initialised table, exactly if no
registration of a hook fails.
-/
theorem throughout_safe_iff
    {actions : List Action} {final : Kernel}
    (ran : run next start actions = some final) :
    Throughout next Safe start actions ↔
      Along next Registers start actions := by
  have preserved (kernel : Kernel) (action : Action) (result : Kernel)
      (accounted : Accounted kernel) (registers : Registers kernel action)
      (step : next kernel action = some result) :
      Accounted result :=
    next_accounted accounted registers step
  constructor
  · intro throughout
    refine Throughout.along ?_ preserved start_accounted ran throughout
    intro kernel action result accounted step safe
    exact registers_of_safe accounted step safe
  · intro along before after kernel split ranBefore
    have accounted :=
      Along.throughout preserved start_accounted along
    exact (accounted before after kernel split ranBefore).safe

/-- A load, two connections, the end of one of them, and an unload. -/
def loadAndUnload : List Action :=
  [.init (some [101, 116, 104, 49, 10]) true, .registerOut false,
    .registerIn false, .insert 3, .insert 3, .delete 3 1, .exit,
    .unregisterIn, .free]

theorem throughout_safe_iff_loadAndUnload :
    ∃ final,
      run next start loadAndUnload = some final ∧
        (Throughout next Safe start loadAndUnload ↔
          Along next Registers start loadAndUnload) := by
  have ran : (run next start loadAndUnload).isSome := by decide +kernel
  rcases Option.isSome_iff_exists.mp ran with ⟨final, ran⟩
  exact ⟨final, ran, throughout_safe_iff ran⟩

/-- The second registration fails: a hook stays behind without a module. -/
def failingLoad : List Action :=
  [.init none true, .registerOut false, .registerIn true]

theorem exists_hook_left_behind :
    ¬ ∀ (actions : List Action) (final : Kernel),
        run next start actions = some final →
          Throughout next Safe start actions := by
  intro always
  have left :
      (run next start failingLoad).map
          (fun kernel => (kernel.phase, kernel.registered)) =
        some (.unloaded, [(1, .nfHookOut)]) := by
    decide +kernel
  rcases Option.map_eq_some_iff.mp left with ⟨final, ran, same⟩
  have safe :=
    always failingLoad final ran failingLoad [] final
      (List.append_nil _).symm ran
  rw [Prod.mk.injEq] at same
  have unhooked := safe.unhooked same.1
  rw [same.2] at unhooked
  cases unhooked

end CodingExamples.FlowTracker.Module
