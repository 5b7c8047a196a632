import Mathlib.Computability.EpsilonNFA
import Mathlib.Order.WellFoundedSet

/-!
# Prefix acceptance of nondeterministic automata

A matcher that stops at its first accepting state accepts a text as soon as
some prefix of it leads to such a state.  This module states that notion for
the automata with silent moves of Mathlib and gives the two readings that a
matcher needs: the first step of an accepting run, which a depth-first search
follows, and the set of states after each prefix, which a breadth-first
search maintains.

The last section shows that finitely many states without a cycle of silent
moves have a well-founded silent-move relation.
-/

namespace CodingExamples.Library.PrefixAcceptance

variable {Symbol State : Type} (automaton : εNFA Symbol State)

/--
Some run from the state consumes a prefix of the text and ends in an
accepting state.
-/
def AcceptsPrefix (state : State) (text : List Symbol) : Prop :=
  ∃ labels final,
    automaton.IsPath state final labels ∧
      labels.reduceOption <+: text ∧ final ∈ automaton.accept

/-! ## The first step of an accepting run -/

theorem AcceptsPrefix.ofAccepting
    {state : State} (accepting : state ∈ automaton.accept)
    (text : List Symbol) :
    AcceptsPrefix automaton state text :=
  ⟨[], state, .nil state, List.nil_prefix, accepting⟩

theorem AcceptsPrefix.silent
    {state next : State} {text : List Symbol}
    (move : next ∈ automaton.step state none)
    (rest : AcceptsPrefix automaton next text) :
    AcceptsPrefix automaton state text := by
  rcases rest with ⟨labels, final, path, consumed, accepting⟩
  refine ⟨none :: labels, final, .cons _ _ _ _ _ move path, ?_, accepting⟩
  simpa using consumed

theorem AcceptsPrefix.consume
    {state next : State} {symbol : Symbol} {text : List Symbol}
    (move : next ∈ automaton.step state (some symbol))
    (rest : AcceptsPrefix automaton next text) :
    AcceptsPrefix automaton state (symbol :: text) := by
  rcases rest with ⟨labels, final, path, consumed, accepting⟩
  refine
    ⟨some symbol :: labels, final, .cons _ _ _ _ _ move path, ?_,
      accepting⟩
  simpa [List.reduceOption_cons_of_some] using consumed

/-- A run accepts at once, moves silently, or consumes the next symbol. -/
theorem acceptsPrefix_iff (state : State) (text : List Symbol) :
    AcceptsPrefix automaton state text ↔
      state ∈ automaton.accept ∨
        (∃ next ∈ automaton.step state none,
          AcceptsPrefix automaton next text) ∨
        ∃ symbol rest, text = symbol :: rest ∧
          ∃ next ∈ automaton.step state (some symbol),
            AcceptsPrefix automaton next rest := by
  constructor
  · rintro ⟨labels, final, path, consumed, accepting⟩
    cases path with
    | nil => exact Or.inl accepting
    | cons next _ _ label labels move path =>
        cases label with
        | none =>
            have consumedRest : labels.reduceOption <+: text := by
              simpa using consumed
            exact Or.inr (Or.inl
              ⟨next, move, labels, final, path, consumedRest, accepting⟩)
        | some symbol =>
            rw [List.reduceOption_cons_of_some] at consumed
            rcases consumed with ⟨tail, rfl⟩
            exact Or.inr (Or.inr
              ⟨symbol, labels.reduceOption ++ tail, rfl, next, move,
                labels, final, path, List.prefix_append _ _, accepting⟩)
  · rintro (accepting | ⟨next, move, rest⟩ |
      ⟨symbol, rest, rfl, next, move, accepted⟩)
    · exact .ofAccepting automaton accepting text
    · exact .silent automaton move rest
    · exact .consume automaton move accepted

/-! ## The states after each prefix -/

/-- The accepted prefixes are those whose reachable set accepts. -/
theorem acceptsPrefix_iff_evalFrom (state : State) (text : List Symbol) :
    AcceptsPrefix automaton state text ↔
      ∃ count ≤ text.length,
        ∃ final ∈ automaton.evalFrom {state} (text.take count),
          final ∈ automaton.accept := by
  constructor
  · rintro ⟨labels, final, path, consumed, accepting⟩
    refine
      ⟨labels.reduceOption.length, consumed.length_le, final, ?_,
        accepting⟩
    rw [← List.prefix_iff_eq_take.mp consumed]
    exact
      automaton.mem_evalFrom_iff_exists_path.mpr ⟨labels, rfl, path⟩
  · rintro ⟨count, _, final, reached, accepting⟩
    rcases automaton.mem_evalFrom_iff_exists_path.mp reached with
      ⟨labels, consumed, path⟩
    refine ⟨labels, final, path, ?_, accepting⟩
    rw [consumed]
    exact List.take_prefix count text

/--
A set that contains the given states, is reached from them by silent moves,
and is closed under silent moves is their silent closure.
-/
theorem eq_εClosure_of_closed
    {states saturated : Set State}
    (contained : states ⊆ saturated)
    (reached : saturated ⊆ automaton.εClosure states)
    (closed :
      ∀ state ∈ saturated, automaton.step state none ⊆ saturated) :
    saturated = automaton.εClosure states := by
  apply Set.Subset.antisymm reached
  intro state member
  induction member with
  | base state member => exact contained member
  | step state next move _ ih => exact closed state ih move

/-- Reading one more symbol steps from the reachable set and closes it. -/
theorem evalFrom_take_succ
    {start : Set State} {text : List Symbol} {count : Nat}
    {symbol : Symbol} (current : text[count]? = some symbol) :
    automaton.evalFrom start (text.take (count + 1)) =
      automaton.εClosure
        {next | ∃ state ∈ automaton.evalFrom start (text.take count),
          next ∈ automaton.step state (some symbol)} := by
  rw [List.take_add_one, current, Option.toList_some,
    automaton.evalFrom_append_singleton]
  ext final
  rw [automaton.mem_stepSet_iff, automaton.mem_εClosure_iff_exists]
  constructor
  · rintro ⟨state, member, closure⟩
    rw [automaton.mem_εClosure_iff_exists] at closure
    rcases closure with ⟨next, move, closure⟩
    exact ⟨next, ⟨state, member, move⟩, closure⟩
  · rintro ⟨next, ⟨state, member, move⟩, closure⟩
    refine ⟨state, member, ?_⟩
    rw [automaton.mem_εClosure_iff_exists]
    exact ⟨next, move, closure⟩

/-! ## Automata without silent cycles -/

/-- One silent move. -/
def SilentMove (source target : State) : Prop :=
  target ∈ automaton.step source none

/-- No state returns to itself by silent moves alone. -/
def SilentAcyclic : Prop :=
  ∀ state, ¬ Relation.TransGen (SilentMove automaton) state state

/-- Silent moves that increase a rank form no cycle. -/
theorem SilentAcyclic.ofRank
    (rank : State → Nat)
    (increasing :
      ∀ source target, SilentMove automaton source target →
        rank source < rank target) :
    SilentAcyclic automaton := by
  intro state cycle
  have ascent :
      ∀ target, Relation.TransGen (SilentMove automaton) state target →
        rank state < rank target := by
    intro target chain
    induction chain with
    | single move => exact increasing _ _ move
    | tail _ move ih => exact ih.trans (increasing _ _ move)
  exact (ascent state cycle).false

/--
When silent moves leave only finitely many states and never form a cycle,
there is no infinite chain of silent moves.
-/
theorem SilentAcyclic.wellFounded
    (acyclic : SilentAcyclic automaton)
    {support : Set State} (finite : support.Finite)
    (sources :
      ∀ source target, SilentMove automaton source target →
        source ∈ support) :
    WellFounded
      (fun target source => SilentMove automaton source target) := by
  let later : State → State → Prop :=
    fun target source =>
      Relation.TransGen (SilentMove automaton) source target
  have ordered : IsStrictOrder State later :=
    { irrefl := acyclic
      trans := fun _ _ _ first second => second.trans first }
  have onSupport : support.WellFoundedOn later := finite.wellFoundedOn
  -- A state outside the support has no silent move, hence no successor.
  have outside :
      ∀ state, state ∉ support →
        Acc (fun target source => SilentMove automaton source target)
          state := by
    intro state absent
    refine ⟨state, fun target move => ?_⟩
    exact absurd (sources state target move) absent
  refine ⟨fun state => ?_⟩
  by_cases member : state ∈ support
  · refine onSupport.induction member ?_
    intro source _ ih
    refine ⟨source, fun target move => ?_⟩
    by_cases targetMember : target ∈ support
    · exact ih target targetMember (.single move)
    · exact outside target targetMember
  · exact outside state member

end CodingExamples.Library.PrefixAcceptance
