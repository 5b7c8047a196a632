import CodingExamples.EchoServer.Deadlock
import CodingExamples.Library.Progress

/-!
# How a session ends

Every byte of the text is fetched, written by the client, read and written
back by the server, and read by the client; each call moves at least one byte
on its way.  A session therefore stops after boundedly many calls.  Where it
stops does not depend on the order of the calls either.
-/

namespace CodingExamples.EchoServer.Outcome

open CodingExamples.EchoServer.Deadlock
open CodingExamples.EchoServer.Session
open CodingExamples.EchoServer.Unp
open CodingExamples.Library.Execution
open CodingExamples.Library.Fifo
open CodingExamples.Library.Progress

/--
Both processes have exited and the whole text is printed, or they wait for
each other and only the last piece is not printed.
-/
def Ending (text : List (BitVec 8)) (final : State) : Prop :=
  if unterminated text % (maxline - 1) = 0 then
    final.client = .closed ∧ final.server = .closed ∧
      final.printed = pieces text
  else
    Deadlocked final ∧
      ∃ last, final.client = .reading last ∧
        pieces text = final.printed ++ [last]

/-! ## What is printed is complete -/

/-- `readline` has returned every line that is printed. -/
def PrintedComplete (state : State) : Prop :=
  ∀ line ∈ state.printed, Complete line

section Printed

variable {text : List (BitVec 8)} {state result : State}

theorem printed_clientFetch
    (step : clientFetch state = some result) :
    result.printed = state.printed := by
  unfold clientFetch at step
  split at step
  case h_1 =>
    split at step
    case h_1 =>
      cases step
      rfl
    case h_2 sendline rest got =>
      cases step
      rw [writenLoop]
      split <;> rfl
  case h_2 => cases step

theorem printed_serverStep
    {count : Nat} (step : serverStep state count = some result) :
    result.printed = state.printed := by
  have written (before : State) (writen : Writen) :
      (serverWrite before writen).printed = before.printed := by
    cases writen <;> rfl
  unfold serverStep at step
  split at step
  case h_1 =>
    rw [Option.ite_none_right_eq_some] at step
    have step := step.2
    split at step <;> cases step
    · exact written _ _
    · rfl
  case h_2 left _ =>
    rw [Option.ite_none_right_eq_some] at step
    cases step.2
    exact written _ _
  case h_3 => cases step

theorem PrintedComplete.clientStep
    {count : Nat} (sound : Sound text state)
    (complete : PrintedComplete state)
    (step : Session.clientStep state count = some result) :
    PrintedComplete result := by
  cases sound with
  | fetching => cases step
  | @writing input piece left held toServer toClient printed cut nulFree
      isPiece unfinished split =>
      simp only [Session.clientStep, Option.ite_none_right_eq_some,
        Option.some.injEq] at step
      rcases step with ⟨writable, rfl⟩
      rw [writenAfter_of_pos left writable.1]
      by_cases rest : left.drop count = []
      · rw [rest, clientWrite_writenLoop_nil]
        exact complete
      · rw [clientWrite_writenLoop _ rest]
        exact complete
  | @reading input piece stored held toServer toClient printed cut nulFree
      isPiece unfinished split =>
      have opened : (holding held).isClosed = false := by
        cases held <;> rfl
      simp only [Session.clientStep, Option.ite_none_right_eq_some,
        Option.some.injEq, opened] at step
      rcases step with ⟨readable, rfl⟩
      rcases canRead_open_iff.mp readable with ⟨positive, requested, inside⟩
      have length : (toClient.take count).length = count := by
        rw [List.length_take, Nat.min_eq_left inside]
      have nonempty : toClient.take count ≠ [] := by
        apply List.length_pos_iff.mp
        rw [length]
        exact positive
      rw [readlineAfter_eq nonempty (by rw [length]; exact requested)]
      split_ifs with whole
      · have nulFreeLine : 0 ∉ stored ++ toClient.take count := by
          intro zero
          apply nulFree
          apply List.mem_append_left
          rw [split]
          rcases List.mem_append.mp zero with old | new
          · exact List.mem_append_left _ old
          · apply List.mem_append_right
            rw [List.append_assoc]
            exact List.mem_append_left _ (List.mem_of_mem_take new)
        have positiveLine :
            0 < (stored ++ toClient.take count).length := by
          rw [List.length_append, length]
          omega
        rw [clientRead, if_pos positiveLine, cString_eq_self nulFreeLine]
        intro line member
        rcases List.mem_append.mp member with old | new
        · exact complete line old
        · rw [List.mem_singleton.mp new]
          exact whole
      · exact complete
  | closing => cases step
  | closed => cases step

theorem PrintedComplete.next
    {action : Action} (sound : Sound text state)
    (complete : PrintedComplete state)
    (step : Session.next state action = some result) :
    PrintedComplete result := by
  cases action with
  | fgets =>
      rw [PrintedComplete, printed_clientFetch step]
      exact complete
  | client count => exact complete.clientStep sound step
  | server count =>
      rw [PrintedComplete, printed_serverStep step]
      exact complete

end Printed

/-! ## The calls that are left -/

/-- What the client has left to do, but for the text and the echo. -/
def clientWork : Client → Nat
  | .fetching => 1
  | .writing left => 4 * left.length + 1
  | .reading _ => 1
  | .closed => 0

def serverWork : Server → Nat
  | .reading => 1
  | .writing left => 2 * left.length + 1
  | .closed => 0

/-- An upper bound on the calls that are left. -/
def callsLeft (state : State) : Nat :=
  5 * state.input.length + clientWork state.client +
    3 * state.toServer.length + serverWork state.server +
      state.toClient.length

section Work

variable {text : List (BitVec 8)} {state result : State}

theorem callsLeft_clientFetch
    (sound : Sound text state)
    (step : clientFetch state = some result) :
    callsLeft result < callsLeft state := by
  cases sound with
  | @fetching input sent cut nulFree =>
      cases got : fgets maxline input with
      | none =>
          simp only [clientFetch, got, Option.some.injEq] at step
          subst step
          simp only [callsLeft, clientWork]
          omega
      | some fetched =>
          rcases fetched with ⟨piece, rest⟩
          simp only [clientFetch, got, Option.some.injEq] at step
          have isPiece := isPiece_of_fgets got
          have length := congrArg List.length (append_of_fgets got)
          have positive := List.length_pos_iff.mpr isPiece.nonempty
          rw [← append_of_fgets got] at nulFree
          have whole : cString piece = piece :=
            cString_eq_self fun zero =>
              nulFree (List.mem_append_left rest zero)
          rw [whole, clientWrite_writenLoop _ isPiece.nonempty] at step
          subst step
          rw [List.length_append] at length
          simp only [callsLeft, clientWork]
          omega
  | writing => cases step
  | reading => cases step
  | closing => cases step
  | closed => cases step

theorem callsLeft_clientStep
    {count : Nat} (sound : Sound text state)
    (step : clientStep state count = some result) :
    callsLeft result < callsLeft state := by
  cases sound with
  | fetching => cases step
  | @writing input piece left held toServer toClient printed cut nulFree
      isPiece unfinished split =>
      simp only [clientStep, Option.ite_none_right_eq_some,
        Option.some.injEq] at step
      rcases step with ⟨writable, rfl⟩
      rw [writenAfter_of_pos left writable.1]
      have positive := writable.1
      have inside := writable.2
      have moved : (toServer ++ left.take count).length =
          toServer.length + count := by
        rw [List.length_append, List.length_take, Nat.min_eq_left inside]
      by_cases rest : left.drop count = []
      · rw [rest, clientWrite_writenLoop_nil]
        have all : left.length ≤ count := List.drop_eq_nil_iff.mp rest
        simp only [callsLeft, clientWork, moved]
        omega
      · rw [clientWrite_writenLoop _ rest]
        simp only [callsLeft, clientWork, moved, List.length_drop]
        omega
  | @reading input piece stored held toServer toClient printed cut nulFree
      isPiece unfinished split =>
      have opened : (holding held).isClosed = false := by
        cases held <;> rfl
      simp only [clientStep, Option.ite_none_right_eq_some,
        Option.some.injEq, opened] at step
      rcases step with ⟨readable, rfl⟩
      rcases canRead_open_iff.mp readable with ⟨positive, requested, inside⟩
      have atMost (after : Readline) :
          callsLeft
              (clientRead
                { input := input
                  client := .reading stored
                  sent := printed ++ [piece]
                  printed := printed
                  server := holding held
                  toServer := toServer
                  toClient := toClient.drop count }
                after) ≤
            5 * input.length + 1 + 3 * toServer.length +
              serverWork (holding held) + (toClient.drop count).length := by
        cases after with
        | reading stored => exact Nat.le_refl _
        | returned line =>
            rw [clientRead]
            split <;> simp only [callsLeft, clientWork] <;> omega
        | error =>
            rw [clientRead]
            simp only [callsLeft, clientWork]
            omega
      apply Nat.lt_of_le_of_lt (atMost _)
      simp only [callsLeft, clientWork, List.length_drop]
      omega
  | closing => cases step
  | closed => cases step

theorem callsLeft_serverStep
    {count : Nat} (step : serverStep state count = some result) :
    callsLeft result < callsLeft state := by
  have held (before : State) (left : List (BitVec 8)) :
      callsLeft (serverWrite before (writenLoop left)) =
        5 * before.input.length + clientWork before.client +
          3 * before.toServer.length + (2 * left.length + 1) +
            before.toClient.length := by
    rw [serverWrite_writenLoop]
    cases left <;> rfl
  unfold serverStep at step
  split at step
  case h_1 reading =>
    rw [Option.ite_none_right_eq_some] at step
    rcases step with ⟨readable, step⟩
    split at step
    case isTrue positive =>
      cases step
      rw [CanRead, if_neg (Nat.ne_of_gt positive)] at readable
      rw [held, List.length_drop, List.length_take,
        Nat.min_eq_left readable.2, callsLeft, reading]
      simp only [serverWork]
      omega
    case isFalse =>
      cases step
      simp only [callsLeft, reading, serverWork]
      omega
  case h_2 left writing =>
    rw [Option.ite_none_right_eq_some] at step
    rcases step with ⟨writable, ⟨⟩⟩
    have positive := writable.1
    have inside := writable.2
    rw [writenAfter_of_pos left positive, held, List.length_drop,
      List.length_append, List.length_take, Nat.min_eq_left inside, callsLeft,
      writing]
    simp only [serverWork]
    omega
  case h_3 => cases step

end Work

/-! ## Where a session stops -/

/-- Only the last piece of a text can be incomplete. -/
theorem pieces_eq_nil_of_incomplete
    {text input piece : List (BitVec 8)} {printed : List (List (BitVec 8))}
    (cut : printed ++ piece :: pieces input = pieces text)
    (incomplete : ¬ Complete piece) :
    pieces input = [] := by
  induction text using pieces.induct generalizing printed with
  | case1 text missing =>
      rw [fgets_eq_none_iff] at missing
      rw [missing, pieces_nil, List.append_eq_nil_iff] at cut
      cases cut.2
  | case2 text first rest got ih =>
      rw [pieces_of_fgets got] at cut
      cases printed with
      | nil =>
          rw [List.nil_append, List.cons.injEq] at cut
          rcases cut with ⟨rfl, same⟩
          have last := (complete_or_of_fgets got).resolve_left incomplete
          rw [same, last, pieces_nil]
      | cons line printed =>
          rw [List.cons_append, List.cons.injEq] at cut
          exact ih cut.2

theorem ending_of_stuck
    {text : List (BitVec 8)} {state : State} (sound : Sound text state)
    (printedComplete : PrintedComplete state) (stuck : Stuck next state) :
    Ending text state := by
  cases sound with
  | @fetching input sent cut nulFree =>
      have blocked := stuck .fgets
      simp only [next, clientFetch] at blocked
      split at blocked <;> cases blocked
  | @writing input piece left held toServer toClient printed cut nulFree
      isPiece unfinished split =>
      have blocked := stuck (.client 1)
      simp only [next, clientStep] at blocked
      rw [if_pos ⟨Nat.one_pos, List.length_pos_iff.mpr unfinished⟩] at blocked
      cases blocked
  | @reading input piece stored held toServer toClient printed cut nulFree
      isPiece unfinished split =>
      have short : stored.length < maxline - 1 := by
        have fits := isPiece.fits
        have part : stored.length ≤ piece.length := by
          rw [split, List.length_append]
          exact Nat.le_add_right _ _
        rw [Complete, not_or] at unfinished
        omega
      have noneFlying : toClient = [] := by
        by_contra nonempty
        have blocked := stuck (.client 1)
        simp only [next, clientStep] at blocked
        rw [if_pos (canRead_one nonempty _ _)] at blocked
        · cases blocked
        · rw [readlineRequest]
          omega
      have noneHeld : held = [] := by
        cases held with
        | nil => rfl
        | cons byte rest =>
            have blocked := stuck (.server 1)
            simp only [next, serverStep, holding] at blocked
            rw [if_pos ⟨Nat.one_pos, Nat.succ_le_succ (Nat.zero_le _)⟩]
              at blocked
            cases blocked
      subst noneHeld
      have noneWritten : toServer = [] := by
        by_contra nonempty
        have blocked := stuck (.server 1)
        simp only [next, serverStep, holding] at blocked
        rw [if_pos (canRead_one nonempty (by decide) _)] at blocked
        cases blocked
      subst noneFlying noneWritten
      rw [List.append_nil, List.append_nil, List.append_nil] at split
      subst split
      have last := pieces_eq_nil_of_incomplete cut unfinished
      rw [last] at cut
      have waiting : ¬ unterminated text % (maxline - 1) = 0 := by
        rw [← forall_complete_iff, ← cut]
        intro all
        exact
          unfinished
            (all piece (List.mem_append_right _ List.mem_cons_self))
      rw [Ending, if_neg waiting]
      exact ⟨⟨⟨piece, rfl⟩, rfl, rfl, rfl⟩, piece, rfl, cut.symm⟩
  | closing =>
      have blocked := stuck (.server 0)
      simp only [next, serverStep] at blocked
      rw [if_pos] at blocked
      · cases blocked
      · rw [CanRead, if_pos rfl]
        exact ⟨rfl, rfl⟩
  | closed =>
      have whole := (forall_complete_iff text).mp printedComplete
      rw [Ending, if_pos whole]
      exact ⟨rfl, rfl, rfl⟩

/--
For every text without a zero: a session stops after a bounded number of
calls, whatever their order and however the bytes are split.  If the number of
bytes after the last newline is a multiple of the size of a full piece, both
processes have exited then, and the client has printed the text; otherwise
they wait for each other for ever, and everything but the last piece is
printed.
-/
theorem session_settles
    {text : List (BitVec 8)} (nulFree : 0 ∉ text) :
    Settles next
      (fun final => final.printed.flatten <+: text ∧ Ending text final)
      (start text) := by
  have decreases :
      ∀ before action after,
        Sound text before ∧ PrintedComplete before →
          next before action = some after →
            (Sound text after ∧ PrintedComplete after) ∧
              callsLeft after < callsLeft before := by
    intro before action after kept step
    refine ⟨⟨kept.1.next step, kept.2.next kept.1 step⟩, ?_⟩
    cases action with
    | fgets => exact callsLeft_clientFetch kept.1 step
    | client count => exact callsLeft_clientStep kept.1 step
    | server count => exact callsLeft_serverStep step
  have initial : Sound text (start text) ∧ PrintedComplete (start text) :=
    ⟨.fetching rfl nulFree, nofun⟩
  apply settles_of_measure decreases _ initial
  intro final kept stuck
  have ending := ending_of_stuck kept.1 kept.2 stuck
  refine ⟨?_, ending⟩
  rw [Ending] at ending
  split at ending
  · exact ⟨[], by rw [List.append_nil, ending.2.2, flatten_pieces]⟩
  · rcases ending.2 with ⟨last, _, cut⟩
    have whole := congrArg List.flatten cut
    rw [flatten_pieces, List.flatten_append] at whole
    rw [whole]
    exact List.prefix_append _ _

/-- The text `a` without a newline. -/
theorem session_settles_withoutNewline :
    Settles next
      (fun final => final.printed.flatten <+: [97] ∧ Ending [97] final)
      (start [97]) :=
  session_settles (by decide)

end CodingExamples.EchoServer.Outcome
