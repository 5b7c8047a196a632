import CodingExamples.EchoServer.Session

/-!
# When a session does not block

`readline` waits for a newline or a full buffer.  The echo of a piece that has
neither never satisfies it, and client and server then wait for each other.
Only the last piece of a text can be like that, so whether a session can block
depends on the bytes after the last newline alone.
-/

namespace CodingExamples.EchoServer.Deadlock

open CodingExamples.Library.Execution
open CodingExamples.Library.Fifo
open CodingExamples.EchoServer.Unp
open CodingExamples.EchoServer.Session

/--
The client waits in the `read` of `readline` and the server waits in `read`,
with nothing in flight in either direction and both ends open.
-/
def Deadlocked (state : State) : Prop :=
  (∃ stored, state.client = .reading stored) ∧ state.toClient = [] ∧
    state.server = .reading ∧ state.toServer = []

/-- The number of bytes after the last newline. -/
def unterminated (text : List (BitVec 8)) : Nat :=
  (text.reverse.takeWhile fun byte => byte != newline).length

/-! ## The last line -/

theorem unterminated_append (before after : List (BitVec 8)) :
    unterminated (before ++ after) =
      if unterminated after = after.length then
        after.length + unterminated before
      else
        unterminated after := by
  rw [unterminated, List.reverse_append, List.takeWhile_append,
    List.length_reverse]
  split_ifs with whole same same
  · rw [List.length_append, List.length_reverse]
    rfl
  · exact absurd whole same
  · exact absurd same whole
  · rfl

theorem unterminated_of_ends
    {text : List (BitVec 8)} (ends : text.getLast? = some newline) :
    unterminated text = 0 := by
  rcases List.getLast?_eq_some_iff.mp ends with ⟨before, rfl⟩
  rw [unterminated, List.reverse_append, List.reverse_singleton,
    List.singleton_append, List.takeWhile_cons_of_neg (by simp)]
  rfl

theorem unterminated_of_notMem
    {text : List (BitVec 8)} (single : newline ∉ text) :
    unterminated text = text.length := by
  rw [unterminated, List.takeWhile_eq_self_iff.mpr, List.length_reverse]
  intro byte member
  rw [bne_iff_ne]
  intro same
  rw [same, List.mem_reverse] at member
  exact single member

/-- A piece has a newline at its end or none. -/
theorem newline_notMem
    {piece : List (BitVec 8)} (isPiece : IsPiece piece)
    (continues : piece.getLast? ≠ some newline) :
    newline ∉ piece := by
  intro member
  rcases List.append_of_mem member with ⟨before, after, split⟩
  have ends : (before ++ [newline]).getLast? = some newline :=
    List.getLast?_concat
  have nothing : after = [] := by
    apply isPiece.closed (before ++ [newline]) after _ ends
    rw [split, List.append_assoc]
    rfl
  rw [split, nothing] at continues
  exact continues ends

/-- Complete pieces do not count, up to multiples of the buffer. -/
theorem unterminated_mod_of_complete
    {piece : List (BitVec 8)} (isPiece : IsPiece piece)
    (complete : Complete piece) (rest : List (BitVec 8)) :
    unterminated (piece ++ rest) % (maxline - 1) =
      unterminated rest % (maxline - 1) := by
  have whole : unterminated piece % (maxline - 1) = 0 := by
    by_cases ends : piece.getLast? = some newline
    · rw [unterminated_of_ends ends]
      rfl
    · rw [unterminated_of_notMem (newline_notMem isPiece ends),
        complete.resolve_left ends, Nat.mod_self]
  rw [unterminated_append]
  split_ifs with same
  · rw [same, Nat.add_mod, whole, Nat.add_zero, Nat.mod_mod]
  · rfl

theorem unterminated_mod_of_not_complete
    {piece : List (BitVec 8)} (isPiece : IsPiece piece)
    (incomplete : ¬ Complete piece) :
    unterminated piece % (maxline - 1) ≠ 0 := by
  rw [Complete, not_or] at incomplete
  have fits := isPiece.fits
  have positive := List.length_pos_iff.mpr isPiece.nonempty
  rw [unterminated_of_notMem (newline_notMem isPiece incomplete.1),
    Nat.mod_eq_of_lt (by omega)]
  omega

/-- Whether all pieces are complete depends on the last line alone. -/
theorem forall_complete_iff (text : List (BitVec 8)) :
    (∀ piece ∈ pieces text, Complete piece) ↔
      unterminated text % (maxline - 1) = 0 := by
  induction text using pieces.induct with
  | case1 text missing =>
      rw [fgets_eq_none_iff] at missing
      rw [missing, pieces_nil]
      constructor
      · intro _
        rfl
      · intro _ piece member
        cases member
  | case2 text piece rest got ih =>
      have isPiece := isPiece_of_fgets got
      rw [pieces_of_fgets got, List.forall_mem_cons, ih,
        ← append_of_fgets got]
      by_cases complete : Complete piece
      · rw [unterminated_mod_of_complete isPiece complete rest]
        exact ⟨fun both => both.2, fun last => ⟨complete, last⟩⟩
      · have last : rest = [] :=
          (complete_or_of_fgets got).resolve_left complete
        rw [last, List.append_nil]
        constructor
        · intro both
          exact absurd both.1 complete
        · intro zero
          exact
            absurd zero (unterminated_mod_of_not_complete isPiece complete)

/-! ## The run of one piece -/

/-- The client is about to call `fgets`, and nothing is in flight. -/
def idle (input : List (BitVec 8))
    (sent printed : List (List (BitVec 8))) : State where
  input := input
  client := .fetching
  sent := sent
  printed := printed
  server := .reading
  toServer := []
  toClient := []

section Run

variable {input piece rest : List (BitVec 8)}
  {sent printed : List (List (BitVec 8))}

/-- The client has read a piece and called `writen`. -/
theorem next_fgets
    (got : fgets maxline input = some (piece, rest))
    (nulFree : 0 ∉ piece) :
    next (idle input sent printed) .fgets =
      some
        { idle rest (sent ++ [piece]) printed with
          client := .writing piece } := by
  have nonempty := (isPiece_of_fgets got).nonempty
  simp only [next, clientFetch, idle, got, cString_eq_self nulFree,
    clientWrite_writenLoop _ nonempty]

/-- The client writes the whole piece at once. -/
theorem next_client_write (nonempty : piece ≠ []) :
    next { idle rest sent printed with client := .writing piece }
        (.client piece.length) =
      some
        { idle rest sent printed with
          client := .reading []
          toServer := piece } := by
  have positive := List.length_pos_iff.mpr nonempty
  simp only [next, clientStep, idle, if_pos (CanWrite.all positive),
    writenAfter_of_pos piece positive, List.drop_length, List.take_length,
    clientWrite_writenLoop_nil, List.nil_append]

/-- The server reads the whole piece at once. -/
theorem next_server_read (isPiece : IsPiece piece) :
    next
        { idle rest sent printed with
          client := .reading []
          toServer := piece }
        (.server piece.length) =
      some
        { idle rest sent printed with
          client := .reading []
          server := holding piece } := by
  have positive := List.length_pos_iff.mpr isPiece.nonempty
  have fits : piece.length ≤ maxline :=
    Nat.le_trans isPiece.fits (by decide)
  simp only [next, serverStep, idle,
    if_pos (canRead_all isPiece.nonempty fits _), if_pos positive,
    serverWrite_writenLoop, List.drop_length, List.take_length]

/-- The server writes the whole piece at once. -/
theorem next_server_write (nonempty : piece ≠ []) :
    next
        { idle rest sent printed with
          client := .reading []
          server := holding piece }
        (.server piece.length) =
      some
        { idle rest sent printed with
          client := .reading []
          toClient := piece } := by
  have positive := List.length_pos_iff.mpr nonempty
  cases piece with
  | nil => exact absurd rfl nonempty
  | cons byte left =>
      simp only [next, serverStep, idle, holding,
        if_pos (CanWrite.all positive), writenAfter_of_pos _ positive,
        serverWrite_writenLoop, List.drop_length, List.take_length,
        List.nil_append]

/-- The client reads the whole echo at once. -/
theorem next_client_read
    (isPiece : IsPiece piece) (nulFree : 0 ∉ piece) :
    next
        { idle rest sent printed with
          client := .reading []
          toClient := piece }
        (.client piece.length) =
      some
        (if Complete piece then
          idle rest sent (printed ++ [piece])
        else
          { idle rest sent printed with client := .reading piece }) := by
  have requested : piece.length ≤ readlineRequest maxline [] :=
    isPiece.fits
  have positive := List.length_pos_iff.mpr isPiece.nonempty
  simp only [next, clientStep, idle,
    if_pos (canRead_all isPiece.nonempty requested _), List.drop_length,
    List.take_length, readlineAfter_eq isPiece.nonempty requested,
    List.nil_append]
  by_cases complete : Complete piece
  · simp only [if_pos complete, clientRead, if_pos positive,
      cString_eq_self nulFree]
  · simp only [if_neg complete, clientRead]

/-- A piece is sent, written back and read without interruption. -/
theorem reachable_echo
    (got : fgets maxline input = some (piece, rest))
    (nulFree : 0 ∉ piece) :
    Reachable next (idle input sent printed)
      (if Complete piece then
        idle rest (sent ++ [piece]) (printed ++ [piece])
      else
        { idle rest (sent ++ [piece]) printed with
          client := .reading piece }) := by
  have isPiece := isPiece_of_fgets got
  apply (Reachable.single (next_fgets got nulFree)).trans
  apply (Reachable.single (next_client_write isPiece.nonempty)).trans
  apply (Reachable.single (next_server_read isPiece)).trans
  apply (Reachable.single (next_server_write isPiece.nonempty)).trans
  exact Reachable.single (next_client_read isPiece nulFree)

end Run

/-! ## The exact condition -/

/-- From an idle state that reaches no deadlock, all pieces are complete. -/
theorem forall_complete_of_never
    {input : List (BitVec 8)} (nulFree : 0 ∉ input)
    {sent printed : List (List (BitVec 8))}
    (never :
      ∀ state, Reachable next (idle input sent printed) state →
        ¬ Deadlocked state) :
    ∀ piece ∈ pieces input, Complete piece := by
  induction input using pieces.induct generalizing sent printed with
  | case1 input missing =>
      rw [fgets_eq_none_iff] at missing
      rw [missing, pieces_nil]
      intro piece member
      cases member
  | case2 input piece rest got ih =>
      rw [← append_of_fgets got, List.mem_append, not_or] at nulFree
      have reachable :
          Reachable next (idle input sent printed) _ :=
        reachable_echo got nulFree.1
      have complete : Complete piece := by
        by_contra incomplete
        rw [if_neg incomplete] at reachable
        apply never _ reachable
        exact ⟨⟨piece, rfl⟩, rfl, rfl, rfl⟩
      rw [if_pos complete] at reachable
      rw [pieces_of_fgets got, List.forall_mem_cons]
      have neverRest :
          ∀ state,
            Reachable next
                (idle rest (sent ++ [piece]) (printed ++ [piece])) state →
              ¬ Deadlocked state := by
        intro state reached
        exact never state (reachable.trans reached)
      exact ⟨complete, ih nulFree.2 neverRest⟩

/-- In a deadlock the client has stored a whole piece that is incomplete. -/
theorem exists_incomplete
    {text : List (BitVec 8)} {state : State} (sound : Sound text state)
    (deadlocked : Deadlocked state) :
    ∃ piece ∈ pieces text, ¬ Complete piece := by
  rcases deadlocked with ⟨⟨line, client⟩, toClient, server, toServer⟩
  cases sound with
  | @reading input piece stored held toServer toClient printed cut nulFree
      isPiece unfinished split =>
      cases held with
      | nil =>
          cases toClient
          cases toServer
          rw [List.append_nil, List.append_nil, List.append_nil] at split
          refine ⟨piece, ?_, ?_⟩
          · rw [← cut]
            exact List.mem_append_right _ List.mem_cons_self
          · rw [split]
            exact unfinished
      | cons byte rest => cases server
  | fetching => cases client
  | writing => cases client
  | closing => cases client
  | closed => cases client

/--
A session never blocks exactly if the number of bytes after the last newline
is a multiple of the size of a full piece.
-/
theorem never_deadlocked_iff
    {text : List (BitVec 8)} (nulFree : 0 ∉ text) :
    (∀ state, Reachable next (start text) state → ¬ Deadlocked state) ↔
      unterminated text % (maxline - 1) = 0 := by
  rw [← forall_complete_iff]
  constructor
  · exact forall_complete_of_never nulFree
  · intro complete state reachable deadlocked
    rcases exists_incomplete (sound_of_reachable nulFree reachable)
        deadlocked with
      ⟨piece, member, incomplete⟩
    exact incomplete (complete piece member)

/-- A single line with its newline does not block. -/
theorem never_deadlocked_iff_line :
    (∀ state,
        Reachable next (start [97, 10]) state → ¬ Deadlocked state) ↔
      unterminated [97, 10] % (maxline - 1) = 0 :=
  never_deadlocked_iff (by decide)

/-- The text `a` without a newline blocks. -/
theorem deadlocked_without_newline :
    ¬ ∀ text : List (BitVec 8), 0 ∉ text →
        ∀ state, Reachable next (start text) state →
          ¬ Deadlocked state := by
  intro never
  have blocked :
      Reachable next (start [97])
        { idle [] [[97]] [] with client := .reading [97] } :=
    ⟨[.fgets, .client 1, .server 1, .server 1, .client 1], by decide⟩
  exact
    never [97] (by decide) _ blocked ⟨⟨[97], rfl⟩, rfl, rfl, rfl⟩

end CodingExamples.EchoServer.Deadlock
