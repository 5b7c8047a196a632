import CodingExamples.PyHttpServer.Target

/-!
# Reading a request

A thread receives pieces until one of them ends with an empty line, or until
the client closes the connection.  The test looks at the piece and not at what
has been received so far, so an empty line that is cut by the end of a piece
is not seen.

The loop is a function of what the calls of `recv` will return.  When all of
it has been received, the next call waits.
-/

namespace CodingExamples.PyHttpServer.Request

open CodingExamples.PyHttpServer.Target (Str)

/-- `'\r\n\r\n'`. -/
def terminator : Str := [13, 10, 13, 10]

/-- How far the loop comes. -/
inductive Reading where
  /-- `recv` is called, and there is nothing to return. -/
  | waiting (request : Str)
  /-- The loop has ended; some results of `recv` may be left. -/
  | finished (request : Str) (unread : List Str)
deriving DecidableEq, Repr

/-- The `while` loop over `recv(1024)`, which returns `''` at the end. -/
def readRequest (request : Str) : List Str → Reading
  | [] => .waiting request
  | data :: incoming =>
      if data ≠ [] then
        let request := request ++ data
        if terminator.isSuffixOf data then
          .finished request incoming
        else
          readRequest request incoming
      else
        .finished request incoming

/-- The pieces in which a request with one empty line, at its end, arrives. -/
structure Segments where
  pieces : List Str
  nonempty : ∀ piece ∈ pieces, piece ≠ []
  bounded : ∀ piece ∈ pieces, piece.length ≤ 1024
  complete : terminator <:+ pieces.flatten
  once :
    ∀ before after, pieces.flatten = before ++ terminator ++ after →
      after = []

/-- The whole request. -/
def Segments.request (segments : Segments) : Str :=
  segments.pieces.flatten

/-! ## Passes of the loop -/

theorem readRequest_of_terminated
    {data : Str} (terminated : terminator <:+ data) (request : Str)
    (incoming : List Str) :
    readRequest request (data :: incoming) =
      .finished (request ++ data) incoming := by
  have nonempty : data ≠ [] := by
    rintro rfl
    exact absurd (List.suffix_nil.mp terminated) (by decide)
  rw [readRequest, if_pos nonempty,
    if_pos (List.isSuffixOf_iff_suffix.mpr terminated)]

theorem readRequest_of_unterminated
    {data : Str} (nonempty : data ≠ []) (unterminated : ¬ terminator <:+ data)
    (request : Str) (incoming : List Str) :
    readRequest request (data :: incoming) =
      readRequest (request ++ data) incoming := by
  rw [readRequest, if_pos nonempty,
    if_neg (fun suffix => unterminated (List.isSuffixOf_iff_suffix.mp suffix))]

/-- The loop goes through pieces none of which ends with an empty line. -/
theorem readRequest_append
    {pieces : List Str}
    (each : ∀ piece ∈ pieces, piece ≠ [] ∧ ¬ terminator <:+ piece)
    (request : Str) (incoming : List Str) :
    readRequest request (pieces ++ incoming) =
      readRequest (request ++ pieces.flatten) incoming := by
  induction pieces generalizing request with
  | nil => simp
  | cons piece pieces ih =>
      rcases each piece List.mem_cons_self with ⟨nonempty, unterminated⟩
      rw [List.cons_append, readRequest_of_unterminated nonempty unterminated,
        ih fun later member => each later (List.mem_cons_of_mem piece member)]
      simp

/-- A loop that ends has received something. -/
theorem length_unread_lt
    {request result : Str} {incoming unread : List Str}
    (finished : readRequest request incoming = .finished result unread) :
    unread.length < incoming.length := by
  induction incoming generalizing request with
  | nil => cases finished
  | cons data incoming ih =>
      rw [readRequest] at finished
      split at finished
      · split at finished
        · cases finished
          exact Nat.lt_succ_self _
        · exact Nat.lt_succ_of_lt (ih finished)
      · cases finished
        exact Nat.lt_succ_self _

/-! ## The pieces of a request -/

theorem Segments.pieces_ne_nil (segments : Segments) :
    segments.pieces ≠ [] := by
  intro empty
  have complete := segments.complete
  rw [empty] at complete
  exact absurd (List.suffix_nil.mp complete) (by decide)

/-- Only the last piece can end with an empty line. -/
theorem Segments.not_terminated
    (segments : Segments) {before after : List Str} {piece : Str}
    (split : segments.pieces = before ++ piece :: after)
    (later : after ≠ []) :
    ¬ terminator <:+ piece := by
  rintro ⟨front, rfl⟩
  have rest :=
    segments.once (before.flatten ++ front) after.flatten (by simp [split])
  rcases List.exists_cons_of_ne_nil later with ⟨next, others, rfl⟩
  have empty : next = [] := by
    simp only [List.flatten_cons, List.append_eq_nil_iff] at rest
    exact rest.1
  exact segments.nonempty next (by simp [split]) empty

/-- The last piece ends with the empty line if it is long enough. -/
theorem Segments.terminated_iff
    (segments : Segments) {front : List Str} {last : Str}
    (split : segments.pieces = front ++ [last]) :
    terminator <:+ last ↔ 4 ≤ last.length := by
  have complete := segments.complete
  rw [split, List.flatten_append, List.flatten_singleton] at complete
  constructor
  · intro suffix
    exact suffix.length_le
  · intro long
    exact
      List.suffix_of_suffix_length_le complete (List.suffix_append _ _) long

/--
The loop stops right behind the last piece, with the whole request, exactly if
that piece holds the whole empty line.
-/
theorem readRequest_eq_finished_iff
    (segments : Segments) (later : List Str) :
    readRequest [] (segments.pieces ++ later) =
        .finished segments.request later ↔
      ∃ last, segments.pieces.getLast? = some last ∧ 4 ≤ last.length := by
  rcases List.eq_nil_or_concat segments.pieces with
    empty | ⟨front, last, split⟩
  · exact absurd empty segments.pieces_ne_nil
  rw [List.concat_eq_append] at split
  have each : ∀ piece ∈ front, piece ≠ [] ∧ ¬ terminator <:+ piece := by
    intro piece member
    rcases List.append_of_mem member with ⟨before, after, frontSplit⟩
    constructor
    · exact segments.nonempty piece (by simp [split, member])
    · have inside :
          segments.pieces = before ++ piece :: (after ++ [last]) := by
        simp [split, frontSplit]
      exact segments.not_terminated inside (by simp)
  have reaches :
      readRequest [] (segments.pieces ++ later) =
        readRequest front.flatten (last :: later) := by
    rw [split, List.append_assoc, readRequest_append each]
    rfl
  have whole : segments.request = front.flatten ++ last := by
    simp [Segments.request, split]
  have nonempty : last ≠ [] :=
    segments.nonempty last (by simp [split])
  rw [reaches, whole]
  constructor
  · intro finished
    refine ⟨last, by simp [split], ?_⟩
    rw [← segments.terminated_iff split]
    by_contra unterminated
    rw [readRequest_of_unterminated nonempty unterminated] at finished
    exact absurd (length_unread_lt finished) (Nat.lt_irrefl _)
  · rintro ⟨found, isLast, long⟩
    have same : last = found := by
      simpa [split] using isLast
    rw [← same, ← segments.terminated_iff split] at long
    exact readRequest_of_terminated long _ later

/-! ## An empty line that arrives in two pieces -/

/-- It is enough to look for the empty line at every position. -/
theorem once_of_forall_drop
    {text : Str}
    (everywhere :
      ∀ index ≤ text.length, terminator <+: text.drop index →
        text.length = index + 4)
    (before after : Str) (split : text = before ++ terminator ++ after) :
    after = [] := by
  have length := congrArg List.length split
  simp only [List.length_append] at length
  have found : terminator <+: text.drop before.length := by
    rw [split, List.append_assoc, List.drop_left]
    exact List.prefix_append _ _
  have place := everywhere before.length (by omega) found
  have four : terminator.length = 4 :=
    rfl
  rw [← List.length_eq_zero_iff]
  omega

/-- `GET / HTTP/1.0`, cut in front of its last byte. -/
def cut : Segments where
  pieces :=
    [[71, 69, 84, 32, 47, 32, 72, 84, 84, 80, 47, 49, 46, 48, 13, 10, 13],
      [10]]
  nonempty := by decide
  bounded := by decide
  complete := by decide
  once := once_of_forall_drop (by decide)

/-- The loop waits for more although the whole request has arrived. -/
theorem exists_request_not_finished :
    ¬ ∀ (segments : Segments) (later : List Str),
        readRequest [] (segments.pieces ++ later) =
          .finished segments.request later := by
  intro always
  have finished := always cut []
  revert finished
  decide

end CodingExamples.PyHttpServer.Request
