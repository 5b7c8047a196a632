import Mathlib.Data.List.Basic

/-!
# The functions of `unp.h`, and `fgets`

`writen` and `readline` are loops around one system call each.  Their local
variables and the effect of one call are modelled here; who provides the
results of the calls is up to the caller.  A loop is left when it returns.

The standard library function `fgets` cuts a text into pieces.  Every piece is
non-empty and fits into the buffer, and only its last byte can be a newline.
-/

namespace CodingExamples.EchoServer.Unp

/-- `MAXLINE`. -/
def maxline : Nat := 1024

/-- `SSIZE_MAX`. -/
def ssizeMax : Nat := 0x7fffffffffffffff

/-- The character `'\n'`. -/
def newline : BitVec 8 := 10

/-- The string that starts a buffer, without its terminator. -/
def cString (buffer : List (BitVec 8)) : List (BitVec 8) :=
  buffer.takeWhile fun byte => byte != 0

/-- What `read` did; at the end of the file it returns no bytes. -/
inductive ReadResult where
  | returned (bytes : List (BitVec 8))
  | failed (interrupted : Bool)
deriving DecidableEq, Repr

/-- What `write` did; `interrupted` says that `errno` is `EINTR`. -/
inductive WriteResult where
  | returned (count : Nat)
  | failed (interrupted : Bool)
deriving DecidableEq, Repr

/-! ## `writen` -/

/-- Before the next `write`, with the bytes from `ptr` on, or at the return. -/
inductive Writen where
  | writing (left : List (BitVec 8))
  | returned (success : Bool)
deriving DecidableEq, Repr

/-- The loop condition of `writen`. -/
def writenLoop (left : List (BitVec 8)) : Writen :=
  if left.length > 0 then
    .writing left
  else
    .returned true

/-- The rest of an iteration of `writen`. -/
def writenAfter (left : List (BitVec 8)) : WriteResult → Writen
  | .returned count =>
      if count = 0 then
        .returned false
      else
        writenLoop (left.drop count)
  | .failed interrupted =>
      if interrupted then
        writenLoop left
      else
        .returned false

/-! ## `readline` -/

/--
Before the next `read`, with the bytes that are stored, or at the return.  The
bytes that are returned are followed by a zero in the buffer.
-/
inductive Readline where
  | reading (stored : List (BitVec 8))
  | returned (line : List (BitVec 8))
  | error
deriving DecidableEq, Repr

/-- The number of bytes that the next `read` asks for. -/
def readlineRequest (maxlen : Nat) (stored : List (BitVec 8)) : Nat :=
  maxlen - stored.length - 1

/-- The loop condition of `readline`. -/
def readlineLoop (maxlen : Nat) (stored : List (BitVec 8)) : Readline :=
  if stored.length < maxlen - 1 then
    .reading stored
  else
    .returned stored

/-- The rest of an iteration of `readline`. -/
def readlineAfter (maxlen : Nat) (stored : List (BitVec 8)) :
    ReadResult → Readline
  | .returned bytes =>
      if bytes.length > 0 then
        if (stored ++ bytes).getLast? = some newline then
          .returned (stored ++ bytes)
        else
          readlineLoop maxlen (stored ++ bytes)
      else
        .returned stored
  | .failed interrupted =>
      if interrupted then
        readlineLoop maxlen stored
      else
        .error

/-! ## `fgets` -/

/-- The longest piece of at most `count` bytes without a newline inside. -/
def takeLine : Nat → List (BitVec 8) →
    List (BitVec 8) × List (BitVec 8)
  | 0, input => ([], input)
  | _ + 1, [] => ([], [])
  | count + 1, byte :: rest =>
      if byte = newline then
        ([byte], rest)
      else
        let (piece, rest) := takeLine count rest
        (byte :: piece, rest)

/-- `fgets(s, size, fp)`: the piece that is stored and the text that is left. -/
def fgets (size : Nat) (input : List (BitVec 8)) :
    Option (List (BitVec 8) × List (BitVec 8)) :=
  match input with
  | [] => none
  | _ => some (takeLine (size - 1) input)

theorem takeLine_append (count : Nat) (input : List (BitVec 8)) :
    (takeLine count input).1 ++ (takeLine count input).2 = input := by
  induction count, input using takeLine.induct with
  | case1 input => rfl
  | case2 count => rfl
  | case3 count rest => simp [takeLine]
  | case4 count byte rest other piece left split ih =>
      rw [takeLine, if_neg other, List.cons_append, ih]

theorem length_takeLine_le (count : Nat) (input : List (BitVec 8)) :
    (takeLine count input).1.length ≤ count := by
  induction count, input using takeLine.induct with
  | case1 input => exact Nat.le_refl 0
  | case2 count => exact Nat.zero_le _
  | case3 count rest =>
      rw [takeLine, if_pos rfl]
      exact Nat.succ_le_succ (Nat.zero_le count)
  | case4 count byte rest other piece left split ih =>
      rw [takeLine, if_neg other]
      exact Nat.succ_le_succ ih

/-- A part of the piece that ends in a newline is the whole piece. -/
theorem takeLine_closed
    (count : Nat) (input : List (BitVec 8))
    {before after : List (BitVec 8)}
    (split : (takeLine count input).1 = before ++ after)
    (ends : before.getLast? = some newline) :
    after = [] := by
  induction count, input using takeLine.induct generalizing before with
  | case1 input => exact (List.append_eq_nil_iff.mp split.symm).2
  | case2 count => exact (List.append_eq_nil_iff.mp split.symm).2
  | case3 count rest =>
      rw [takeLine, if_pos rfl] at split
      cases before with
      | nil => cases ends
      | cons first before =>
          rw [List.cons_append, List.cons.injEq] at split
          exact (List.append_eq_nil_iff.mp split.2.symm).2
  | case4 count byte rest other piece left cut ih =>
      rw [takeLine, if_neg other] at split
      cases before with
      | nil => cases ends
      | cons first before =>
          rw [List.cons_append, List.cons.injEq] at split
          cases before with
          | nil =>
              rw [List.getLast?_singleton, Option.some.injEq] at ends
              exact absurd (split.1.trans ends) other
          | cons second before =>
              rw [List.getLast?_cons_cons] at ends
              exact ih split.2 ends

/-- A piece is only cut short by the end of the text. -/
theorem takeLine_complete
    (count : Nat) (input : List (BitVec 8)) :
    (takeLine count input).1.getLast? = some newline ∨
      (takeLine count input).1.length = count ∨
        (takeLine count input).2 = [] := by
  induction count, input using takeLine.induct with
  | case1 input => exact .inr (.inl rfl)
  | case2 count => exact .inr (.inr rfl)
  | case3 count rest =>
      left
      rw [takeLine, if_pos rfl]
      rfl
  | case4 count byte rest other piece left split ih =>
      rw [takeLine, if_neg other]
      rcases ih with ends | full | finished
      · left
        rw [List.getLast?_cons, ends]
        rfl
      · right; left
        rw [List.length_cons, full]
      · right; right
        exact finished

/-- What is known of a piece that `fgets` has stored. -/
structure IsPiece (piece : List (BitVec 8)) : Prop where
  nonempty : piece ≠ []
  fits : piece.length ≤ maxline - 1
  closed :
    ∀ before after, piece = before ++ after →
      before.getLast? = some newline → after = []

/-- What `readline` has stored when it returns without the end of the file. -/
def Complete (piece : List (BitVec 8)) : Prop :=
  piece.getLast? = some newline ∨ piece.length = maxline - 1

instance (piece : List (BitVec 8)) : Decidable (Complete piece) :=
  inferInstanceAs (Decidable (_ ∨ _))

/-- `readline` does not return before it has read the whole piece. -/
theorem IsPiece.after_eq_nil
    {piece before after : List (BitVec 8)} (isPiece : IsPiece piece)
    (split : piece = before ++ after) (complete : Complete before) :
    after = [] := by
  rcases complete with ends | full
  · exact isPiece.closed before after split ends
  · have fits := isPiece.fits
    rw [split, List.length_append, full] at fits
    apply List.eq_nil_of_length_eq_zero
    omega

/-- What `readline` does with some bytes that it asked for. -/
theorem readlineAfter_eq
    {stored bytes : List (BitVec 8)} (nonempty : bytes ≠ [])
    (requested : bytes.length ≤ readlineRequest maxline stored) :
    readlineAfter maxline stored (.returned bytes) =
      if Complete (stored ++ bytes) then
        .returned (stored ++ bytes)
      else
        .reading (stored ++ bytes) := by
  have positive := List.length_pos_iff.mpr nonempty
  rw [readlineRequest] at requested
  have bound : (stored ++ bytes).length ≤ maxline - 1 := by
    rw [List.length_append]
    omega
  rw [readlineAfter, if_pos positive, readlineLoop]
  by_cases ends : (stored ++ bytes).getLast? = some newline
  · rw [if_pos ends, if_pos (.inl ends)]
  · rw [if_neg ends]
    by_cases full : (stored ++ bytes).length = maxline - 1
    · rw [if_neg (by omega), if_pos (.inr full)]
    · rw [if_pos (by omega)]
      exact (if_neg (not_or.mpr ⟨ends, full⟩)).symm

section Fgets

variable {input piece rest : List (BitVec 8)}

theorem fgets_eq_none_iff {size : Nat} :
    fgets size input = none ↔ input = [] := by
  cases input with
  | nil => exact ⟨fun _ => rfl, fun _ => rfl⟩
  | cons byte rest => simp [fgets]

/-- A successful `fgets` is the cut that it makes. -/
theorem takeLine_of_fgets
    (got : fgets maxline input = some (piece, rest)) :
    input ≠ [] ∧ takeLine (maxline - 1) input = (piece, rest) := by
  cases input with
  | nil => cases got
  | cons byte input =>
      exact ⟨List.cons_ne_nil byte input, Option.some.inj got⟩

theorem append_of_fgets
    (got : fgets maxline input = some (piece, rest)) :
    piece ++ rest = input := by
  have cut := takeLine_append (maxline - 1) input
  rw [(takeLine_of_fgets got).2] at cut
  exact cut

theorem isPiece_of_fgets
    (got : fgets maxline input = some (piece, rest)) :
    IsPiece piece where
  nonempty := by
    rcases takeLine_of_fgets got with ⟨nonempty, cut⟩
    cases input with
    | nil => exact absurd rfl nonempty
    | cons byte input =>
        intro empty
        have count : maxline - 1 = 1022 + 1 := rfl
        rw [count, takeLine] at cut
        split_ifs at cut
        · cases cut
          cases empty
        · cases cut
          cases empty
  fits := by
    have fits := length_takeLine_le (maxline - 1) input
    rw [(takeLine_of_fgets got).2] at fits
    exact fits
  closed before after split ends := by
    apply takeLine_closed (maxline - 1) input _ ends
    rw [(takeLine_of_fgets got).2]
    exact split

theorem complete_or_of_fgets
    (got : fgets maxline input = some (piece, rest)) :
    Complete piece ∨ rest = [] := by
  have cut := takeLine_complete (maxline - 1) input
  rw [(takeLine_of_fgets got).2, ← or_assoc] at cut
  exact cut

end Fgets

/-- All pieces into which a text is cut. -/
def pieces (input : List (BitVec 8)) : List (List (BitVec 8)) :=
  match _got : fgets maxline input with
  | none => []
  | some (piece, rest) => piece :: pieces rest
termination_by input.length
decreasing_by
  have cut := congrArg List.length (append_of_fgets _got)
  have positive :=
    List.length_pos_iff.mpr (isPiece_of_fgets _got).nonempty
  rw [List.length_append] at cut
  omega

theorem pieces_of_fgets
    {input piece rest : List (BitVec 8)}
    (got : fgets maxline input = some (piece, rest)) :
    pieces input = piece :: pieces rest := by
  rw [pieces]
  split
  case h_1 missing =>
    rw [got] at missing
    cases missing
  case h_2 other left found =>
    rw [got] at found
    cases found
    rfl

theorem pieces_nil : pieces [] = [] := by
  rw [pieces]
  rfl

/-- The pieces are the text. -/
theorem flatten_pieces (input : List (BitVec 8)) :
    (pieces input).flatten = input := by
  induction input using pieces.induct with
  | case1 input missing =>
      rw [fgets_eq_none_iff] at missing
      rw [missing, pieces_nil]
      rfl
  | case2 input piece rest got ih =>
      rw [pieces_of_fgets got, List.flatten_cons, ih]
      exact append_of_fgets got

theorem isPiece_of_mem_pieces
    {input piece : List (BitVec 8)} (member : piece ∈ pieces input) :
    IsPiece piece := by
  induction input using pieces.induct with
  | case1 input missing =>
      rw [fgets_eq_none_iff] at missing
      rw [missing, pieces_nil] at member
      cases member
  | case2 input first rest got ih =>
      rw [pieces_of_fgets got] at member
      rcases List.mem_cons.mp member with rfl | later
      · exact isPiece_of_fgets got
      · exact ih later

end CodingExamples.EchoServer.Unp
