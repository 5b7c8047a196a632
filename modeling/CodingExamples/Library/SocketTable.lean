import Mathlib

/-!
# Connected sockets

A connection is numbered when it is accepted.  Its descriptor is only a name:
after `close` the same descriptor may come to name another connection.  What a
program has received from a connection and sent to it is therefore recorded
under its number.

An echo is settled when it has sent to every connection what it has received
from it.  It owes the rest of a message while it is sending one.
-/

namespace CodingExamples.Library.SocketTable

/-- What an open descriptor names. -/
inductive Descriptor where
  | connection (number : Nat)
  | other
deriving DecidableEq, Repr

/-- The open descriptors of a program, and the traffic of its connections. -/
structure Sockets (Symbol : Type) where
  descriptors : Nat → Option Descriptor
  accepted : Nat
  received : Nat → List Symbol
  sent : Nat → List Symbol

variable {Symbol : Type}

namespace Sockets

/-- No connection has been accepted yet. -/
def fresh (isOpen : Nat → Bool) : Sockets Symbol where
  descriptors := fun fd => if isOpen fd then some .other else none
  accepted := 0
  received := fun _ => []
  sent := fun _ => []

/-- A new connection under a descriptor. -/
def accept (sockets : Sockets Symbol) (fd : Nat) : Sockets Symbol :=
  { sockets with
    descriptors :=
      Function.update sockets.descriptors fd
        (some (.connection sockets.accepted))
    accepted := sockets.accepted + 1 }

def close (sockets : Sockets Symbol) (fd : Nat) : Sockets Symbol :=
  { sockets with
    descriptors := Function.update sockets.descriptors fd none }

/-- The connection that a descriptor names. -/
def connection (sockets : Sockets Symbol) (fd : Nat) : Option Nat :=
  match sockets.descriptors fd with
  | some (.connection number) => some number
  | _ => none

/-- Symbols from the connection that the descriptor names. -/
def receive (sockets : Sockets Symbol) (fd : Nat) (symbols : List Symbol) :
    Option (Sockets Symbol) :=
  (sockets.connection fd).map fun number =>
    { sockets with
      received :=
        Function.update sockets.received number
          (sockets.received number ++ symbols) }

/-- Symbols to the connection that the descriptor names. -/
def send (sockets : Sockets Symbol) (fd : Nat) (symbols : List Symbol) :
    Option (Sockets Symbol) :=
  (sockets.connection fd).map fun number =>
    { sockets with
      sent :=
        Function.update sockets.sent number
          (sockets.sent number ++ symbols) }

/-! ## Descriptors -/

/-- The descriptor is open. -/
def IsOpen (sockets : Sockets Symbol) (fd : Nat) : Prop :=
  sockets.descriptors fd ≠ none

instance (sockets : Sockets Symbol) (fd : Nat) :
    Decidable (sockets.IsOpen fd) :=
  inferInstanceAs (Decidable (_ ≠ _))

theorem accept_isOpen_self (sockets : Sockets Symbol) (fd : Nat) :
    (sockets.accept fd).IsOpen fd := by
  show Function.update sockets.descriptors fd _ fd ≠ none
  rw [Function.update_self]
  exact Option.some_ne_none _

theorem IsOpen.accept
    {sockets : Sockets Symbol} {fd : Nat} (isOpen : sockets.IsOpen fd)
    (other : Nat) : (sockets.accept other).IsOpen fd := by
  by_cases same : fd = other
  · subst same
    exact accept_isOpen_self sockets fd
  · show Function.update sockets.descriptors other _ fd ≠ none
    rw [Function.update_of_ne same]
    exact isOpen

theorem not_isOpen_close_self (sockets : Sockets Symbol) (fd : Nat) :
    ¬ (sockets.close fd).IsOpen fd := by
  intro isOpen
  apply isOpen
  show Function.update sockets.descriptors fd none fd = none
  rw [Function.update_self]

theorem IsOpen.close
    {sockets : Sockets Symbol} {fd : Nat} (isOpen : sockets.IsOpen fd)
    {other : Nat} (different : fd ≠ other) :
    (sockets.close other).IsOpen fd := by
  show Function.update sockets.descriptors other none fd ≠ none
  rw [Function.update_of_ne different]
  exact isOpen

/-- Traffic opens and closes nothing. -/
theorem receive_descriptors
    {sockets result : Sockets Symbol} {fd : Nat} {symbols : List Symbol}
    (received : sockets.receive fd symbols = some result) :
    result.descriptors = sockets.descriptors := by
  rcases Option.map_eq_some_iff.mp received with ⟨number, -, rfl⟩
  rfl

theorem send_descriptors
    {sockets result : Sockets Symbol} {fd : Nat} {symbols : List Symbol}
    (sent : sockets.send fd symbols = some result) :
    result.descriptors = sockets.descriptors := by
  rcases Option.map_eq_some_iff.mp sent with ⟨number, -, rfl⟩
  rfl

/-! ## Echoes -/

/-- Every connection was sent what was received from it. -/
def Settled (sockets : Sockets Symbol) : Prop :=
  ∀ number, sockets.sent number = sockets.received number

/-- The same, but for some symbols that one connection is still owed. -/
def Owing (sockets : Sockets Symbol) (fd : Nat)
    (owed : List Symbol) : Prop :=
  ∃ number, sockets.connection fd = some number ∧
    sockets.received number = sockets.sent number ++ owed ∧
      ∀ other, other ≠ number →
        sockets.sent other = sockets.received other

theorem fresh_settled (isOpen : Nat → Bool) :
    (fresh isOpen : Sockets Symbol).Settled :=
  fun _ => rfl

theorem Settled.accept
    {sockets : Sockets Symbol} (settled : sockets.Settled) (fd : Nat) :
    (sockets.accept fd).Settled :=
  settled

theorem Settled.close
    {sockets : Sockets Symbol} (settled : sockets.Settled) (fd : Nat) :
    (sockets.close fd).Settled :=
  settled

/-- What is received is owed. -/
theorem Settled.receive
    {sockets result : Sockets Symbol} (settled : sockets.Settled)
    {fd : Nat} {symbols : List Symbol}
    (received : sockets.receive fd symbols = some result) :
    result.Owing fd symbols := by
  rcases Option.map_eq_some_iff.mp received with ⟨number, found, rfl⟩
  refine ⟨number, found, ?_, ?_⟩
  · show Function.update sockets.received number _ number = _
    rw [Function.update_self, settled number]
  · intro other different
    show _ = Function.update sockets.received number _ other
    rw [Function.update_of_ne different, settled other]

/-- What is sent is no longer owed. -/
theorem Owing.send
    {sockets result : Sockets Symbol} {fd : Nat} {owed : List Symbol}
    (owing : sockets.Owing fd owed) {count : Nat}
    (sent : sockets.send fd (owed.take count) = some result) :
    result.Owing fd (owed.drop count) := by
  rcases owing with ⟨number, found, received, others⟩
  rcases Option.map_eq_some_iff.mp sent with ⟨same, foundAgain, rfl⟩
  rw [found] at foundAgain
  cases foundAgain
  refine ⟨number, found, ?_, ?_⟩
  · show _ = Function.update sockets.sent number _ number ++ _
    rw [Function.update_self, List.append_assoc, List.take_append_drop,
      received]
  · intro other different
    show Function.update sockets.sent number _ other = _
    rw [Function.update_of_ne different, others other different]

/-- Nothing is owed any more. -/
theorem Owing.settled
    {sockets : Sockets Symbol} {fd : Nat}
    (owing : sockets.Owing fd []) : sockets.Settled := by
  rcases owing with ⟨number, -, received, others⟩
  intro other
  by_cases same : other = number
  · rw [same, received, List.append_nil]
  · exact others other same

end Sockets

end CodingExamples.Library.SocketTable
