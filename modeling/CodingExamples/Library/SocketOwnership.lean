import CodingExamples.Library.SocketTable

/-!
# Who holds a connection

A program keeps descriptors that it was started with, and holds the
connections that it has accepted and not closed.  If it holds them under
different descriptors and remembers each of these, then no connection is lost
and none is closed that another client uses.
-/

namespace CodingExamples.Library.SocketTable.Sockets

variable {Symbol : Type}

/--
The open descriptors are those of the base, which name no connection, and the
held ones, which name different connections.
-/
structure Owned (base : Nat → Bool) (held : Nat → Prop)
    (sockets : Sockets Symbol) : Prop where
  isOpen : ∀ fd, sockets.IsOpen fd ↔ base fd = true ∨ held fd
  base : ∀ fd, base fd = true → sockets.descriptors fd = some .other
  held :
    ∀ fd, held fd →
      ∃ number, number < sockets.accepted ∧
        sockets.descriptors fd = some (.connection number)
  distinct :
    ∀ left right number,
      sockets.descriptors left = some (.connection number) →
        sockets.descriptors right = some (.connection number) →
          left = right

namespace Owned

variable {base : Nat → Bool} {held : Nat → Prop} {sockets : Sockets Symbol}

/-- A named connection was accepted. -/
theorem lt_accepted
    (owned : sockets.Owned base held) {fd number : Nat}
    (named : sockets.descriptors fd = some (.connection number)) :
    held fd ∧ number < sockets.accepted := by
  have isOpen : sockets.IsOpen fd := by
    intro closed
    rw [closed] at named
    cases named
  rcases (owned.isOpen fd).mp isOpen with isBase | isHeld
  · rw [owned.base fd isBase] at named
    cases named
  · rcases owned.held fd isHeld with ⟨other, accepted, same⟩
    rw [same] at named
    cases named
    exact ⟨isHeld, accepted⟩

/-- Neither the descriptors nor the connections change. -/
theorem congr
    (owned : sockets.Owned base held) {result : Sockets Symbol}
    (descriptors : result.descriptors = sockets.descriptors)
    (accepted : result.accepted = sockets.accepted)
    {other : Nat → Prop} (same : ∀ fd, other fd ↔ held fd) :
    result.Owned base other where
  isOpen := by
    intro fd
    rw [IsOpen, descriptors, same]
    exact owned.isOpen fd
  base := by
    rw [descriptors]
    exact owned.base
  held := by
    intro fd isHeld
    rw [descriptors, accepted]
    exact owned.held fd ((same fd).mp isHeld)
  distinct := by
    rw [descriptors]
    exact owned.distinct

/-- The new connection is held under a descriptor that was not open. -/
theorem accept
    (owned : sockets.Owned base held) {fd : Nat}
    (new : ¬ sockets.IsOpen fd) :
    (sockets.accept fd).Owned base fun other => other = fd ∨ held other := by
  have unnamed {other number : Nat}
      (named :
        (sockets.accept fd).descriptors other = some (.connection number)) :
      other = fd ∧ number = sockets.accepted ∨
        sockets.descriptors other = some (.connection number) := by
    have named : Function.update sockets.descriptors fd _ other = _ :=
      named
    by_cases same : other = fd
    · subst same
      rw [Function.update_self] at named
      cases named
      exact .inl ⟨rfl, rfl⟩
    · rw [Function.update_of_ne same] at named
      exact .inr named
  constructor
  case isOpen =>
    intro other
    by_cases same : other = fd
    · subst same
      exact ⟨fun _ => .inr (.inl rfl), fun _ => accept_isOpen_self _ _⟩
    · rw [← or_assoc, or_comm (a := base other = true), or_assoc,
        ← owned.isOpen other]
      have kept : (sockets.accept fd).IsOpen other ↔ sockets.IsOpen other := by
        show Function.update sockets.descriptors fd _ other ≠ none ↔ _
        rw [Function.update_of_ne same]
        exact Iff.rfl
      rw [kept]
      exact ⟨.inr, fun either => either.resolve_left same⟩
  case base =>
    intro other isBase
    have different : other ≠ fd := by
      rintro rfl
      exact new ((owned.isOpen other).mpr (.inl isBase))
    show Function.update sockets.descriptors fd _ other = _
    rw [Function.update_of_ne different]
    exact owned.base other isBase
  case held =>
    intro other isHeld
    by_cases same : other = fd
    · subst same
      exact ⟨sockets.accepted, Nat.lt_succ_self _, Function.update_self ..⟩
    · rcases owned.held other (isHeld.resolve_left same) with
        ⟨number, accepted, named⟩
      refine ⟨number, Nat.lt_succ_of_lt accepted, ?_⟩
      show Function.update sockets.descriptors fd _ other = _
      rw [Function.update_of_ne same]
      exact named
  case distinct =>
    intro left right number first second
    rcases unnamed first with ⟨rfl, rfl⟩ | oldFirst
    · rcases unnamed second with ⟨rfl, _⟩ | oldSecond
      · rfl
      · exact absurd (owned.lt_accepted oldSecond).2 (Nat.lt_irrefl _)
    · rcases unnamed second with ⟨_, rfl⟩ | oldSecond
      · exact absurd (owned.lt_accepted oldFirst).2 (Nat.lt_irrefl _)
      · exact owned.distinct left right number oldFirst oldSecond

/-- A connection that is held is closed. -/
theorem close
    (owned : sockets.Owned base held) {fd : Nat} (isHeld : held fd) :
    (sockets.close fd).Owned base fun other => other ≠ fd ∧ held other := by
  have notBase : ¬ base fd = true := by
    intro isBase
    rcases owned.held fd isHeld with ⟨number, _, named⟩
    rw [owned.base fd isBase] at named
    cases named
  have kept {other : Nat} (different : other ≠ fd) :
      (sockets.close fd).descriptors other = sockets.descriptors other :=
    Function.update_of_ne different _ _
  have gone : (sockets.close fd).descriptors fd = none :=
    Function.update_self ..
  constructor
  case isOpen =>
    intro other
    by_cases same : other = fd
    · subst same
      constructor
      · intro isOpen
        exact absurd isOpen (not_isOpen_close_self sockets other)
      · rintro (isBase | ⟨different, _⟩)
        · exact absurd isBase notBase
        · exact absurd rfl different
    · rw [IsOpen, kept same]
      have before := owned.isOpen other
      rw [IsOpen] at before
      rw [before]
      constructor
      · rintro (isBase | other)
        · exact .inl isBase
        · exact .inr ⟨same, other⟩
      · rintro (isBase | other)
        · exact .inl isBase
        · exact .inr other.2
  case base =>
    intro other isBase
    have different : other ≠ fd := by
      rintro rfl
      exact notBase isBase
    rw [kept different]
    exact owned.base other isBase
  case held =>
    rintro other ⟨different, otherHeld⟩
    rw [kept different]
    exact owned.held other otherHeld
  case distinct =>
    intro left right number first second
    have named {other : Nat}
        (named :
          (sockets.close fd).descriptors other = some (.connection number)) :
        sockets.descriptors other = some (.connection number) := by
      by_cases same : other = fd
      · rw [same, gone] at named
        cases named
      · rwa [kept same] at named
    exact owned.distinct left right number (named first) (named second)

end Owned

end CodingExamples.Library.SocketTable.Sockets
