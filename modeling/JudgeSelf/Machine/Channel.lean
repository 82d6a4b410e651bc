import Mathlib.Data.Nat.Notation
import Mathlib.Data.List.Basic

/-! # Channels of bounded capacity

A channel buffers values up to its capacity. A send on a closed channel panics, whether it starts
after the close or has been blocked before it; a send on a full open channel is blocked. A receive
takes the first buffered value, and a closed channel without one gives none for ever.
-/

namespace Machine

structure Channel (μ : Type*) where
  capacity : ℕ
  buffer : List μ
  closed : Bool
deriving DecidableEq, Repr

namespace Channel

variable {μ : Type*}

/-- An open channel without values, as `make` gives it. -/
def make (capacity : ℕ) : Channel μ := ⟨capacity, [], false⟩

/-- What comes of a send. -/
inductive Sent (μ : Type*)
  | panics
  | blocked
  | sent (channel : Channel μ)

def send (c : Channel μ) (m : μ) : Sent μ :=
  if c.closed then .panics
  else if c.buffer.length < c.capacity then .sent { c with buffer := c.buffer ++ [m] }
  else .blocked

/-- What comes of a receive; nothing while it is blocked, and no value from a closed empty channel. -/
def receive (c : Channel μ) : Option (Option μ × Channel μ) :=
  match c.buffer with
  | m :: buffer => some (some m, { c with buffer })
  | [] => if c.closed then some (none, c) else none

/-- Closing a channel twice panics. -/
def close (c : Channel μ) : Option (Channel μ) := if c.closed then none else some { c with closed := true }

theorem send_eq_panics_iff {c : Channel μ} {m : μ} : c.send m = .panics ↔ c.closed := by
  rw [send]
  split
  · next closed => simp [closed]
  · next isOpen => split <;> simp [isOpen]

theorem closed_of_sent {c d : Channel μ} {m : μ} (sent : c.send m = .sent d) : d.closed = c.closed := by
  rw [send] at sent
  split at sent
  · contradiction
  · split at sent
    · cases sent
      rfl
    · contradiction

/-- The value that is received is the first one in the buffer. -/
theorem head?_of_receive {c d : Channel μ} {m : Option μ} (received : c.receive = some (m, d)) :
    c.buffer.head? = m := by
  rw [receive] at received
  split at received
  · next buffered =>
    cases received
    rw [buffered, List.head?_cons]
  · next empty =>
    split at received
    · cases received
      rw [empty, List.head?_nil]
    · contradiction

theorem closed_of_receive {c d : Channel μ} {m : Option μ} (received : c.receive = some (m, d)) :
    d.closed = c.closed := by
  rw [receive] at received
  split at received
  · cases received
    rfl
  · split at received
    · cases received
      rfl
    · contradiction

theorem closed_of_close {c d : Channel μ} (shut : c.close = some d) : c.closed = false ∧ d.closed := by
  rw [close] at shut
  split at shut
  · contradiction
  · next isOpen =>
    cases shut
    exact ⟨Bool.eq_false_iff.mpr isOpen, rfl⟩

end Channel

end Machine
