import Mathlib.Data.Nat.Notation
import Mathlib.Data.List.Basic

/-! # Message brokers with acknowledgements

A broker holds a message ready, or unacknowledged under the tag of its delivery. A message leaves
the broker when its delivery is settled, by an acknowledgement or a rejection without requeueing.
When the channel of the consumer closes, the unacknowledged messages are ready again. Tags grow, so
that the holder of an old delivery can settle that delivery or nothing.
-/

namespace Machine

/-- The messages of a queue; every tag in use has been given out. -/
structure Broker (μ : Type*) where
  ready : List μ
  unacked : List (ℕ × μ)
  nextTag : ℕ
  tagged : ∀ delivery ∈ unacked, delivery.1 < nextTag

namespace Broker

variable {μ : Type*} {b c : Broker μ} {m n : μ} {tag : ℕ}

instance [DecidableEq μ] : DecidableEq (Broker μ) := fun b c =>
  decidable_of_iff (b.ready = c.ready ∧ b.unacked = c.unacked ∧ b.nextTag = c.nextTag) (by
    cases b; cases c; simp)

def empty : Broker μ := ⟨[], [], 0, List.forall_mem_nil _⟩

def publish (b : Broker μ) (m : μ) : Broker μ := { b with ready := b.ready ++ [m] }

/-- Deliver the first ready message under a new tag. -/
def deliver (b : Broker μ) : Option ((ℕ × μ) × Broker μ) :=
  match b.ready with
  | [] => none
  | m :: ready => some ((b.nextTag, m),
      { ready := ready
        unacked := b.unacked ++ [(b.nextTag, m)]
        nextTag := b.nextTag + 1
        tagged := by
          intro delivery member
          rcases List.mem_append.mp member with before | here
          · exact Nat.lt_succ_of_lt (b.tagged delivery before)
          · rw [List.mem_singleton.mp here]
            exact Nat.lt_succ_self _ })

/-- Remove the message of a delivery, if the delivery is still unacknowledged. -/
def settle (b : Broker μ) (tag : ℕ) : Broker μ :=
  { b with
    unacked := b.unacked.filter fun delivery => delivery.1 ≠ tag
    tagged := fun delivery member => b.tagged delivery (List.mem_of_mem_filter member) }

/-- The channel of the consumer has closed. -/
def requeue (b : Broker μ) : Broker μ :=
  { b with
    ready := b.unacked.map Prod.snd ++ b.ready
    unacked := []
    tagged := List.forall_mem_nil _ }

/-- The broker has the message. -/
def Holds (b : Broker μ) (m : μ) : Prop := m ∈ b.ready ∨ ∃ tag, (tag, m) ∈ b.unacked

theorem deliver_eq_some (delivered : b.deliver = some ((tag, m), c)) :
    b.ready = m :: c.ready ∧ c.unacked = b.unacked ++ [(tag, m)] ∧ tag = b.nextTag ∧ c.nextTag = b.nextTag + 1 := by
  rw [deliver] at delivered
  split at delivered
  · contradiction
  · next ready =>
    simp only [Option.some.injEq, Prod.mk.injEq] at delivered
    obtain ⟨⟨rfl, rfl⟩, rfl⟩ := delivered
    exact ⟨ready, rfl, rfl, rfl⟩

theorem holds_publish : (b.publish n).Holds m ↔ b.Holds m ∨ m = n := by
  rw [Holds, Holds, publish, List.mem_append, List.mem_singleton, or_right_comm]

theorem holds_deliver (delivered : b.deliver = some ((tag, n), c)) : c.Holds m ↔ b.Holds m := by
  obtain ⟨ready, unacked, -, -⟩ := deliver_eq_some delivered
  rw [Holds, Holds, ready, unacked, List.mem_cons]
  constructor
  · rintro (waiting | ⟨given, member⟩)
    · exact .inl (.inr waiting)
    · rcases List.mem_append.mp member with before | here
      · exact .inr ⟨given, before⟩
      · exact .inl (.inl (Prod.mk.inj (List.mem_singleton.mp here)).2)
  · rintro ((rfl | waiting) | ⟨given, before⟩)
    · exact .inr ⟨tag, List.mem_append_right _ (List.mem_singleton_self _)⟩
    · exact .inl waiting
    · exact .inr ⟨given, List.mem_append_left _ before⟩

theorem holds_requeue : b.requeue.Holds m ↔ b.Holds m := by
  simp [Holds, requeue, or_comm]

/-- Settling a delivery leaves all other messages. -/
theorem Holds.settle (holds : b.Holds m) (other : (tag, m) ∉ b.unacked) : (b.settle tag).Holds m := by
  rcases holds with ready | ⟨given, unacked⟩
  · exact .inl ready
  · refine .inr ⟨given, List.mem_filter.mpr ⟨unacked, decide_eq_true ?_⟩⟩
    rintro rfl
    exact other unacked

theorem Holds.of_settle (holds : (b.settle tag).Holds m) : b.Holds m :=
  holds.imp_right fun ⟨given, unacked⟩ => ⟨given, List.mem_of_mem_filter unacked⟩

/-- Deliveries of the earlier broker are those it had, less the ones that are gone. -/
structure Ages (b c : Broker μ) : Prop where
  nextTag : b.nextTag ≤ c.nextTag
  unacked : ∀ tag m, tag < b.nextTag → (tag, m) ∈ c.unacked → (tag, m) ∈ b.unacked

theorem Ages.refl (b : Broker μ) : b.Ages b := ⟨Nat.le_refl _, fun _ _ _ => id⟩

theorem ages_publish (b : Broker μ) (m : μ) : b.Ages (b.publish m) := ⟨Nat.le_refl _, fun _ _ _ => id⟩

theorem ages_deliver (delivered : b.deliver = some ((tag, m), c)) : b.Ages c := by
  obtain ⟨-, unacked, rfl, nextTag⟩ := deliver_eq_some delivered
  refine ⟨by omega, fun given n earlier member => ?_⟩
  rw [unacked] at member
  rcases List.mem_append.mp member with before | here
  · exact before
  · obtain ⟨rfl, -⟩ := Prod.mk.inj (List.mem_singleton.mp here)
    exact absurd earlier (Nat.lt_irrefl _)

theorem ages_settle (b : Broker μ) (tag : ℕ) : b.Ages (b.settle tag) :=
  ⟨Nat.le_refl _, fun _ _ _ => List.mem_of_mem_filter⟩

theorem ages_requeue (b : Broker μ) : b.Ages b.requeue :=
  ⟨Nat.le_refl _, fun _ _ _ member => absurd member List.not_mem_nil⟩

/-- The tag has been given out, and if its delivery is still unacknowledged the message satisfies `P`. -/
def Delivered (b : Broker μ) (tag : ℕ) (P : μ → Prop) : Prop :=
  tag < b.nextTag ∧ ∀ m, (tag, m) ∈ b.unacked → P m

theorem Delivered.ages {P : μ → Prop} (given : b.Delivered tag P) (ages : b.Ages c) : c.Delivered tag P :=
  ⟨Nat.lt_of_lt_of_le given.1 ages.nextTag, fun m unacked => given.2 m (ages.unacked tag m given.1 unacked)⟩

theorem Delivered.imp {P Q : μ → Prop} (given : b.Delivered tag P) (weaken : ∀ m, P m → Q m) : b.Delivered tag Q :=
  ⟨given.1, fun m unacked => weaken m (given.2 m unacked)⟩

/-- A new delivery is known by its tag. -/
theorem delivered_deliver (delivered : b.deliver = some ((tag, m), c)) : c.Delivered tag (· = m) := by
  obtain ⟨-, unacked, rfl, nextTag⟩ := deliver_eq_some delivered
  refine ⟨by omega, fun n member => ?_⟩
  rw [unacked] at member
  rcases List.mem_append.mp member with before | here
  · exact absurd (b.tagged _ before) (Nat.lt_irrefl _)
  · exact (Prod.mk.inj (List.mem_singleton.mp here)).2

end Broker

end Machine
