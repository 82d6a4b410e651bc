import JudgeSelf.Machine.Run
import Mathlib.Data.Multiset.AddSub
import Mathlib.Data.Multiset.ZeroCons
import Mathlib.Logic.Function.Basic

/-! # Publishing snapshots of a store

A writer updates the entry of a key and gets a snapshot of it; later it publishes a value computed
from the snapshot. The two steps of different writers interleave. Every snapshot carries a stamp,
in the order of the updates. If no snapshot is published after a later snapshot of the same key,
then a key without outstanding snapshots has the published value of its stored entry
(`published_of_idle`).
-/

namespace Machine.Publish

variable {κ σ β : Type*}

structure Snapshot (κ σ : Type*) where
  key : κ
  value : σ
  stamp : ℕ

@[ext] structure Desk (κ σ β : Type*) where
  store : κ → Option σ
  board : κ → Option β
  /-- Snapshots not yet published. -/
  pending : Multiset (Snapshot κ σ)
  /-- The stamp of the next snapshot. -/
  stamps : ℕ
  /-- For each key, a bound above the stamps of its published snapshots. -/
  published : κ → ℕ

inductive Action (κ σ : Type*)
  | update (key : κ) (value : σ)
  | publish (snapshot : Snapshot κ σ)
  | forget (key : κ)

variable [DecidableEq κ]

def Desk.update (d : Desk κ σ β) (key : κ) (value : σ) : Desk κ σ β :=
  { d with
    store := Function.update d.store key (some value)
    pending := ⟨key, value, d.stamps⟩ ::ₘ d.pending
    stamps := d.stamps + 1 }

def Desk.publish (f : σ → β) (d : Desk κ σ β) (p : Snapshot κ σ) (rest : Multiset (Snapshot κ σ)) :
    Desk κ σ β :=
  { d with
    board := Function.update d.board p.key (some (f p.value))
    pending := rest
    published := Function.update d.published p.key (p.stamp + 1) }

def Desk.forget (d : Desk κ σ β) (key : κ) : Desk κ σ β :=
  { d with store := Function.update d.store key none }

inductive Step (f : σ → β) : Desk κ σ β → Action κ σ → Desk κ σ β → Prop
  | update (d : Desk κ σ β) (key : κ) (value : σ) : Step f d (.update key value) (d.update key value)
  | publish {d : Desk κ σ β} {p : Snapshot κ σ} {rest : Multiset (Snapshot κ σ)}
      (outstanding : d.pending = p ::ₘ rest) : Step f d (.publish p) (d.publish f p rest)
  | forget (d : Desk κ σ β) (key : κ) : Step f d (.forget key) (d.forget key)

/-- No snapshot of the key with a later stamp has been published. -/
def InOrder (d : Desk κ σ β) : Action κ σ → Prop
  | .publish p => d.published p.key ≤ p.stamp
  | _ => True

/-- The latest snapshot of a stored entry is outstanding or was the last to be published. -/
structure Settled (f : σ → β) (d : Desk κ σ β) : Prop where
  fresh : ∀ p ∈ d.pending, p.stamp < d.stamps
  bounded : ∀ k, d.published k ≤ d.stamps
  distinct : ∀ p ∈ d.pending, ∀ q ∈ d.pending, p.stamp = q.stamp → p = q
  latest : ∀ k s, d.store k = some s →
    (∃ p ∈ d.pending, p.key = k ∧ p.value = s ∧ d.published k ≤ p.stamp ∧
      ∀ q ∈ d.pending, q.key = k → q.stamp ≤ p.stamp) ∨
    (d.board k = some (f s) ∧ ∀ q ∈ d.pending, q.key = k → q.stamp < d.published k)

variable {f : σ → β} {d : Desk κ σ β}

private theorem Settled.update (settled : Settled f d) (key : κ) (value : σ) :
    Settled f (d.update key value) where
  fresh p member := by
    rcases Multiset.mem_cons.mp member with rfl | member
    · exact Nat.lt_succ_self _
    · exact Nat.lt_succ_of_lt (settled.fresh p member)
  bounded k := Nat.le_succ_of_le (settled.bounded k)
  distinct p hp q hq same := by
    rcases Multiset.mem_cons.mp hp with rfl | hp <;> rcases Multiset.mem_cons.mp hq with rfl | hq
    · rfl
    · exact absurd same (settled.fresh q hq).ne'
    · exact absurd same (settled.fresh p hp).ne
    · exact settled.distinct p hp q hq same
  latest k s stored := by
    by_cases here : k = key
    · subst here
      obtain rfl : value = s := by simpa [Desk.update] using stored
      refine .inl ⟨_, Multiset.mem_cons_self _ _, rfl, rfl, settled.bounded k, fun q member _ => ?_⟩
      rcases Multiset.mem_cons.mp member with rfl | member
      · exact le_rfl
      · exact (settled.fresh q member).le
    · have before : d.store k = some s := by simpa [Desk.update, here] using stored
      rcases settled.latest k s before with ⟨p, member, same, value_, bound, least⟩ | ⟨shown, older⟩
      · refine .inl ⟨p, Multiset.mem_cons_of_mem member, same, value_, bound, fun q present at_ => ?_⟩
        rcases Multiset.mem_cons.mp present with rfl | present
        · exact absurd at_.symm here
        · exact least q present at_
      · refine .inr ⟨shown, fun q present at_ => ?_⟩
        rcases Multiset.mem_cons.mp present with rfl | present
        · exact absurd at_.symm here
        · exact older q present at_

private theorem Settled.publish (settled : Settled f d) {p : Snapshot κ σ} {rest : Multiset (Snapshot κ σ)}
    (outstanding : d.pending = p ::ₘ rest) (ordered : d.published p.key ≤ p.stamp) :
    Settled f (d.publish f p rest) := by
  have here : p ∈ d.pending := outstanding ▸ Multiset.mem_cons_self p rest
  have remain {q : Snapshot κ σ} (member : q ∈ rest) : q ∈ d.pending :=
    outstanding ▸ Multiset.mem_cons_of_mem member
  refine ⟨fun q member => settled.fresh q (remain member), ?_,
    fun a ha b hb => settled.distinct a (remain ha) b (remain hb), ?_⟩
  · intro k
    by_cases same : k = p.key
    · subst same
      simpa [Desk.publish, Nat.succ_le_iff] using settled.fresh p here
    · simpa [Desk.publish, same] using settled.bounded k
  · intro k s stored
    by_cases same : k = p.key
    · subst same
      rcases settled.latest p.key s stored with ⟨last, member, at_, value, bound, least⟩ | ⟨_, older⟩
      · rcases (least p here rfl).lt_or_eq with earlier | equal
        · have still : last ∈ rest := by
            rcases Multiset.mem_cons.mp (outstanding ▸ member) with rfl | still
            · exact absurd earlier (lt_irrefl _)
            · exact still
          refine .inl ⟨last, still, at_, value, ?_, fun q present => least q (remain present)⟩
          simpa [Desk.publish, Nat.succ_le_iff] using earlier
        · obtain rfl := settled.distinct p here last member equal
          refine .inr ⟨by simp [Desk.publish, value], fun q present at_ => ?_⟩
          simpa [Desk.publish, Nat.lt_succ_iff] using least q (remain present) at_
      · exact absurd (older p here rfl) (not_lt.mpr ordered)
    · rcases settled.latest k s stored with ⟨last, member, at_, value, bound, least⟩ | ⟨shown, older⟩
      · have still : last ∈ rest := by
          rcases Multiset.mem_cons.mp (outstanding ▸ member) with rfl | still
          · exact absurd at_.symm same
          · exact still
        refine .inl ⟨last, still, at_, value, ?_, fun q present => least q (remain present)⟩
        simpa [Desk.publish, same] using bound
      · refine .inr ⟨by simpa [Desk.publish, same] using shown, fun q present at_ => ?_⟩
        simpa [Desk.publish, same] using older q (remain present) at_

private theorem Settled.forget (settled : Settled f d) (key : κ) : Settled f (d.forget key) where
  fresh := settled.fresh
  bounded := settled.bounded
  distinct := settled.distinct
  latest k s stored := by
    by_cases here : k = key
    · subst here
      simp [Desk.forget] at stored
    · exact settled.latest k s (by simpa [Desk.forget, here] using stored)

theorem Settled.step {t : Desk κ σ β} {a : Action κ σ} (settled : Settled f d)
    (step : Guarded (Step f) InOrder d a t) : Settled f t := by
  obtain ⟨ordered, step⟩ := step
  cases step with
  | update key value => exact settled.update key value
  | publish outstanding => exact settled.publish outstanding ordered
  | forget key => exact settled.forget key

/-- Every run in order keeps the desk settled. -/
theorem Settled.run {t : Desk κ σ β} {actions : List (Action κ σ)} (settled : Settled f d)
    (run : Run (Guarded (Step f) InOrder) d actions t) : Settled f t := by
  have preserved : ∀ (d : Desk κ σ β) a t, Settled f d → Guarded (Step f) InOrder d a t → Settled f t :=
    fun _ _ _ => Settled.step
  exact run.invariant preserved settled

omit [DecidableEq κ] in
/-- With nothing outstanding, a desk that shows the values of its entries is settled. -/
theorem Settled.of_idle (idle : d.pending = 0) (bounded : ∀ k, d.published k ≤ d.stamps)
    (shown : ∀ k s, d.store k = some s → d.board k = some (f s)) : Settled f d where
  fresh p member := by simp [idle] at member
  bounded := bounded
  distinct p member := by simp [idle] at member
  latest k s stored := .inr ⟨shown k s stored, fun q member => by simp [idle] at member⟩

omit [DecidableEq κ] in
/-- A key without outstanding snapshots shows the value of its entry. -/
theorem Settled.published_of_idle (settled : Settled f d) {k : κ} {s : σ} (stored : d.store k = some s)
    (idle : ∀ p ∈ d.pending, p.key ≠ k) : d.board k = some (f s) := by
  rcases settled.latest k s stored with ⟨p, member, same, _⟩ | ⟨shown, _⟩
  · exact absurd same (idle p member)
  · exact shown

end Machine.Publish
