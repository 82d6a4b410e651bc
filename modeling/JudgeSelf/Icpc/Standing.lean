import JudgeSelf.Icpc.Problem
import Mathlib.Tactic.Linarith
import Mathlib.Algebra.BigOperators.Group.List.Basic
import Mathlib.Algebra.Order.Ring.Int

/-! # ICPC standings and their packing into one number

A contestant's standing is the number of solved problems and the total penalty. Contestants rank
by more solved problems, then by less penalty. Packing a standing into `solved * offset - penalty`
orders two contestants correctly exactly when the difference of their penalties does not outweigh
the difference of their solved problems (`packed_lt_iff_better`).
-/

namespace Icpc

section Total

variable {α : Type*} (accepted rejected : α → Bool) (time : α → ℤ)

/-- What one problem adds to the penalty: nothing, until it is solved. -/
def problemPenalty (toll : ℤ) (attempts : List α) : ℤ :=
  match acceptedAt accepted time attempts with
  | none => 0
  | some t => t + rejectedBefore accepted rejected time t attempts * toll

end Total

@[simp] theorem problemPenalty_of_unsolved {α : Type*} {accepted rejected : α → Bool} {time : α → ℤ}
    {toll : ℤ} {attempts : List α} (unsolved : acceptedAt accepted time attempts = none) :
    problemPenalty accepted rejected time toll attempts = 0 := by
  simp only [problemPenalty, unsolved]

theorem problemPenalty_of_solved {α : Type*} {accepted rejected : α → Bool} {time : α → ℤ}
    {toll t : ℤ} {attempts : List α} (first : acceptedAt accepted time attempts = some t) :
    problemPenalty accepted rejected time toll attempts =
      t + rejectedBefore accepted rejected time t attempts * toll := by
  simp only [problemPenalty, first]

/-- Solved problems and total penalty of one contestant. -/
structure Standing where
  solved : ℕ
  penalty : ℤ
deriving DecidableEq, Repr

/-- The standing of a contestant with the given attempts on each problem. -/
def standing {α : Type*} (accepted rejected : α → Bool) (time : α → ℤ) (toll : ℤ)
    (problems : List (List α)) : Standing where
  solved := problems.countP fun attempts => (acceptedAt accepted time attempts).isSome
  penalty := (problems.map (problemPenalty accepted rejected time toll)).sum

namespace Standing

/-- More solved problems, or equally many with less penalty. -/
def Better (a b : Standing) : Prop := b.solved < a.solved ∨ a.solved = b.solved ∧ a.penalty < b.penalty

instance (a b : Standing) : Decidable (Better a b) := inferInstanceAs (Decidable (_ ∨ _))

def packed (offset : ℤ) (a : Standing) : ℤ := a.solved * offset - a.penalty

/-- The penalties do not outweigh the solved problems when `a` is compared with `b`. -/
def Separated (offset : ℤ) (a b : Standing) : Prop :=
  a.solved = b.solved ∨
    (b.solved < a.solved ∧ a.penalty - b.penalty < (a.solved - b.solved) * offset) ∨
    (a.solved < b.solved ∧ b.penalty - a.penalty ≤ (b.solved - a.solved) * offset)

instance (offset : ℤ) (a b : Standing) : Decidable (Separated offset a b) :=
  inferInstanceAs (Decidable (_ ∨ _))

/-- The packed numbers compare as the standings do exactly for separated standings. -/
theorem packed_lt_iff_better (offset : ℤ) (a b : Standing) :
    (b.packed offset < a.packed offset ↔ a.Better b) ↔ Separated offset a b := by
  simp only [packed, Better, Separated, sub_mul]
  rcases lt_trichotomy a.solved b.solved with fewer | same | more
  · simp only [iff_false, fewer, fewer.ne, fewer.not_gt, true_and, false_and, false_or, not_lt]
    constructor <;> intro _ <;> linarith
  · simp only [same, true_and, true_or, lt_self_iff_false, false_or, iff_true]
    constructor <;> intro _ <;> linarith
  · simp only [more, more.ne', more.not_gt, true_and, iff_true, false_and, or_false, false_or]
    constructor <;> intro _ <;> linarith

/-- Contestants listed by descending packed number are listed in ICPC order. -/
theorem pairwise_not_better {α : Type*} {offset : ℤ} {f : α → Standing} {ranking : List α}
    (sorted : ranking.Pairwise fun a b => (f b).packed offset ≤ (f a).packed offset)
    (separated : ∀ a ∈ ranking, ∀ b ∈ ranking, Separated offset (f a) (f b)) :
    ranking.Pairwise fun a b => ¬ (f b).Better (f a) := by
  apply sorted.imp_of_mem
  intro a b ha hb ordered better
  have larger := ((packed_lt_iff_better offset (f b) (f a)).mpr (separated b hb a ha)).mpr better
  omega

end Standing

end Icpc
