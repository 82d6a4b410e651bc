import Mathlib.Data.List.Basic

/-! # Steps that touch one key

Each message belongs to one key, and its step changes what is read at this key from what was read
there, leaving the readings at all other keys. A run then reads at a key what the run over the
messages of that key alone reads there (`Keyed.read_foldl_filter`).
-/

namespace Machine

variable {σ α κ β : Type*} [DecidableEq κ]

/-- `step` changes the reading at the key of its message by `change`, and no other reading. -/
def Keyed (step : σ → α → σ) (key : α → κ) (read : σ → κ → β) (change : β → α → β) : Prop :=
  ∀ s a k, read (step s a) k = if key a = k then change (read s k) a else read s k

namespace Keyed

variable {step : σ → α → σ} {key : α → κ} {read : σ → κ → β} {change : β → α → β}

/-- A run changes the reading at a key by its own messages, in order. -/
theorem read_foldl (keyed : Keyed step key read change) (s : σ) (run : List α) (k : κ) :
    read (run.foldl step s) k = (run.filter fun a => key a = k).foldl change (read s k) := by
  induction run generalizing s with
  | nil => rfl
  | cons a run ih =>
    rw [List.foldl_cons, ih, keyed]
    by_cases own : key a = k
    · rw [if_pos own, List.filter_cons_of_pos (by simpa using own), List.foldl_cons]
    · rw [if_neg own, List.filter_cons_of_neg (by simpa using own)]

/-- The messages of other keys can be left out of a run. -/
theorem read_foldl_filter (keyed : Keyed step key read change) (s : σ) (run : List α) (k : κ) :
    read (run.foldl step s) k = read ((run.filter fun a => key a = k).foldl step s) k := by
  rw [keyed.read_foldl, keyed.read_foldl, List.filter_filter]
  simp only [Bool.and_self]

end Keyed

end Machine
