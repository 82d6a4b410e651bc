import JudgeSelf.Icpc.Standing
import Mathlib.Data.List.Dedup
import Mathlib.Data.List.Perm.Lattice
import Mathlib.Tactic.Ring

/-! # Two timings of the same attempts

The attempts of one contestant may be recorded twice, in different orders and with different times.
Both records solve the same problems, and their penalties differ by what the first acceptances
drift, with a toll for every rejected attempt that is ahead in one record and not in the other.
-/

namespace Icpc

variable {α β κ : Type*} {accepted rejected : α → Bool} {time late : α → ℤ} {toll : ℤ} {attempts record : List α}

section Map

variable {f : β → α} {l : List β}

theorem acceptedAt_map : acceptedAt accepted time (l.map f) = acceptedAt (accepted ∘ f) (time ∘ f) l := by
  rw [acceptedAt, acceptedAt, List.filter_map, List.map_map]

theorem rejectedBefore_map {t : ℤ} : rejectedBefore accepted rejected time t (l.map f) =
    rejectedBefore (accepted ∘ f) (rejected ∘ f) (time ∘ f) t l := by
  rw [rejectedBefore, rejectedBefore, List.countP_map, List.filter_map, List.takeWhile_map, List.countP_map]
  rfl

theorem problemPenalty_map : problemPenalty accepted rejected time toll (l.map f) =
    problemPenalty (accepted ∘ f) (rejected ∘ f) (time ∘ f) toll l := by
  rw [problemPenalty, problemPenalty, acceptedAt_map]
  simp only [rejectedBefore_map]

theorem standing_map (f : β → α) (problems : List (List β)) :
    standing accepted rejected time toll (problems.map (List.map f)) =
      standing (accepted ∘ f) (rejected ∘ f) (time ∘ f) toll problems := by
  simp only [standing, List.countP_map, List.map_map, Function.comp_def, acceptedAt_map, problemPenalty_map]

end Map

/-- The order of the problems does not matter. -/
theorem standing_perm {problems other : List (List α)} (perm : problems.Perm other) :
    standing accepted rejected time toll problems = standing accepted rejected time toll other := by
  rw [standing, standing, perm.countP_eq, (perm.map _).sum_eq]

theorem isSome_acceptedAt : (acceptedAt accepted time attempts).isSome ↔ ∃ a ∈ attempts, accepted a := by
  rw [Option.isSome_iff_ne_none, ne_eq, acceptedAt_eq_none_iff]
  push Not
  simp

/-- Attempts on the problem `k`. -/
def on [DecidableEq κ] (problem : α → κ) (k : κ) (attempts : List α) : List α :=
  attempts.filter fun a => problem a = k

/-- How much later a problem counts in the second record. -/
def problemDrift (accepted rejected : α → Bool) (time late : α → ℤ) (toll : ℤ) (attempts record : List α) : ℤ :=
  match acceptedAt accepted time attempts, acceptedAt accepted late record with
  | some t, some t' => (t' - t) +
      ((rejectedBefore accepted rejected late t' record : ℤ) - rejectedBefore accepted rejected time t attempts) * toll
  | _, _ => 0

/-- The drift of all problems together. -/
def drift [DecidableEq κ] (accepted rejected : α → Bool) (problem : α → κ) (time late : α → ℤ) (toll : ℤ)
    (attempts record : List α) : ℤ :=
  ((attempts.map problem).dedup.map fun k =>
    problemDrift accepted rejected time late toll (on problem k attempts) (on problem k record)).sum

/-- The drift of a problem is the difference of its penalties. -/
theorem problemDrift_eq (perm : attempts.Perm record) :
    problemDrift accepted rejected time late toll attempts record =
      problemPenalty accepted rejected late toll record - problemPenalty accepted rejected time toll attempts := by
  have same : (acceptedAt accepted time attempts).isSome ↔ (acceptedAt accepted late record).isSome := by
    simp only [isSome_acceptedAt, perm.mem_iff]
  rcases first : acceptedAt accepted time attempts with _ | t
  · have unsolved : acceptedAt accepted late record = none := by simpa [first] using same
    simp [problemDrift, problemPenalty, first, unsolved]
  · obtain ⟨t', second⟩ := Option.isSome_iff_exists.mp (same.mp (by rw [first]; rfl))
    simp only [problemDrift, first, second, problemPenalty]
    ring

variable [DecidableEq κ] {problem : α → κ}

/-- The attempts of a contestant, problem by problem. -/
def problems (problem : α → κ) (attempts : List α) : List (List α) :=
  (attempts.map problem).dedup.map fun k => on problem k attempts

/-- Attempts read off other records count like those records. -/
theorem standing_problems_map (f : β → α) (l : List β) :
    standing accepted rejected time toll (problems problem (l.map f)) =
      standing (accepted ∘ f) (rejected ∘ f) (time ∘ f) toll (problems (problem ∘ f) l) := by
  have arrays : problems problem (l.map f) = (problems (problem ∘ f) l).map (List.map f) := by
    simp only [problems, on, List.map_map, List.filter_map]
    rfl
  rw [arrays, standing_map]

/-- Both records solve the same problems. -/
theorem solved_of_perm (perm : attempts.Perm record) :
    (standing accepted rejected time toll (problems problem attempts)).solved =
      (standing accepted rejected late toll (problems problem record)).solved := by
  simp only [standing, problems, List.countP_map]
  rw [(perm.map problem).dedup.countP_eq]
  apply List.countP_congr
  intro k _
  simp only [Function.comp, isSome_acceptedAt, on, List.mem_filter, perm.mem_iff]

/-- The penalties of two records differ by the drift. -/
theorem penalty_sub_of_perm (perm : attempts.Perm record) :
    (standing accepted rejected late toll (problems problem record)).penalty -
        (standing accepted rejected time toll (problems problem attempts)).penalty =
      drift accepted rejected problem time late toll attempts record := by
  have summed (keys : List κ) :
      (keys.map fun k => problemPenalty accepted rejected late toll (on problem k record)).sum -
          (keys.map fun k => problemPenalty accepted rejected time toll (on problem k attempts)).sum =
        (keys.map fun k =>
          problemDrift accepted rejected time late toll (on problem k attempts) (on problem k record)).sum := by
    induction keys with
    | nil => rfl
    | cons k keys ih =>
      simp only [List.map_cons, List.sum_cons]
      have here : (on problem k attempts).Perm (on problem k record) := perm.filter _
      rw [problemDrift_eq here, ← ih]
      ring
  have keys := ((perm.map problem).dedup.map fun k =>
    problemPenalty accepted rejected late toll (on problem k record)).sum_eq
  simp only [standing, problems, drift, List.map_map]
  exact (congrArg (· - _) keys.symm).trans (summed _)

end Icpc
