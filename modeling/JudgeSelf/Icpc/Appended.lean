import JudgeSelf.Icpc.Standing
import Mathlib.Tactic.Ring

/-! # One more attempt on a problem

An attempt is recorded behind the attempts there are, whatever its time. The first acceptance moves
at most to an earlier time, and a rejected attempt counts once or not at all. So an attempt that is
not accepted makes the penalty at most worse, by one toll, and an acceptance ahead of the first one
never makes it worse.
-/

namespace Icpc

variable {α β : Type*} [LinearOrder β] {accepted rejected : α → Bool} {attempts : List α} {a : α}

section Times

variable {time : α → β} {t t' : β}

theorem acceptedAt_concat_of_unaccepted (unaccepted : accepted a = false) :
    acceptedAt accepted time (attempts ++ [a]) = acceptedAt accepted time attempts := by
  rw [acceptedAt_insert unaccepted, List.append_nil]

/-- A solved problem stays solved. -/
theorem isSome_acceptedAt_concat (solved : (acceptedAt accepted time attempts).isSome) :
    (acceptedAt accepted time (attempts ++ [a])).isSome := by
  by_contra unsolved
  rw [Bool.not_eq_true, Option.isSome_eq_false_iff, Option.isNone_iff_eq_none, acceptedAt_eq_none_iff] at unsolved
  have none : acceptedAt accepted time attempts = none :=
    acceptedAt_eq_none_iff.mpr fun b member => unsolved b (List.mem_append_left _ member)
  rw [none] at solved
  contradiction

/-- An attempt that is not ahead of the first acceptance leaves it. -/
theorem acceptedAt_concat_of_le (first : acceptedAt accepted time attempts = some t) (behind : t ≤ time a) :
    acceptedAt accepted time (attempts ++ [a]) = some t := by
  obtain ⟨⟨b, member, holds, at_⟩, least⟩ := acceptedAt_eq_some_iff.mp first
  refine acceptedAt_eq_some_iff.mpr ⟨⟨b, List.mem_append_left _ member, holds, at_⟩, ?_⟩
  intro c present accepted
  rcases List.mem_append.mp present with before | new
  · exact least c before accepted
  · exact (List.mem_singleton.mp new) ▸ behind

/-- An acceptance ahead of the first one is the new first one. -/
theorem acceptedAt_concat_of_lt (holds : accepted a) (first : acceptedAt accepted time attempts = some t)
    (ahead : time a < t) : acceptedAt accepted time (attempts ++ [a]) = some (time a) := by
  refine acceptedAt_eq_some_iff.mpr ⟨⟨a, by simp, holds, rfl⟩, ?_⟩
  intro c present accepted
  rcases List.mem_append.mp present with before | new
  · exact ahead.le.trans ((acceptedAt_eq_some_iff.mp first).2 c before accepted)
  · rw [List.mem_singleton.mp new]

/-- An attempt that is not ahead of the first acceptance is not counted. -/
theorem rejectedBefore_concat_of_le (first : acceptedAt accepted time attempts = some t) (behind : t ≤ time a) :
    rejectedBefore accepted rejected time t (attempts ++ [a]) =
      rejectedBefore accepted rejected time t attempts := by
  rcases behind.eq_or_lt with same | later
  · obtain ⟨⟨b, member, holds, at_⟩, _⟩ := acceptedAt_eq_some_iff.mp first
    exact rejectedBefore_concat same.symm ⟨b, member, at_, holds⟩
  · simp [rejectedBefore, later.not_gt, later.ne']

theorem rejectedBefore_concat_of_lt (holds : rejected a) (unaccepted : accepted a = false) (ahead : time a < t) :
    rejectedBefore accepted rejected time t (attempts ++ [a]) =
      rejectedBefore accepted rejected time t attempts + 1 := by
  rw [rejectedBefore_insert holds unaccepted (.inl ahead), List.append_nil]

theorem rejectedBefore_concat_of_neither (unrejected : rejected a = false) (unaccepted : accepted a = false) :
    rejectedBefore accepted rejected time t (attempts ++ [a]) =
      rejectedBefore accepted rejected time t attempts := by
  rw [rejectedBefore_insert_of_neither unrejected unaccepted, List.append_nil]

private theorem countP_lt_add_countP_eq_le (earlier : t' < t) :
    (attempts.countP fun b => rejected b && decide (time b < t')) +
        (attempts.countP fun b => rejected b && decide (time b = t')) ≤
      attempts.countP fun b => rejected b && decide (time b < t) := by
  induction attempts with
  | nil => exact le_rfl
  | cons b rest ih =>
    simp only [List.countP_cons, Bool.and_eq_true, decide_eq_true_eq]
    rcases lt_trichotomy (time b) t' with below | same | above
    · have inside := below.trans earlier
      simp only [below, below.ne, inside, and_true, and_false, ↓reduceIte]
      omega
    · simp only [same, lt_irrefl, earlier, and_true, and_false, ↓reduceIte]
      omega
    · simp only [above.not_gt, above.ne', and_false, ↓reduceIte]
      omega

/-- Fewer attempts are ahead of an earlier time. -/
theorem rejectedBefore_le_of_lt (earlier : t' < t) :
    rejectedBefore accepted rejected time t' attempts ≤ rejectedBefore accepted rejected time t attempts := by
  have tied : ((attempts.filter fun b => time b = t').takeWhile fun b => !accepted b).countP rejected ≤
      attempts.countP fun b => rejected b && decide (time b = t') := by
    rw [← List.countP_filter]
    exact (List.takeWhile_sublist _).countP_le
  have apart := @countP_lt_add_countP_eq_le _ _ _ rejected attempts time _ _ earlier
  rw [rejectedBefore, rejectedBefore]
  omega

end Times

section Penalty

variable {time : α → ℤ} {t toll : ℤ}

/-- An attempt that is not accepted costs nothing or one toll. -/
theorem problemPenalty_concat_of_unaccepted (unaccepted : accepted a = false) :
    problemPenalty accepted rejected time toll (attempts ++ [a]) =
        problemPenalty accepted rejected time toll attempts ∨
      problemPenalty accepted rejected time toll (attempts ++ [a]) =
        problemPenalty accepted rejected time toll attempts + toll := by
  have same := @acceptedAt_concat_of_unaccepted _ _ _ accepted attempts a time unaccepted
  cases first : acceptedAt accepted time attempts with
  | none =>
    rw [first] at same
    exact .inl (by rw [problemPenalty_of_unsolved same, problemPenalty_of_unsolved first])
  | some t =>
    rw [first] at same
    rw [problemPenalty_of_solved same, problemPenalty_of_solved first]
    cases counts : rejected a with
    | false => exact .inl (by rw [rejectedBefore_concat_of_neither counts unaccepted])
    | true =>
      rcases lt_or_ge (time a) t with ahead | behind
      · right
        rw [rejectedBefore_concat_of_lt counts unaccepted ahead]
        push_cast
        ring
      · exact .inl (by rw [rejectedBefore_concat_of_le first behind])

/-- An attempt that is not ahead of the first acceptance costs nothing. -/
theorem problemPenalty_concat_of_le (first : acceptedAt accepted time attempts = some t) (behind : t ≤ time a) :
    problemPenalty accepted rejected time toll (attempts ++ [a]) =
      problemPenalty accepted rejected time toll attempts := by
  rw [problemPenalty_of_solved (acceptedAt_concat_of_le first behind), problemPenalty_of_solved first,
    rejectedBefore_concat_of_le first behind]

/-- An acceptance ahead of the first one costs no more than that did. -/
theorem problemPenalty_concat_le (nonneg : 0 ≤ toll) (holds : accepted a) (unrejected : rejected a = false)
    (first : acceptedAt accepted time attempts = some t) (ahead : time a < t) :
    problemPenalty accepted rejected time toll (attempts ++ [a]) ≤
      problemPenalty accepted rejected time toll attempts := by
  have uncounted : rejectedBefore accepted rejected time (time a) (attempts ++ [a]) ≤
      rejectedBefore accepted rejected time t attempts := by
    refine (rejectedBefore_le_of_lt ahead).trans (le_of_eq ?_)
    simp [rejectedBefore, unrejected, ahead.ne]
  rw [problemPenalty_of_solved (acceptedAt_concat_of_lt holds first ahead), problemPenalty_of_solved first]
  exact add_le_add ahead.le (mul_le_mul_of_nonneg_right (by exact_mod_cast uncounted) nonneg)

end Penalty

end Icpc
