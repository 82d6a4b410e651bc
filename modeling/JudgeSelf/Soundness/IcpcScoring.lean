import JudgeSelf.Model.Leaderboard.Scoring
import Mathlib.Order.Bounds.Basic

/-! # `computeUserScores` against the ICPC rules

The rules in their own terms: a problem counts from the least time of an AC, and adds twenty
minutes for each wrong attempt at an earlier time, or at the same time and ahead of the first AC of
that time in the list as it is stored. The source sorts each list and stops at the first AC.
-/

namespace JudgeSelf.LeaderboardService

/-- Some submission of the list is accepted. -/
def Solved (submissions : List ProblemProblemState) : Prop := ∃ sub ∈ submissions, sub.status = "AC"

instance (submissions : List ProblemProblemState) : Decidable (Solved submissions) :=
  inferInstanceAs (Decidable (∃ sub ∈ submissions, _))

/-- The times of the accepted submissions. -/
def acTimes (submissions : List ProblemProblemState) : Set ℤ :=
  {t | ∃ sub ∈ submissions, sub.status = "AC" ∧ sub.relativeSubmittedAt = t}

/-- The wrong attempts that count for a problem solved at `t`, by time and place in the list. -/
def wrongAttempts (t : ℤ) (submissions : List ProblemProblemState) : ℕ :=
  submissions.zipIdx.countP fun (sub, i) => decide (sub.status ∈ ["WA", "TLE", "MLE", "RE"]) &&
    (decide (sub.relativeSubmittedAt < t) || decide (sub.relativeSubmittedAt = t) &&
      decide (i < submissions.findIdx fun other =>
        decide (other.status = "AC") && decide (other.relativeSubmittedAt = t)))

private theorem wrongAttempts_eq (t : ℤ) (submissions : List ProblemProblemState) :
    wrongAttempts t submissions = rejectedBefore t submissions :=
  (@Icpc.rejectedBefore_eq_countP_zipIdx _ _ _ ProblemProblemState.accepted ProblemProblemState.rejected
    ProblemProblemState.relativeSubmittedAt t submissions).symm

theorem acceptedAt_eq_some_iff_isLeast {submissions : List ProblemProblemState} {t : ℤ} :
    acceptedAt submissions = some t ↔ IsLeast (acTimes submissions) t := by
  rw [Icpc.acceptedAt_eq_some_iff]
  simp only [ProblemProblemState.accepted, decide_eq_true_eq]
  refine and_congr_right fun _ => ⟨?_, ?_⟩
  · rintro least _ ⟨sub, member, accepted, rfl⟩
    exact least sub member accepted
  · intro least sub member accepted
    exact least ⟨sub, member, accepted, rfl⟩

private theorem acceptedAt_isSome_iff {submissions : List ProblemProblemState} :
    (acceptedAt submissions).isSome ↔ Solved submissions := by
  rw [← not_iff_not, Bool.not_eq_true, Option.isSome_eq_false_iff, Option.isNone_iff_eq_none,
    Icpc.acceptedAt_eq_none_iff]
  simp [ProblemProblemState.accepted, Solved]

private theorem exists_acceptedAt {submissions : List ProblemProblemState} (solved : Solved submissions) :
    ∃ t, acceptedAt submissions = some t :=
  Option.isSome_iff_exists.mp (acceptedAt_isSome_iff.mpr solved)

/-- An unsolved problem adds nothing to the penalty. -/
theorem sum_problemPenalty (entries : List (String × List ProblemProblemState)) :
    (entries.map fun entry => problemPenalty entry.2).sum =
      ((entries.filter fun entry => Solved entry.2).map fun entry => problemPenalty entry.2).sum := by
  induction entries with
  | nil => rfl
  | cons entry rest ih =>
    by_cases solved : Solved entry.2
    · rw [List.filter_cons_of_pos (by simpa using solved), List.map_cons, List.map_cons, List.sum_cons,
        List.sum_cons, ih]
    · have unsolved : acceptedAt entry.2 = none := by
        rw [← Option.isNone_iff_eq_none, ← Option.isSome_eq_false_iff, ← Bool.not_eq_true,
          acceptedAt_isSome_iff]
        exact solved
      rw [List.filter_cons_of_neg (by simpa using solved), List.map_cons, List.sum_cons, ih, problemPenalty,
        Icpc.problemPenalty_of_unsolved unsolved, Int.zero_add]

private theorem keys_foldl (entries : List (String × List ProblemProblemState)) (state : ScoreState)
    (distinct : (state.details.keys ++ entries.map Prod.fst).Nodup) :
    (entries.foldl scoreProblem state).details.keys = state.details.keys ++ entries.map Prod.fst := by
  induction entries generalizing state with
  | nil => rw [List.foldl_nil, List.map_nil, List.append_nil]
  | cons entry rest ih =>
    have fresh : entry.1 ∉ state.details.keys := fun old =>
      (List.nodup_append.mp distinct).2.2 _ old _ List.mem_cons_self rfl
    have keys : (scoreProblem state entry).details.keys = state.details.keys ++ [entry.1] :=
      Record.keys_set_of_notMem fresh _
    have same : state.details.keys ++ (entry :: rest).map Prod.fst =
        (scoreProblem state entry).details.keys ++ rest.map Prod.fst := by
      rw [keys, List.map_cons, List.append_assoc, List.singleton_append]
    rw [List.foldl_cons, same, ih _ (same ▸ distinct)]

/-- The entries of `details` are those of `problems`, in their order. -/
theorem computeUserScores_details_keys (metadata : UserContestMetadata) :
    (computeUserScores metadata).details.keys = metadata.problems.keys :=
  keys_foldl metadata.problems.entries ⟨0, 0, Record.empty⟩ metadata.problems.nodup

/-- `computeUserScores` is ICPC scoring: the solved problems are counted, each adds the least time
`t` of its ACs and 1200 for each of its wrong attempts ahead of the first AC at `t`, and the details
have one entry for each problem, with its submissions sorted by time. -/
theorem computeUserScores_is_icpc (metadata : UserContestMetadata) :
    let score := computeUserScores metadata
    let solved := metadata.problems.entries.filter fun entry => Solved entry.2
    score.solved = solved.length ∧
    (∃ t : List ProblemProblemState → ℤ, (∀ entry ∈ solved, IsLeast (acTimes entry.2) (t entry.2)) ∧
      score.penalty = (solved.map fun entry => t entry.2 + 1200 * wrongAttempts (t entry.2) entry.2).sum) ∧
    score.details.keys = metadata.problems.keys ∧
    ∀ problemId submissions, metadata.problems.get? problemId = some submissions →
      ∃ detail, score.details.get? problemId = some detail ∧ detail.submissions.Perm submissions ∧
        detail.submissions.Pairwise fun a b => a.relativeSubmittedAt ≤ b.relativeSubmittedAt := by
  refine ⟨?_, ⟨fun submissions => (acceptedAt submissions).getD 0, ?_, ?_⟩,
    computeUserScores_details_keys metadata, ?_⟩
  · rw [computeUserScores_solved, ← List.countP_eq_length_filter]
    simp only [standing, Icpc.standing, List.countP_map]
    apply List.countP_congr
    intro entry _
    simp [acceptedAt_isSome_iff]
  · intro entry member
    obtain ⟨t, first⟩ := exists_acceptedAt (of_decide_eq_true (List.mem_filter.mp member).2)
    change IsLeast _ ((acceptedAt entry.2).getD 0)
    rw [first, Option.getD_some]
    exact acceptedAt_eq_some_iff_isLeast.mp first
  · rw [computeUserScores_penalty]
    simp only [standing, Icpc.standing, List.map_map, Function.comp_def]
    rw [sum_problemPenalty]
    refine congrArg List.sum (List.map_congr_left fun entry member => ?_)
    obtain ⟨t, first⟩ := exists_acceptedAt (of_decide_eq_true (List.mem_filter.mp member).2)
    rw [problemPenalty_of_solved first, first, Option.getD_some, wrongAttempts_eq, mul_comm]
  · intro problemId submissions found
    refine ⟨problemDetail submissions, by rw [computeUserScores_details, found, Option.map_some], ?_, ?_⟩
    · exact List.sortByKey_perm _ _
    · exact List.pairwise_sortByKey _ _

end JudgeSelf.LeaderboardService
