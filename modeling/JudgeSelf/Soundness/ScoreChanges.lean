import JudgeSelf.Icpc.Appended
import JudgeSelf.Model.Leaderboard.Recorded
import JudgeSelf.Soundness.IcpcScoring

/-! # What one verdict does to a score

A verdict with a new id is appended to the array of its problem, and the whole entry is scored again.
The stable sort may put it anywhere among the submissions of the problem; the other problems keep
their shares.
-/

namespace JudgeSelf.LeaderboardService

/-- The recorded submissions of a problem. -/
def UserContestMetadata.track (metadata : UserContestMetadata) (problemId : String) : List ProblemProblemState :=
  (metadata.problems.get? problemId).getD []

/-- What a verdict may change of the score of its user; `track` holds the earlier submissions of its problem. -/
structure FairChange (track : List ProblemProblemState) (verdict : QueueMessage) (before after : UserScore) :
    Prop where
  solved : before.solved ≤ after.solved
  wrong : verdict.status ≠ "AC" → after.score = before.score ∨ after.score = before.score - 1200
  behind : ∀ first, IsLeast (acTimes track) first → first ≤ verdict.relativeSubmittedAt →
    after.solved = before.solved ∧ after.penalty = before.penalty ∧ after.score = before.score
  ahead : verdict.status = "AC" → ∀ first, IsLeast (acTimes track) first →
    verdict.relativeSubmittedAt < first → after.penalty ≤ before.penalty
  others : ∀ problemId, problemId ≠ verdict.problemId →
    after.details.get? problemId = before.details.get? problemId

variable {metadata : UserContestMetadata} {verdict : QueueMessage}

/-- The other problems add the same before and after. -/
theorem standing_record (metadata : UserContestMetadata) (verdict : QueueMessage) : ∃ solved penalty,
    standing metadata.problems =
      { solved := (if (acceptedAt (metadata.track verdict.problemId)).isSome then 1 else 0) + solved
        penalty := problemPenalty (metadata.track verdict.problemId) + penalty } ∧
    standing (metadata.record verdict).problems =
      { solved := (if (acceptedAt (metadata.track verdict.problemId ++ [verdict.state])).isSome then 1 else 0) + solved
        penalty := problemPenalty (metadata.track verdict.problemId ++ [verdict.state]) + penalty } :=
  ⟨_, _, standing_eq_others metadata.problems verdict.problemId, standing_set metadata.problems verdict.problemId _⟩

private theorem solved_record_of_isSome
    (same : (acceptedAt (metadata.track verdict.problemId ++ [verdict.state])).isSome =
      (acceptedAt (metadata.track verdict.problemId)).isSome) :
    (computeUserScores (metadata.record verdict)).solved = (computeUserScores metadata).solved := by
  obtain ⟨solved, penalty, before, after⟩ := standing_record metadata verdict
  rw [computeUserScores_solved, computeUserScores_solved, before, after, same]

private theorem solved_le_record (metadata : UserContestMetadata) (verdict : QueueMessage) :
    (computeUserScores metadata).solved ≤ (computeUserScores (metadata.record verdict)).solved := by
  obtain ⟨solved, penalty, before, after⟩ := standing_record metadata verdict
  rw [computeUserScores_solved, computeUserScores_solved, before, after]
  apply Nat.add_le_add_right
  split
  · next solvedBefore => rw [if_pos (Icpc.isSome_acceptedAt_concat solvedBefore)]
  · exact Nat.zero_le _

/-- The penalty changes by as much as the share of the problem. -/
theorem penalty_record (metadata : UserContestMetadata) (verdict : QueueMessage) :
    (computeUserScores (metadata.record verdict)).penalty = (computeUserScores metadata).penalty +
      (problemPenalty (metadata.track verdict.problemId ++ [verdict.state]) -
        problemPenalty (metadata.track verdict.problemId)) := by
  obtain ⟨solved, penalty, before, after⟩ := standing_record metadata verdict
  rw [computeUserScores_penalty, computeUserScores_penalty, before, after]
  ring

private theorem computeUserScores_packed (metadata : UserContestMetadata) : (computeUserScores metadata).score =
    (computeUserScores metadata).solved * penaltyOffset - (computeUserScores metadata).penalty := rfl

/-- A verdict that is recorded changes the score fairly. -/
theorem fairChange_record (metadata : UserContestMetadata) (verdict : QueueMessage) :
    FairChange (metadata.track verdict.problemId) verdict (computeUserScores metadata)
      (computeUserScores (metadata.record verdict)) where
  solved := solved_le_record metadata verdict
  wrong rejected := by
    have unaccepted : verdict.state.accepted = false := decide_eq_false rejected
    have solved := @solved_record_of_isSome metadata verdict (by
      rw [acceptedAt, acceptedAt, Icpc.acceptedAt_concat_of_unaccepted unaccepted])
    rw [computeUserScores_packed, computeUserScores_packed, solved, penalty_record]
    rcases Icpc.problemPenalty_concat_of_unaccepted unaccepted with same | tolled
    · left
      rw [problemPenalty, problemPenalty, same]
      ring
    · right
      rw [problemPenalty, problemPenalty, tolled]
      ring
  behind first least behind := by
    have accepted := acceptedAt_eq_some_iff_isLeast.mpr least
    have solved := @solved_record_of_isSome metadata verdict (by
      rw [acceptedAt, Icpc.acceptedAt_concat_of_le accepted behind, accepted])
    have penalty : (computeUserScores (metadata.record verdict)).penalty = (computeUserScores metadata).penalty := by
      rw [penalty_record, problemPenalty, problemPenalty, Icpc.problemPenalty_concat_of_le accepted behind]
      ring
    exact ⟨solved, penalty, by rw [computeUserScores_packed, computeUserScores_packed, solved, penalty]⟩
  ahead ac first least ahead := by
    have holds : verdict.state.accepted = true := decide_eq_true ac
    have unrejected : verdict.state.rejected = false := by
      by_contra wrong
      rw [ProblemProblemState.not_accepted_of_rejected (Bool.not_eq_false _ ▸ wrong)] at holds
      contradiction
    have share := @Icpc.problemPenalty_concat_le _ _ ProblemProblemState.rejected _ _ _ _ 1200 (by decide) holds
      unrejected (acceptedAt_eq_some_iff_isLeast.mpr least) ahead
    rw [penalty_record]
    linarith
  others problemId other := by
    rw [computeUserScores_details, computeUserScores_details, UserContestMetadata.record, Record.get?_set,
      if_neg other]

/-- Whatever the entry of the user is, a verdict with a new id changes its score fairly, and the new
score is that of the user on the board. -/
theorem score_changes_fairly (redis : Redis) (verdict : QueueMessage)
    (fresh : verdict.submissionId ∉
      ((redis.metadata verdict.contestId verdict.userId).getD .initial).processedSubmissions) :
    let before := (redis.metadata verdict.contestId verdict.userId).getD .initial
    ∃ after, (processLiveVerdict redis verdict).metadata verdict.contestId verdict.userId = some after ∧
      (processLiveVerdict redis verdict).score? verdict.contestId verdict.userId =
        some (computeUserScores after).score ∧
      FairChange (before.track verdict.problemId) verdict (computeUserScores before) (computeUserScores after) := by
  intro before
  have recorded : before.absorb verdict = before.record verdict := if_neg fresh
  refine ⟨before.record verdict, ?_, ?_, fairChange_record before verdict⟩
  · rw [metadata_processLiveVerdict, if_pos ⟨rfl, rfl⟩, ← recorded]
  · rw [score?_processLiveVerdict, if_pos ⟨rfl, rfl⟩, ← recorded]

/-- A wrong attempt of the first minute, that comes in after an AC of the second minute. -/
theorem late_rejection_changes_fairly :
    FairChange [⟨"2", 120, "AC"⟩] ⟨"1", "c", "u", "p", "WA", 60⟩
      (computeUserScores ⟨Record.empty.set "p" [⟨"2", 120, "AC"⟩], ["2"]⟩)
      (computeUserScores ⟨Record.empty.set "p" [⟨"2", 120, "AC"⟩, ⟨"1", 60, "WA"⟩], ["2", "1"]⟩) := by
  have handled := score_changes_fairly (processLiveVerdict Redis.empty ⟨"2", "c", "u", "p", "AC", 120⟩)
    ⟨"1", "c", "u", "p", "WA", 60⟩ (by decide +kernel)
  obtain ⟨after, stored, _, fair⟩ := handled
  obtain rfl := Option.some_inj.mp stored
  exact fair

end JudgeSelf.LeaderboardService
