import JudgeSelf.Model.Leaderboard.Freeze
import JudgeSelf.Model.Leaderboard.Recorded

/-! # What the freeze aggregates

The aggregation loop records the rows of a user as if they were verdicts, so that the entry of a
user is that of the rows with the user's id, in the order of the query. Every user with a row has
exactly one result, and it is computed from that entry.
-/

namespace JudgeSelf.LeaderboardService

/-- The rows of a user as the verdicts that the loop records. -/
def verdictsOf (contestId userId : String) (rows : List SubmissionRow) : List QueueMessage :=
  (rows.filter fun row => row.userId = userId).map fun row => row.verdict contestId userId

/-- The rows that the inserts of a freeze write for the rows of its query. -/
def freezeResults (contestId : String) (rows : List SubmissionRow) : List ContestResult :=
  (freezeStandings contestId rows).zipIdx.map fun (entry, i) => entry.result contestId i

theorem frozenResults_eq (contestId : String) (database : Database) :
    frozenResults contestId database = freezeResults contestId (database.ratedSubmissions contestId) := rfl

variable {c u : String} {rows : List SubmissionRow}

theorem mem_verdictsOf {verdict : QueueMessage} :
    verdict ∈ verdictsOf c u rows ↔ ∃ row ∈ rows, row.userId = u ∧ row.verdict c u = verdict := by
  simp [verdictsOf, and_assoc]

private theorem verdictsOf_concat (row : SubmissionRow) : verdictsOf c u (rows ++ [row]) =
    verdictsOf c u rows ++ if row.userId = u then [row.verdict c u] else [] := by
  by_cases mine : row.userId = u <;> simp [verdictsOf, mine]

/-- The aggregated entry of a user is that of the user's rows. -/
theorem aggregate_get? (c u : String) (rows : List SubmissionRow) : (aggregate c rows).get? u =
    if verdictsOf c u rows = [] then none else some (.ofVerdicts (verdictsOf c u rows)) := by
  induction rows using List.reverseRecOn with
  | nil => rfl
  | append_singleton rows row ih =>
    rw [aggregate, List.foldl_concat, ← aggregate, aggregateRow, Record.get?_set, verdictsOf_concat]
    by_cases mine : u = row.userId
    · subst mine
      have entry : ((aggregate c rows).get? row.userId).getD .initial =
          .ofVerdicts (verdictsOf c row.userId rows) := by
        rw [ih]
        split
        · next none => rw [none]; rfl
        · rfl
      rw [if_pos rfl, if_pos rfl, entry, if_neg (by simp), UserContestMetadata.ofVerdicts_concat]
    · rw [if_neg mine, if_neg (Ne.symm mine), List.append_nil, ih]

theorem mem_freezeStandings {entry : StandingEntry} : entry ∈ freezeStandings c rows ↔
    verdictsOf c entry.userId rows ≠ [] ∧
      entry.scoreData = computeUserScores (.ofVerdicts (verdictsOf c entry.userId rows)) := by
  rw [freezeStandings, List.mem_sortByKey, List.mem_map]
  constructor
  · rintro ⟨⟨userId, metadata⟩, member, rfl⟩
    have found := Record.get?_eq_some_iff.mpr member
    rw [aggregate_get?] at found
    split at found
    · contradiction
    · next some => exact ⟨some, congrArg computeUserScores (Option.some.inj found).symm⟩
  · rintro ⟨some, computed⟩
    have found := aggregate_get? c entry.userId rows
    rw [if_neg some] at found
    exact ⟨_, Record.get?_eq_some_iff.mp found, congrArg (StandingEntry.mk entry.userId) computed.symm⟩

/-- A result of the freeze is computed from the entry of its user. -/
theorem of_mem_freezeResults {result : ContestResult} (member : result ∈ freezeResults c rows) :
    result.contestId = c ∧ verdictsOf c result.userId rows ≠ [] ∧
      let scoreData := computeUserScores (.ofVerdicts (verdictsOf c result.userId rows))
      result.score = scoreData.score ∧ result.problemDetails = scoreData.details := by
  obtain ⟨⟨entry, i⟩, present, rfl⟩ := List.mem_map.mp member
  obtain ⟨some, computed⟩ := mem_freezeStandings.mp (List.fst_mem_of_mem_zipIdx present)
  exact ⟨rfl, some, congrArg UserScore.score computed, congrArg UserScore.details computed⟩

/-- Every user with a row has a result. -/
theorem exists_mem_freezeResults (some : verdictsOf c u rows ≠ []) :
    ∃ result ∈ freezeResults c rows, result.userId = u := by
  let entry : StandingEntry := ⟨u, computeUserScores (.ofVerdicts (verdictsOf c u rows))⟩
  have member : entry ∈ freezeStandings c rows := mem_freezeStandings.mpr ⟨some, rfl⟩
  obtain ⟨i, bound, at_⟩ := List.mem_iff_getElem.mp member
  have indexed : (entry, i) ∈ (freezeStandings c rows).zipIdx := by
    rw [List.mem_zipIdx_iff_getElem?, List.getElem?_eq_getElem bound, at_]
  exact ⟨_, List.mem_map_of_mem indexed, rfl⟩

/-- The recorded submissions of a problem detail are the rows of the problem. -/
theorem mem_details_ofVerdicts {verdicts : List QueueMessage} {problemId : String} {sub : ProblemProblemState} :
    (∃ detail, (computeUserScores (.ofVerdicts verdicts)).details.get? problemId = some detail ∧
        sub ∈ detail.submissions) ↔
      ∃ verdict ∈ verdicts, verdict.problemId = problemId ∧ verdict.state = sub := by
  have recorded : sub ∈ statesOn verdicts problemId ↔
      ∃ verdict ∈ verdicts, verdict.problemId = problemId ∧ verdict.state = sub := by
    simp [statesOn, and_assoc]
  rw [computeUserScores_details, UserContestMetadata.ofVerdicts_get?, ← recorded]
  by_cases none : statesOn verdicts problemId = []
  · simp [none]
  · simp [none, problemDetail_eq, List.mem_sortByKey]

end JudgeSelf.LeaderboardService
