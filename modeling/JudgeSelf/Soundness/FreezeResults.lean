import JudgeSelf.Model.Leaderboard.Aggregated

/-! # The standings that a freeze writes

The aggregation is a fold over the rows of all users and problems in the order of the query. It
leaves one entry for each user who has a row, and the arrays of the entry are the user's own rows,
problem by problem. The standings list these entries by score, and the inserts number them.
-/

namespace JudgeSelf.LeaderboardService

/-- The element that the loop pushes for a row. -/
def SubmissionRow.state (row : SubmissionRow) : ProblemProblemState :=
  ⟨toString row.id, row.submittedAt, row.status⟩

/-- The rows of a user on a problem, in order. -/
def rowsOn (rows : List SubmissionRow) (userId problemId : String) : List ProblemProblemState :=
  (rows.filter fun row => row.userId = userId ∧ row.problemId = problemId).map SubmissionRow.state

/-- The entry holds the rows of the user and no others, grouped by problem and in their order. -/
def UserContestMetadata.Groups (metadata : UserContestMetadata) (rows : List SubmissionRow) (userId : String) : Prop :=
  ∀ problemId, metadata.problems.get? problemId =
    if rowsOn rows userId problemId = [] then none else some (rowsOn rows userId problemId)

/-- The scores of a result are those of the entry. -/
structure ContestResult.ScoredBy (result : ContestResult) (metadata : UserContestMetadata) : Prop where
  score : result.score = (computeUserScores metadata).score
  problemsSolved : result.problemsSolved = (computeUserScores metadata).solved
  penalty : result.penalty = (computeUserScores metadata).penalty
  problemDetails : result.problemDetails = (computeUserScores metadata).details

/-- The results of a contest are the standings of the rows. -/
structure StandingsOf (rows : List SubmissionRow) (results : List ContestResult) : Prop where
  once : (results.map ContestResult.userId).Nodup
  users : ∀ userId, (∃ result ∈ results, result.userId = userId) ↔ ∃ row ∈ rows, row.userId = userId
  scores : ∀ result ∈ results, ∃ metadata : UserContestMetadata, metadata.Groups rows result.userId ∧
    result.ScoredBy metadata
  ranks : results.map ContestResult.rank = List.range' 1 results.length
  ordered : ∀ a ∈ results, ∀ b ∈ results, a.rank < b.rank → b.score ≤ a.score

variable {c u : String} {rows : List SubmissionRow}

private theorem statesOn_verdictsOf (c u : String) (rows : List SubmissionRow) (problemId : String) :
    statesOn (verdictsOf c u rows) problemId = rowsOn rows u problemId := by
  rw [statesOn, verdictsOf, rowsOn, List.filter_map, List.map_map, List.filter_filter]
  refine congrArg₂ List.map rfl (List.filter_congr fun row _ => ?_)
  simp only [Function.comp_apply, SubmissionRow.verdict, Bool.decide_and, Bool.and_comm]

/-- The recorded verdicts of a user are the user's rows, grouped by problem. -/
theorem groups_ofVerdicts (c u : String) (rows : List SubmissionRow) :
    (UserContestMetadata.ofVerdicts (verdictsOf c u rows)).Groups rows u := by
  intro problemId
  rw [UserContestMetadata.ofVerdicts_get?, statesOn_verdictsOf]

private theorem verdictsOf_ne_nil_iff : verdictsOf c u rows ≠ [] ↔ ∃ row ∈ rows, row.userId = u := by
  rw [ne_eq, verdictsOf, List.map_eq_nil_iff, List.filter_eq_nil_iff]
  simp

private theorem map_userId_freezeResults (c : String) (rows : List SubmissionRow) :
    (freezeResults c rows).map ContestResult.userId = (freezeStandings c rows).map StandingEntry.userId := by
  rw [freezeResults, List.map_map]
  conv_rhs => rw [← List.zipIdx_map_fst 0 (freezeStandings c rows), List.map_map]
  rfl

/-- Each user is in the standings once. -/
theorem nodup_freezeResults (c : String) (rows : List SubmissionRow) :
    ((freezeResults c rows).map ContestResult.userId).Nodup := by
  have users : ((freezeStandings c rows).map StandingEntry.userId).Perm ((aggregate c rows).entries.map Prod.fst) := by
    rw [freezeStandings]
    refine ((List.sortByKey_perm _ _).map _).trans ?_
    rw [List.map_map]
    rfl
  rw [map_userId_freezeResults, users.nodup_iff]
  exact (aggregate c rows).nodup

private theorem map_rank_freezeResults (c : String) (rows : List SubmissionRow) :
    (freezeResults c rows).map ContestResult.rank = List.range' 1 (freezeResults c rows).length := by
  have numbered : (freezeResults c rows).map ContestResult.rank =
      (((freezeStandings c rows).zipIdx.map Prod.snd).map (1 + ·)) := by
    rw [freezeResults, List.map_map, List.map_map]
    exact List.map_congr_left fun _ _ => Nat.add_comm _ _
  rw [numbered, List.zipIdx_map_snd, List.map_add_range', freezeResults, List.length_map, List.length_zipIdx]

/-- The results are inserted by descending score. -/
theorem pairwise_score_freezeResults (c : String) (rows : List SubmissionRow) :
    (freezeResults c rows).Pairwise fun a b => a.rank < b.rank ∧ b.score ≤ a.score := by
  have positions : ((freezeStandings c rows).zipIdx.map Prod.snd).Pairwise (· < ·) := by
    rw [List.zipIdx_map_snd]
    exact List.pairwise_lt_range'
  have scores : ((freezeStandings c rows).zipIdx.map Prod.fst).Pairwise fun a b =>
      -a.scoreData.score ≤ -b.scoreData.score := by
    rw [List.zipIdx_map_fst]
    exact List.pairwise_sortByKey _ _
  rw [freezeResults, List.pairwise_map]
  apply ((List.pairwise_map.mp positions).and (List.pairwise_map.mp scores)).imp
  rintro a b ⟨earlier, larger⟩
  exact ⟨Nat.succ_lt_succ earlier, neg_le_neg_iff.mp larger⟩

/-- What a freeze inserts is the standings of its rows. -/
theorem standingsOf_freezeResults (c : String) (rows : List SubmissionRow) :
    StandingsOf rows (freezeResults c rows) where
  once := nodup_freezeResults c rows
  users userId := by
    rw [← verdictsOf_ne_nil_iff]
    constructor
    · rintro ⟨result, member, rfl⟩
      exact (of_mem_freezeResults member).2.1
    · exact exists_mem_freezeResults
  scores result member := by
    obtain ⟨⟨entry, i⟩, present, rfl⟩ := List.mem_map.mp member
    obtain ⟨_, computed⟩ := mem_freezeStandings.mp (List.fst_mem_of_mem_zipIdx present)
    refine ⟨_, groups_ofVerdicts c entry.userId rows, ?_⟩
    exact ⟨congrArg UserScore.score computed, congrArg UserScore.solved computed,
      congrArg UserScore.penalty computed, congrArg UserScore.details computed⟩
  ranks := map_rank_freezeResults c rows
  ordered a memberA b memberB earlier := by
    have sorted := pairwise_score_freezeResults c rows
    rcases List.mem_iff_getElem.mp memberA with ⟨i, boundA, rfl⟩
    rcases List.mem_iff_getElem.mp memberB with ⟨j, boundB, rfl⟩
    rcases lt_trichotomy i j with before | same | after
    · exact (List.pairwise_iff_getElem.mp sorted i j boundA boundB before).2
    · subst same
      exact le_rfl
    · have larger := (List.pairwise_iff_getElem.mp sorted j i boundB boundA after).1
      exact absurd earlier larger.not_gt

/-- A freeze that returns has replaced the results of the contest by the standings of its RATED
submissions, and left the results of all other contests. -/
theorem freeze_writes_standings {fault : Option FreezeQuery} {c : String} {stores final : Stores}
    (freeze : executeContestHardFreeze fault c stores = (.ok (), final)) :
    StandingsOf (stores.database.ratedSubmissions c) (final.database.resultsOf c) ∧
      ∀ other, other ≠ c → final.database.resultsOf other = stores.database.resultsOf other := by
  obtain rfl := executeContestHardFreeze_eq_ok freeze
  refine ⟨?_, fun other differs => ?_⟩
  · rw [resultsOf_frozenDatabase, frozenResults_eq]
    exact standingsOf_freezeResults c _
  · have mine : ∀ result ∈ frozenResults c stores.database, ¬ (decide (result.contestId = other)) = true := by
      intro result member same
      exact differs ((of_decide_eq_true same).symm.trans (of_mem_freezeResults member).1)
    rw [Database.resultsOf, Database.resultsOf, frozenDatabase, List.filter_append,
      List.filter_eq_nil_iff.mpr mine, List.append_nil, Database.deleteContestResults, List.filter_filter]
    refine List.filter_congr fun result _ => ?_
    by_cases same : result.contestId = other
    · simp [same, differs]
    · simp [same]

/-- A finished contest with the submissions of two users in turn, and a row of another contest. -/
def twoUsers : Stores where
  redis := Redis.empty
  database :=
    { contests := [⟨"4", 0, 3600000000, false⟩]
      problems := [⟨"p", "4"⟩, ⟨"q", "4"⟩]
      submissions := [⟨11, "p", "u", "RATED", "WA", 60000000⟩, ⟨12, "p", "v", "RATED", "AC", 90000000⟩,
        ⟨13, "p", "u", "RATED", "AC", 120000000⟩, ⟨14, "q", "v", "RATED", "AC", 180000000⟩]
      contestResults := [⟨"5", "w", 1, 0, 0, 0, Record.empty⟩] }

theorem twoUsers_standings :
    StandingsOf (twoUsers.database.ratedSubmissions "4")
        ((executeContestHardFreeze none "4" twoUsers).2.database.resultsOf "4") ∧
      (executeContestHardFreeze none "4" twoUsers).2.database.resultsOf "5" =
        [⟨"5", "w", 1, 0, 0, 0, Record.empty⟩] := by
  have returns : executeContestHardFreeze none "4" twoUsers =
      (.ok (), (executeContestHardFreeze none "4" twoUsers).2) := Prod.ext (by decide +kernel) rfl
  obtain ⟨standings, others⟩ := freeze_writes_standings returns
  exact ⟨standings, others "5" (by decide)⟩

example : ((executeContestHardFreeze none "4" twoUsers).2.database.resultsOf "4").map
    (fun result => (result.userId, result.rank, result.score)) = [("v", 1, 19999730), ("u", 2, 9998680)] := by
  decide +kernel

end JudgeSelf.LeaderboardService
