import JudgeSelf.Model.Leaderboard.Redis

/-! # The tables that the leaderboard service reads and writes

Model of the columns of `init.sql` that the queries of the leaderboard service use. Timestamps are
microseconds. Ids are their text; the service writes the integer id of a submission as a decimal
string. A query without a full order returns its rows in the order of the table, which no theorem
fixes. The foreign keys make the contest of a problem exist.
-/

namespace JudgeSelf.LeaderboardService

structure Contest where
  id : String
  startTime : ℤ
  endTime : ℤ
  leaderboardFrozen : Bool
deriving DecidableEq, Repr

structure Problem where
  id : String
  contestId : String
deriving DecidableEq, Repr

structure Submission where
  id : ℕ
  problemId : String
  userId : String
  type : String
  status : String
  createdAt : ℤ
deriving DecidableEq, Repr

/-- A row of `contest_results`. -/
structure ContestResult where
  contestId : String
  userId : String
  rank : ℕ
  score : ℤ
  problemsSolved : ℕ
  penalty : ℤ
  problemDetails : Record String ProblemDetail
deriving DecidableEq

/-- The tables, with the primary keys of the joined ones. -/
structure Database where
  contests : List Contest
  problems : List Problem
  submissions : List Submission
  contestResults : List ContestResult
  problemIds : (problems.map Problem.id).Nodup := by decide
  submissionIds : (submissions.map Submission.id).Nodup := by decide
deriving DecidableEq

/-- A row of the two submission queries. -/
structure SubmissionRow where
  id : ℕ
  userId : String
  problemId : String
  status : String
  submittedAt : ℤ
deriving DecidableEq, Repr

/-- Quotient by a positive number, to the nearest integer, halves away from zero. -/
def roundQuotient (a : ℤ) (b : ℕ) : ℤ := a.sign * ((2 * a.natAbs + b) / (2 * b) : ℕ)

/-- `EXTRACT(EPOCH FROM (created_at - start_time))::INTEGER`, in whole seconds. -/
def epochSeconds (startTime createdAt : ℤ) : ℤ := roundQuotient (createdAt - startTime) 1000000

example : epochSeconds 0 1500000 = 2 ∧ epochSeconds 0 1499999 = 1 ∧ epochSeconds 2500000 0 = -3 := by decide

namespace Database

def contest? (db : Database) (contestId : String) : Option Contest :=
  db.contests.find? fun contest => contest.id = contestId

/-- The problem of a submission belongs to the contest. -/
def InContest (db : Database) (contestId : String) (sub : Submission) : Prop :=
  ∃ problem ∈ db.problems, problem.id = sub.problemId ∧ problem.contestId = contestId

instance (db : Database) (contestId : String) (sub : Submission) : Decidable (db.InContest contestId sub) :=
  inferInstanceAs (Decidable (∃ problem ∈ db.problems, _))

def submissionRow (db : Database) (contestId : String) (sub : Submission) : SubmissionRow where
  id := sub.id
  userId := sub.userId
  problemId := sub.problemId
  status := sub.status
  submittedAt := epochSeconds (((db.contest? contestId).map Contest.startTime).getD 0) sub.createdAt

/-- The rows behind the query for one user. -/
def ratedOf (db : Database) (contestId userId : String) : List Submission :=
  db.submissions.filter fun sub => db.InContest contestId sub ∧ sub.userId = userId ∧ sub.type = "RATED"

/-- The RATED submissions of a contest, joined with `problems`, by ascending `created_at`. -/
def ratedSubmissions (db : Database) (contestId : String) : List SubmissionRow :=
  ((db.submissions.filter fun sub => db.InContest contestId sub ∧ sub.type = "RATED").sortByKey
    Submission.createdAt).map (db.submissionRow contestId)

/-- The same query for one user. -/
def ratedSubmissionsOf (db : Database) (contestId userId : String) : List SubmissionRow :=
  ((db.ratedOf contestId userId).sortByKey Submission.createdAt).map (db.submissionRow contestId)

def deleteContestResults (db : Database) (contestId : String) : Database :=
  { db with contestResults := db.contestResults.filter fun result => result.contestId ≠ contestId }

def insertContestResult (db : Database) (result : ContestResult) : Database :=
  { db with contestResults := db.contestResults ++ [result] }

def setLeaderboardFrozen (db : Database) (contestId : String) : Database :=
  { db with contests := db.contests.map fun contest =>
      if contest.id = contestId then { contest with leaderboardFrozen := true } else contest }

/-- The results of a contest, in the order of the table. -/
def resultsOf (db : Database) (contestId : String) : List ContestResult :=
  db.contestResults.filter fun result => result.contestId = contestId

end Database

/-- The message that the recalculation makes of a row. -/
def SubmissionRow.verdict (sub : SubmissionRow) (contestId userId : String) : QueueMessage where
  submissionId := toString sub.id
  contestId := contestId
  userId := userId
  problemId := sub.problemId
  status := sub.status
  relativeSubmittedAt := sub.submittedAt

namespace Database

variable {db : Database} {c u : String}

theorem mem_ratedOf {sub : Submission} : sub ∈ db.ratedOf c u ↔
    sub ∈ db.submissions ∧ db.InContest c sub ∧ sub.userId = u ∧ sub.type = "RATED" := by
  simp [ratedOf]

theorem mem_ratedSubmissionsOf {row : SubmissionRow} :
    row ∈ db.ratedSubmissionsOf c u ↔ ∃ sub ∈ db.ratedOf c u, db.submissionRow c sub = row := by
  simp [ratedSubmissionsOf]

/-- A row of the user exists exactly when the query for the user returns one. -/
theorem ratedSubmissionsOf_eq_nil_iff : db.ratedSubmissionsOf c u = [] ↔ db.ratedOf c u = [] := by
  rw [ratedSubmissionsOf, List.map_eq_nil_iff, ← List.length_eq_zero_iff,
    (List.sortByKey_perm _ _).length_eq, List.length_eq_zero_iff]

/-- A row is known by its id. -/
theorem eq_of_id_eq {sub other : Submission} (member : sub ∈ db.submissions) (present : other ∈ db.submissions)
    (same : sub.id = other.id) : sub = other :=
  List.inj_on_of_nodup_map db.submissionIds member present same

/-- The contest of a submission is that of its problem. -/
theorem InContest.eq {sub : Submission} (within : db.InContest c sub) {problem : Problem}
    (member : problem ∈ db.problems) (same : problem.id = sub.problemId) : c = problem.contestId := by
  obtain ⟨other, present, id, rfl⟩ := within
  rw [List.inj_on_of_nodup_map db.problemIds present member (id.trans same.symm)]

end Database

end JudgeSelf.LeaderboardService
