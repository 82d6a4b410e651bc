import JudgeSelf.Model.Engine.Logged
import JudgeSelf.Model.Leaderboard.Recorded

/-! # The statuses that the engine publishes and scoring reads

The engine writes a status for every way in which a program can fail, and scoring reads it against
a list of its own. A failed test costs twenty minutes exactly when its status is on that list, which
leaves out nonzero exit codes and the four signals that the engine names.
-/

namespace JudgeSelf.Engine

open LeaderboardService

/-- The message of a job whose database update succeeds. -/
def publishedMessage (env : Environment) (job : Job) (w : World) : Option QueueMessage :=
  (postExecute (fun _ => none) job (executeWorker env job w).1).bind PostExecution.published

/-- The user's program failed the test of the run. -/
def IsolateRun.UserFailed (run : IsolateRun) : Prop :=
  match run.purpose with
  | .compile => False
  | .userCode _ => userCodeStatus run.metadata ∉ ["AC", "INT"]
  | .checker _ => checkerStatus run.metadata = "WA"

/-- The user's program exited with a code other than zero, or by one of the named signals. -/
def IsolateRun.EndsUnlisted (run : IsolateRun) : Prop :=
  match run.purpose, run.metadata with
  | .userCode _, some metadata =>
    metadata.status = "RE" ∨ metadata.status = "SG" ∧ metadata.exitSig ∈ ([11, 25, 8, 6] : List ℤ)
  | _, _ => False

/-- Of the statuses of a failed program, the list of scoring has those for the time limit and for a
signal without a name. -/
theorem formatIsolateMetadata_listed_iff {metadata : IsolateMetadata}
    (failed : (formatIsolateMetadata metadata false).1 ∉ ["AC", "INT"]) :
    (formatIsolateMetadata metadata false).1 ∈ wrongStatuses ↔
      ¬ (metadata.status = "RE" ∨ metadata.status = "SG" ∧ metadata.exitSig ∈ ([11, 25, 8, 6] : List ℤ)) := by
  simp only [formatIsolateMetadata, Bool.false_eq_true, ↓reduceIte] at failed ⊢
  split_ifs at failed ⊢ with timeout signal segv fsize fpe abort nonzero internal
  · simp [timeout, wrongStatuses]
  · simp [signal, segv, wrongStatuses]
  · simp [signal, fsize, wrongStatuses]
  · simp [signal, fpe, wrongStatuses]
  · simp [signal, abort, wrongStatuses]
  · simp [signal, segv, fsize, fpe, abort, wrongStatuses]
  · simp [nonzero, wrongStatuses]
  · exact (failed (by decide)).elim
  · exact (failed (by decide)).elim

/-- The reported status of a failed test is on the list of scoring unless the run ends unlisted. -/
theorem IsolateRun.Reports.listed_iff {run : IsolateRun} {status : String} (reports : run.Reports status)
    (failed : run.UserFailed) : status ∈ wrongStatuses ↔ ¬ run.EndsUnlisted := by
  rcases run with ⟨purpose, error, metadata⟩
  cases purpose with
  | compile => exact failed.elim
  | userCode test =>
    cases metadata with
    | none => exact (failed (by simp [userCodeStatus])).elim
    | some metadata =>
      rw [show status = _ from reports]
      exact formatIsolateMetadata_listed_iff failed
  | checker test =>
    rw [show status = _ from reports, show checkerStatus metadata = _ from failed]
    exact ⟨fun _ unlisted => unlisted, fun _ => by decide⟩

theorem IsolateRun.UserFailed.not_accepted {run : IsolateRun} {status : String} (failed : run.UserFailed)
    (reports : run.Reports status) : status ≠ "AC" := by
  rcases run with ⟨purpose, error, metadata⟩
  cases purpose with
  | compile => exact failed.elim
  | userCode test =>
    rw [show status = _ from reports]
    exact fun accepted => failed (accepted ▸ List.mem_cons_self)
  | checker test =>
    rw [show status = _ from reports, show checkerStatus metadata = _ from failed]
    decide

/-- A RATED job publishes the status of its last result. -/
theorem publishedMessage_of_rated {env : Environment} {job : Job} {w : World} {last : Models.Result}
    (rated : job.submissionData.type = "RATED") (ending : (executeWorker env job w).1.getLast? = some last) :
    publishedMessage env job w = some
      { submissionId := job.submissionData.submissionId
        contestId := job.problemData.contestId
        userId := job.submissionData.userId
        problemId := job.problemData.problemId
        status := last.status
        relativeSubmittedAt := job.submissionData.relativeSubmissionTime } := by
  simp only [publishedMessage, postExecute, Job.verdict, ending, Option.map_some, Option.bind_some, rated,
    ↓reduceIte]

/-- One entry has a submission more than the other, ahead of the first AC of its problem. -/
def RecordedAhead (metadata recorded : UserContestMetadata) (problemId : String) (sub : ProblemProblemState) :
    Prop :=
  ∃ front back t, metadata.problems.get? problemId = some (front ++ back) ∧
    recorded.problems = metadata.problems.set problemId (front ++ sub :: back) ∧
    acceptedAt (front ++ back) = some t ∧
    (sub.relativeSubmittedAt < t ∨
      sub.relativeSubmittedAt = t ∧ ∀ other ∈ front, other.relativeSubmittedAt = t → other.accepted = false)

/-- The wrong attempts that `computeUserScores` counts for a problem. -/
def wrongAttempts (metadata : UserContestMetadata) (problemId : String) : Option ℕ :=
  ((computeUserScores metadata).details.get? problemId).map ProblemDetail.wrongAttemptsBeforeAC

private theorem wrongAttempts_of_solved {metadata : UserContestMetadata} {problemId : String}
    {submissions : List ProblemProblemState} {t : ℤ} (found : metadata.problems.get? problemId = some submissions)
    (first : acceptedAt submissions = some t) :
    wrongAttempts metadata problemId = some (rejectedBefore t submissions) := by
  rw [wrongAttempts, computeUserScores_details, found, Option.map_some, Option.map_some, problemDetail_eq]
  simp only [first]

/-- A submission ahead of the first AC costs twenty minutes if its status is on the list. -/
theorem RecordedAhead.counts {metadata recorded : UserContestMetadata} {problemId : String}
    {sub : ProblemProblemState} (ahead : RecordedAhead metadata recorded problemId sub)
    (unaccepted : sub.accepted = false) :
    (computeUserScores recorded).penalty =
        (computeUserScores metadata).penalty + (if sub.rejected then 1200 else 0) ∧
      wrongAttempts recorded problemId =
        (wrongAttempts metadata problemId).map (· + if sub.rejected then 1 else 0) := by
  obtain ⟨front, back, t, found, inserted, first, place⟩ := ahead
  have firstAfter : acceptedAt (front ++ sub :: back) = some t := (Icpc.acceptedAt_insert unaccepted).trans first
  have counted : rejectedBefore t (front ++ sub :: back) =
      rejectedBefore t (front ++ back) + if sub.rejected then 1 else 0 := by
    split
    · next counts => exact Icpc.rejectedBefore_insert counts unaccepted place
    · next ignored => exact Icpc.rejectedBefore_insert_of_neither (eq_false_of_ne_true ignored) unaccepted
  have foundAfter : recorded.problems.get? problemId = some (front ++ sub :: back) := by
    rw [inserted, Record.get?_set_self]
  constructor
  · rw [computeUserScores_penalty, computeUserScores_penalty, inserted, penalty_set found,
      problemPenalty_of_solved first, problemPenalty_of_solved firstAfter, counted]
    split <;> push_cast <;> ring
  · rw [wrongAttempts_of_solved foundAfter firstAfter, wrongAttempts_of_solved found first, counted,
      Option.map_some]

/-- A failed test of a RATED job costs one wrong attempt exactly when the program does not exit with a
code other than zero or by a named signal. -/
theorem failed_test_counts_iff {env : Environment} {job : Job} {w : World} {run : IsolateRun}
    (rated : job.submissionData.type = "RATED") (last : (jobRuns env job w).getLast? = some run)
    (failed : run.UserFailed) :
    ∃ message, publishedMessage env job w = some message ∧
      ∀ metadata recorded, RecordedAhead metadata recorded message.problemId message.state →
        ((computeUserScores recorded).penalty = (computeUserScores metadata).penalty + 1200 ∧
            wrongAttempts recorded message.problemId = (wrongAttempts metadata message.problemId).map (· + 1) ↔
          ¬ run.EndsUnlisted) := by
  have ofTest : run.purpose ≠ .compile := by
    intro compile
    rw [IsolateRun.UserFailed, compile] at failed
    exact failed
  obtain ⟨result, ending, reports⟩ := executeWorker_reports last ofTest
  refine ⟨_, publishedMessage_of_rated rated ending, fun metadata recorded ahead => ?_⟩
  have listed := reports.listed_iff failed
  obtain ⟨penalty, attempts⟩ := ahead.counts (decide_eq_false (failed.not_accepted reports))
  rw [penalty, attempts, ← listed]
  by_cases counts : result.status ∈ wrongStatuses
  · simp [QueueMessage.state, ProblemProblemState.rejected, counts]
  · simp [QueueMessage.state, ProblemProblemState.rejected, counts]

/-- A program over the time limit costs twenty minutes. -/
theorem overtime_counts : ∃ message,
    publishedMessage (steadyIsolate "exit status 1" "status:TO\n") pythonJob idleWorker = some message ∧
      ∀ metadata recorded, RecordedAhead metadata recorded message.problemId message.state →
        (computeUserScores recorded).penalty = (computeUserScores metadata).penalty + 1200 ∧
          wrongAttempts recorded message.problemId = (wrongAttempts metadata message.problemId).map (· + 1) := by
  obtain ⟨message, published, counts⟩ := @failed_test_counts_iff (steadyIsolate "exit status 1" "status:TO\n")
    pythonJob idleWorker ⟨.userCode 1, some "exit status 1", some ⟨0, 0, 0, 0, 0, "TO", ""⟩⟩ rfl
    (by decide +kernel) (by change _ ∉ _; decide +kernel)
  exact ⟨message, published, fun metadata recorded ahead => (counts metadata recorded ahead).mpr
    (by change ¬ (_ ∨ _); decide +kernel)⟩

/-- A program that exits with code 1 is published as NZEC and costs nothing. -/
theorem nonzero_exit_is_free :
    publishedMessage (steadyIsolate "exit status 1" "status:RE\nexitcode:1\n") pythonJob idleWorker =
        some ⟨"s", "c", "u", "p", "NZEC", 60⟩ ∧
      (computeUserScores (.ofVerdicts [⟨"s", "c", "u", "p", "NZEC", 60⟩, ⟨"t", "c", "u", "p", "AC", 120⟩])).penalty =
        120 ∧
      (computeUserScores (.ofVerdicts [⟨"t", "c", "u", "p", "AC", 120⟩])).penalty = 120 := by
  decide +kernel

end JudgeSelf.Engine
