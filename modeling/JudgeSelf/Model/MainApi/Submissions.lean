import JudgeSelf.Model.MainApi.Auth
import JudgeSelf.Sql.Join
import JudgeSelf.Sql.Page

/-! # One submission

Model of `getSubmissionById` in `status.controller.ts` and `submission.repository.ts` of the main API, and of the
tables `submissions`, `problems` and `contests` in `init.sql`. Of a row the columns stay that the query reads.
A UUID is kept as its text. A value of the column `results` is what the driver returns, of any type; a missing
one and the JSON `null` are the same.
-/

namespace JudgeSelf.MainApi.Submissions

/-- A `TIMESTAMPTZ`, in microseconds from 1970 on. -/
inductive Timestamp
  | negInfinity
  | micros (n : ℤ)
  | infinity
deriving DecidableEq, Repr

/-- The last time of a `Date`, in milliseconds. -/
def maxTime : ℤ := 8640000000000000

/-- The time of the `Date` that the driver makes of it, where that is not `NaN`. -/
def Timestamp.getTime : Timestamp → Option ℤ
  | .micros n => if n / 1000 ≤ maxTime then some (n / 1000) else none
  | .negInfinity => none
  | .infinity => none

/-- The clock of the server, in microseconds; it shows a time of a `Date`. -/
structure Clock where
  micros : ℤ
  valid : micros / 1000 ≤ maxTime

/-- `Date.now()`. -/
def Clock.now (clock : Clock) : ℤ := clock.micros / 1000

structure Contest where
  id : ℤ
  ownerId : String
  startTime : Timestamp
  endTime : Timestamp
deriving DecidableEq, Repr

structure Problem where
  id : String
  contestId : ℤ
deriving DecidableEq, Repr

structure Submission (R : Type) where
  id : ℤ
  problemId : String
  userId : String
  type : String
  code : String
  language : String
  status : String
  time : Option ℤ
  memory : Option ℤ
  results : Option R
  relativeSubmissionTime : Option ℤ
  createdAt : Timestamp
deriving DecidableEq, Repr

structure Database (R : Type) where
  submissions : List (Submission R)
  problems : List Problem
  contests : List Contest
  submissionIds : (submissions.map Submission.id).Nodup
  problemIds : (problems.map Problem.id).Nodup
  contestIds : (contests.map Contest.id).Nodup
  submitted : ∀ s ∈ submissions, s.problemId ∈ problems.map Problem.id
  posed : ∀ p ∈ problems, p.contestId ∈ contests.map Contest.id

variable {R : Type}

/-- A row of `submissions s JOIN problems p JOIN contests c`. -/
abbrev Joined (R : Type) := (Submission R × Problem) × Contest

def Database.joined (db : Database R) : List (Joined R) :=
  Sql.join (Sql.join db.submissions db.problems Submission.problemId Problem.id) db.contests
    (fun row => row.2.contestId) Contest.id

inductive Column
  | id
deriving DecidableEq, Repr

def joinedTable : Sql.Table Column (Joined R) where
  typeOf
    | .id => .integer
  value row
    | .id => some (.integer row.1.1.id)

/-- `SubmissionData`; the driver returns a `BIGINT` as a text. -/
structure SubmissionData (R : Type) where
  id : ℤ
  problemId : String
  userId : String
  type : String
  code : String
  language : String
  status : String
  time : Option String
  memory : Option String
  results : Option R
  relativeSubmissionTime : Option String
  createdAt : Option ℤ
  contestId : ℤ
  contestOwnerId : String
  contestStartTime : Option ℤ
  contestEndTime : Option ℤ
deriving DecidableEq, Repr

def SubmissionData.ofJoined (row : Joined R) : SubmissionData R where
  id := row.1.1.id
  problemId := row.1.1.problemId
  userId := row.1.1.userId
  type := row.1.1.type
  code := row.1.1.code
  language := row.1.1.language
  status := row.1.1.status
  time := row.1.1.time.map fun n => toString n
  memory := row.1.1.memory.map fun n => toString n
  results := row.1.1.results
  relativeSubmissionTime := row.1.1.relativeSubmissionTime.map fun n => toString n
  createdAt := row.1.1.createdAt.getTime
  contestId := row.1.2.contestId
  contestOwnerId := row.2.ownerId
  contestStartTime := row.2.startTime.getTime
  contestEndTime := row.2.endTime.getTime

def SubmissionRepository.getSubmissionById (db : Database R) (submissionId : String) :
    Except Sql.Error (Option (SubmissionData R)) := do
  let rows ← Sql.select joinedTable [⟨.id, some .integer, submissionId⟩] db.joined
  pure (rows.head?.map .ofJoined)

inductive ReplyBody (R : Type)
  | message (text : String)
  | submission (submission : SubmissionData R)
deriving DecidableEq, Repr

structure Reply (R : Type) where
  status : ℕ
  body : ReplyBody R
deriving DecidableEq, Repr

namespace StatusController

/-- A comparison with `NaN` fails. -/
def contestEnded (clock : Clock) (submission : SubmissionData R) : Bool :=
  submission.contestEndTime.any fun endTime => endTime ≤ clock.now

def showResults (user : Payload) (clock : Clock) (submission : SubmissionData R) : Bool :=
  let isContestOwner : Bool := submission.contestOwnerId = user.id
  let isSubmissionOwner : Bool := submission.userId = user.id
  if submission.status = "INT" then isContestOwner
  else isContestOwner || isSubmissionOwner || contestEnded clock submission

/-- `{ ...submission, results: showResults ? submission.results : null }`. -/
def body (user : Payload) (clock : Clock) (submission : SubmissionData R) : SubmissionData R :=
  { submission with results := if showResults user clock submission then submission.results else none }

/-- `getSubmissionById` behind `authenticate`; a rejected query is answered by `errorHandler`. -/
def getSubmissionById (db : Database R) (user : Payload) (clock : Clock) (submissionId : String) : Reply R :=
  if submissionId = "" then ⟨400, .message "Submission id is required"⟩
  else
    match SubmissionRepository.getSubmissionById db submissionId with
    | .error _ => ⟨500, .message "Internal server error"⟩
    | .ok none => ⟨404, .message "Invalid Submission Id"⟩
    | .ok (some submission) => ⟨200, .submission (body user clock submission)⟩

end StatusController

theorem Database.mem_joined_iff {db : Database R} {row : Joined R} :
    row ∈ db.joined ↔ (row.1.1 ∈ db.submissions ∧ row.1.2 ∈ db.problems ∧ row.1.1.problemId = row.1.2.id) ∧
      row.2 ∈ db.contests ∧ row.1.2.contestId = row.2.id := by
  rw [joined, Sql.mem_join_iff, Sql.mem_join_iff]

/-- Every submission has one problem and one contest. -/
theorem Database.map_fst_joined (db : Database R) : (db.joined.map Prod.fst).map Prod.fst = db.submissions := by
  have posed : ∀ row ∈ Sql.join db.submissions db.problems Submission.problemId Problem.id,
      row.2.contestId ∈ db.contests.map Contest.id := fun row member =>
    db.posed row.2 (Sql.mem_join_iff.mp member).2.1
  rw [joined, Sql.map_fst_join db.contestIds posed, Sql.map_fst_join db.problemIds db.submitted]

theorem Database.nodup_ids_joined (db : Database R) : (db.joined.map fun row => row.1.1.id).Nodup := by
  have ids := db.submissionIds
  rwa [← db.map_fst_joined, List.map_map, List.map_map] at ids

theorem SubmissionRepository.getSubmissionById_eq {db : Database R} {submissionId : String} {n : ℤ}
    (read : Sql.readInteger submissionId = some n) :
    getSubmissionById db submissionId = .ok ((db.joined.find? fun row => row.1.1.id = n).map .ofJoined) := by
  have value : Sql.ColumnType.integer.read submissionId = some (.integer n) := by
    rw [Sql.ColumnType.read, read, Option.map_some]
  rw [getSubmissionById, Sql.select_singleton rfl value]
  simp only [joinedTable, Option.some.injEq, Sql.Value.integer.injEq, ← List.head?_filter]
  rfl

end JudgeSelf.MainApi.Submissions
