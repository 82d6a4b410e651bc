import JudgeSelf.Machine.Run
import JudgeSelf.Model.Leaderboard.Aggregated
import JudgeSelf.Model.Leaderboard.Handlers
import JudgeSelf.Model.Submission.Submit

/-! # The freeze sweep next to late submissions

Requests to `HandleSubmit`, the status updates of the engine and the runs of
`checkForFinishedContests`, over one clock. A step is one reading of the clock or one statement. The
timer starts a sweep whether or not the last one has returned, and so does every instance of the
service. The transaction of a freeze reads the submissions once and publishes at its commit; any of
its statements may throw, which ends the sweep. The clock is in nanoseconds.
-/

namespace JudgeSelf.LeaderboardService

open SubmissionService (ContestData PublishOutcome publishSubmission)

/-- The clock as the database reads it, in microseconds. -/
def databaseTime (now : ℤ) : ℤ := now / 1000

/-- What `GetProblemData` reads of a contest. -/
def Contest.contestInfo (contest : Contest) : ContestData :=
  ⟨contest.id, contest.startTime * 1000, contest.endTime * 1000⟩

/-- Where a request is in `HandleSubmit`. -/
inductive Request
  /-- The clock test against the start is next. -/
  | loaded (userId problemId : String) (contestInfo : ContestData)
  /-- The clock test against the end is next; `first` is the first reading. -/
  | timed (userId problemId : String) (contestInfo : ContestData) (first : ℤ)
  /-- The insertion is next. -/
  | classified (userId problemId type : String)
  /-- The message is being published; `taken` when the broker has it. -/
  | inserted (id : ℕ) (taken : Bool)
deriving DecidableEq

/-- Where a run of `checkForFinishedContests` is; `rest` holds the contests after the current one. -/
inductive Sweep
  | counting (contestId : String) (rest : List String)
  | selecting (contestId : String) (rest : List String)
  /-- The submissions are read; the other statements up to the commit are next. -/
  | writing (contestId : String) (rows : List SubmissionRow) (rest : List String)
deriving DecidableEq

/-- The next round of the loop, if there is one. -/
def Sweep.next : List String → List Sweep
  | [] => []
  | contestId :: rest => [.counting contestId rest]

namespace Database

/-- The contests of the first query. -/
def finishedContests (db : Database) (now : ℤ) : List String :=
  (db.contests.filter fun contest => !contest.leaderboardFrozen ∧ contest.endTime < databaseTime now).map Contest.id

def hasPendingSubmissions (db : Database) (contestId : String) : Bool :=
  0 < db.submissions.countP fun sub => db.InContest contestId sub ∧ sub.status = "QUEUE"

/-- The transaction of a freeze whose query has returned `rows`. -/
def commitFreeze (db : Database) (contestId : String) (rows : List SubmissionRow) : Database :=
  { db.setLeaderboardFrozen contestId with
    contestResults := (db.deleteContestResults contestId).contestResults ++ freezeResults contestId rows }

def deleteSubmission (db : Database) (id : ℕ) : Database :=
  { db with
    submissions := db.submissions.filter fun sub => sub.id ≠ id
    submissionIds := db.submissionIds.sublist (List.filter_sublist.map _) }

end Database

/-- `issued` holds the ids given out, `queued` the submissions whose message the broker has taken. -/
structure ContestSystem where
  now : ℤ
  database : Database
  issued : List ℕ
  requests : List Request
  queued : List ℕ
  sweeps : List Sweep

inductive ContestEvent
  | tick (elapsed : ℕ)
  | load (userId problemId : String)
  | readStart (userId problemId : String) (contestInfo : ContestData)
  | readEnd (userId problemId : String) (contestInfo : ContestData) (first : ℤ)
  | insert (userId problemId type : String) (id : ℕ)
  | take (id : ℕ)
  | conclude (id : ℕ) (outcome : PublishOutcome) (deleteError : Option String)
  /-- `UpdateSubmission`, with any final status and any number of times. -/
  | update (id : ℕ) (status : String)
  | sweep
  | count (contestId : String) (rest : List String)
  | select (contestId : String) (rest : List String)
  /-- The commit; `unlinked` tells whether the command on Redis after it succeeds. -/
  | write (contestId : String) (rows : List SubmissionRow) (rest : List String) (unlinked : Bool)
  | fail (sweep : Sweep)

/-- The type that the two tests of the clock give a request. -/
def submissionType (first second : ℤ) (contestInfo : ContestData) : String :=
  if first < contestInfo.startTime ∨ contestInfo.endTime < second then "PRACTICE" else "RATED"

namespace ContestSystem

/-- A request goes on to its next stage, or is answered. -/
def moveRequest (s : ContestSystem) (request : Request) (next : List Request) : ContestSystem :=
  { s with requests := next ++ s.requests.erase request }

def moveSweep (s : ContestSystem) (sweep : Sweep) (next : List Sweep) : ContestSystem :=
  { s with sweeps := next ++ s.sweeps.erase sweep }

/-- The row of an insertion. -/
def newRow (s : ContestSystem) (userId problemId type : String) (id : ℕ) : Submission :=
  ⟨id, problemId, userId, type, "QUEUE", databaseTime s.now⟩

/-- After `PublishSubmission`: a failed publish deletes the row, if the deletion succeeds. -/
def concludeRequest (db : Database) (id : ℕ) (outcome : PublishOutcome) (deleteError : Option String) : Database :=
  match publishSubmission outcome, deleteError with
  | .failed _, none => db.deleteSubmission id
  | _, _ => db

def step (s : ContestSystem) : ContestEvent → Option ContestSystem
  | .tick elapsed => some { s with now := s.now + elapsed }
  | .load userId problemId => do
    let problem ← s.database.problems.find? fun problem => problem.id = problemId
    let contest ← s.database.contest? problem.contestId
    some { s with requests := .loaded userId problemId contest.contestInfo :: s.requests }
  | .readStart userId problemId contestInfo =>
    let request := .loaded userId problemId contestInfo
    if request ∈ s.requests then some (s.moveRequest request [.timed userId problemId contestInfo s.now])
    else none
  | .readEnd userId problemId contestInfo first =>
    let request := .timed userId problemId contestInfo first
    if request ∈ s.requests then
      some (s.moveRequest request [.classified userId problemId (submissionType first s.now contestInfo)])
    else none
  | .insert userId problemId type id =>
    let request := .classified userId problemId type
    let row := s.newRow userId problemId type id
    if fresh : row.id ∉ s.database.submissions.map Submission.id then
      if request ∈ s.requests ∧ id ∉ s.issued then
        some { s.moveRequest request [.inserted id false] with
          database := s.database.insertSubmission row fresh, issued := id :: s.issued }
      else none
    else none
  | .take id =>
    let request := .inserted id false
    if request ∈ s.requests then
      some { s.moveRequest request [.inserted id true] with queued := id :: s.queued }
    else none
  | .conclude id outcome deleteError =>
    let request := .inserted id outcome.taken
    if request ∈ s.requests then
      some { s.moveRequest request [] with database := concludeRequest s.database id outcome deleteError }
    else none
  | .update id status =>
    if id ∈ s.queued ∧ status ≠ "QUEUE" then some { s with database := s.database.updateStatus id status }
    else none
  | .sweep => some { s with sweeps := Sweep.next (s.database.finishedContests s.now) ++ s.sweeps }
  | .count contestId rest =>
    let sweep := .counting contestId rest
    if sweep ∈ s.sweeps then
      some (s.moveSweep sweep
        (if s.database.hasPendingSubmissions contestId then Sweep.next rest else [.selecting contestId rest]))
    else none
  | .select contestId rest =>
    let sweep := .selecting contestId rest
    if sweep ∈ s.sweeps then
      some (s.moveSweep sweep [.writing contestId (s.database.ratedSubmissions contestId) rest])
    else none
  | .write contestId rows rest unlinked =>
    let sweep := .writing contestId rows rest
    if sweep ∈ s.sweeps then
      some { s.moveSweep sweep (if unlinked then Sweep.next rest else []) with
        database := s.database.commitFreeze contestId rows }
    else none
  | .fail sweep => if sweep ∈ s.sweeps then some (s.moveSweep sweep []) else none

end ContestSystem

/-- The loop of a sweep, with the statement of each freeze that throws. A throw ends the loop. -/
def sweepContests (fault : String → Option FreezeQuery) : List String → Stores → Stores
  | [], stores => stores
  | contestId :: rest, stores =>
    if stores.database.hasPendingSubmissions contestId then sweepContests fault rest stores
    else
      match executeContestHardFreeze (fault contestId) contestId stores with
      | (.ok (), stores) => sweepContests fault rest stores
      | (.error _, stores) => stores

def checkForFinishedContests (fault : String → Option FreezeQuery) (now : ℤ) (stores : Stores) : Stores :=
  sweepContests fault (stores.database.finishedContests now) stores

/-- What may throw in a round of the loop. -/
inductive SweepFault
  /-- The query of `hasPendingSubmissions`. -/
  | pendingQuery
  /-- The connection for the transaction. -/
  | connect
  | freeze (query : FreezeQuery)
deriving DecidableEq

def SweepFault.freezeQuery : SweepFault → Option FreezeQuery
  | .freeze query => some query
  | _ => none

/-- A round of the loop, with what throws in it. -/
def sweepRound (fault : Option SweepFault) (contestId : String) (stores : Stores) :
    Except SweepFault Unit × Stores :=
  if fault = some .pendingQuery then (.error .pendingQuery, stores)
  else if stores.database.hasPendingSubmissions contestId then (.ok (), stores)
  else if fault = some .connect then (.error .connect, stores)
  else
    match executeContestHardFreeze (fault.bind SweepFault.freezeQuery) contestId stores with
    | (.ok (), stores) => (.ok (), stores)
    | (.error query, stores) => (.error (.freeze query), stores)

/-- The loop over the rows of the first query. Nothing in it catches. -/
def sweepRounds (fault : String → Option SweepFault) : List String → Stores → Except SweepFault Unit × Stores
  | [], stores => (.ok (), stores)
  | contestId :: rest, stores =>
    match sweepRound (fault contestId) contestId stores with
    | (.ok (), stores) => sweepRounds fault rest stores
    | (.error thrown, stores) => (.error thrown, stores)

/-- Freezes alone that throw. -/
theorem sweepRounds_freeze (fault : String → Option FreezeQuery) (contests : List String) (stores : Stores) :
    (sweepRounds (fun c => (fault c).map .freeze) contests stores).2 = sweepContests fault contests stores := by
  induction contests generalizing stores with
  | nil => rfl
  | cons c rest ih =>
    have query : ((fault c).map SweepFault.freeze).bind SweepFault.freezeQuery = fault c := by
      cases fault c <;> rfl
    have freezes (other : SweepFault) (apart : other.freezeQuery = none) :
        (fault c).map SweepFault.freeze ≠ some other := by
      cases fault c with
      | none => simp
      | some query => rintro same; obtain rfl := Option.some_inj.mp same; cases apart
    rw [sweepRounds, sweepRound, if_neg (freezes _ rfl), if_neg (freezes _ rfl), query, sweepContests]
    by_cases pending : stores.database.hasPendingSubmissions c
    · rw [if_pos pending, if_pos pending]
      exact ih stores
    · rw [if_neg pending, if_neg pending]
      rcases executeContestHardFreeze (fault c) c stores with ⟨reply, after⟩
      cases reply with
      | ok => exact ih after
      | error => rfl

end JudgeSelf.LeaderboardService
