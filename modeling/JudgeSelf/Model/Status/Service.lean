import JudgeSelf.Machine.Run
import JudgeSelf.Model.Polygon.Js
import JudgeSelf.Model.Status.Repository

/-! # Status pages

Model of `getSubmissions`, `getSubmissionsForProblem` and `addStatusFromRedis` in `status.service.ts`, and of the
handlers in `controller.ts`. The two queries of a page may see different states of the database. A request is
a machine: replies of the database and of Redis arrive in turns of the event loop, and what awaits a promise
that is settled goes on before the next turn. Redis executes a command and changes its hash at any time. The ids
of a lookup are numbers: a client may refuse such a command, as `redis` does, or write them as text.
-/

namespace JudgeSelf.StatusService

structure StatusPage where
  submissions : List SubmissionRow
  currentPage : ℤ
  totalPages : ℕ
  totalSubmissions : ℕ
deriving DecidableEq, Repr

section Services

variable (order : Order) (db counted : Database) (page : ℤ) (limit : ℕ)

/-- The queries of `getSubmissions`. -/
def fetchSubmissions (contestId userId : Option String) : Except Sql.QueryError (List SubmissionRow × ℕ) := do
  let dbSubs ← getSubmissionsFromDB order db contestId userId page (some limit)
  let totalCount ← getSubmissionsCount counted contestId userId
  pure (dbSubs, totalCount)

/-- The queries of `getSubmissionsForProblem`. -/
def fetchSubmissionsForProblem (problemId : String) (userId : Option String) :
    Except Sql.QueryError (List SubmissionRow × ℕ) := do
  let dbSubs ← getProblemSubmissionsFromDB order db problemId userId page (some limit)
  let totalCount ← getProblemSubmissionsCount counted problemId userId
  pure (dbSubs, totalCount)

/-- The page that both services return; a limit is at least 1. -/
def statusPage (dbSubs : List SubmissionRow) (totalCount : ℕ) : StatusPage where
  submissions := dbSubs
  currentPage := page
  totalPages := List.pageCount totalCount limit
  totalSubmissions := totalCount

/-- The page as it is when the promise is resolved. -/
def getSubmissions (contestId userId : Option String) : Except Sql.QueryError StatusPage := do
  let (dbSubs, totalCount) ← fetchSubmissions order db counted page limit contestId userId
  pure (statusPage page limit dbSubs totalCount)

def getSubmissionsForProblem (problemId : String) (userId : Option String) : Except Sql.QueryError StatusPage := do
  let (dbSubs, totalCount) ← fetchSubmissionsForProblem order db counted page limit problemId userId
  pure (statusPage page limit dbSubs totalCount)

end Services

/-- The content of `active_submissions`. -/
abbrev Active := String → Option String

def queuedSubs (submissions : List SubmissionRow) : List ℤ :=
  (submissions.filter (·.status = "QUEUE")).map SubmissionRow.submissionId

/-- The reply to an `hmGet` whose ids the client has written as text. -/
def hmGet (active : Active) (queued : List ℤ) : List (Option String) := queued.map fun sub => active (toString sub)

/-- The first row with the id gets the status. -/
def setStatus (submissionId : ℤ) (status : String) : List SubmissionRow → List SubmissionRow
  | [] => []
  | row :: rows =>
    if row.submissionId = submissionId then { row with status } :: rows else row :: setStatus submissionId status rows

/-- `addStatusFromRedis` behind its `hmGet`; a null and an empty text are skipped. -/
def showStatuses (queued : List ℤ) (redisStatus : List (Option String)) (submissions : List SubmissionRow) :
    List SubmissionRow :=
  queued.zipIdx.foldl (fun submissions (sub, index) =>
    match given (redisStatus.getD index none) with
    | some status => setStatus sub status submissions
    | none => submissions) submissions

inductive Request
  | getStatusPage (page contestId userId : Option String)
  | getProblemStatusPage (page : Option String) (problemId : String) (userId : Option String)
deriving DecidableEq, Repr

/-- `parseInt(req.params.page) || 1`. -/
def pageNumber (page : Option String) : ℤ :=
  match page.bind Js.parseInt with
  | none | some 0 => 1
  | some n => n

def limit : ℕ := 30

namespace Request

def page : Request → ℤ
  | .getStatusPage page _ _ | .getProblemStatusPage page _ _ => pageNumber page

def fetch (order : Order) (db counted : Database) : Request → Except Sql.QueryError (List SubmissionRow × ℕ)
  | .getStatusPage page contestId userId =>
    fetchSubmissions order db counted (pageNumber page) limit contestId userId
  | .getProblemStatusPage page problemId userId =>
    fetchSubmissionsForProblem order db counted (pageNumber page) limit problemId userId

end Request

inductive Response
  /-- The body is a copy of the page. -/
  | json (page : StatusPage)
  | error (status : ℕ) (message : String)
deriving DecidableEq, Repr

/-- Where the handler is. -/
inductive Stage
  | querying
  /-- The promise of the service is settled. -/
  | settled (result : Except Sql.QueryError Unit)
  | responded (response : Response)

/-- Where the `hmGet` of `addStatusFromRedis` is. -/
inductive Lookup
  | none
  | sent (queued : List ℤ)
  | executed (queued : List ℤ) (active : Active)
  | replied (active : Active)
  /-- The client refuses the ids, or the reply is lost. -/
  | rejected (active : Active)

/-- The content of the hash when the command is executed, or when it is refused. -/
def Lookup.content : Lookup → Option Active
  | .none | .sent _ => .none
  | .executed _ active | .replied active | .rejected active => some active

structure StatusRequest where
  active : Active
  /-- The page object, which `addStatusFromRedis` changes. -/
  page : Option StatusPage
  lookup : Lookup
  stage : Stage

inductive Event
  | setActive (active : Active)
  /-- The queries are answered. -/
  | queries (order : Order) (db counted : Database)
  | respond
  | execute
  | reply
  | reject

namespace StatusRequest

def start (active : Active) : StatusRequest := ⟨active, none, .none, .querying⟩

/-- Both services from their replies on, with `addStatusFromRedis` up to its `hmGet`. -/
def resolve (request : Request) (s : StatusRequest) (dbSubs : List SubmissionRow) (totalCount : ℕ) : StatusRequest :=
  { s with
    page := some (statusPage request.page limit dbSubs totalCount)
    lookup := if queuedSubs dbSubs = [] then .none else .sent (queuedSubs dbSubs)
    stage := .settled (.ok ()) }

def step (request : Request) (s : StatusRequest) : Event → Option StatusRequest
  | .setActive active => some { s with active }
  | .queries order db counted =>
    match s.stage with
    | .querying =>
      match request.fetch order db counted with
      | .ok (dbSubs, totalCount) => some (s.resolve request dbSubs totalCount)
      | .error error => some { s with stage := .settled (.error error) }
    | _ => none
  | .respond =>
    match s.stage, s.page with
    | .settled (.ok ()), some page => some { s with stage := .responded (.json page) }
    | .settled (.error _), _ => some { s with stage := .responded (.error 500 "Internal Server Error") }
    | _, _ => none
  | .execute =>
    match s.lookup with
    | .sent queued => some { s with lookup := .executed queued s.active }
    | _ => none
  | .reply =>
    -- The turn comes when nothing awaits a settled promise any more.
    match s.stage, s.lookup with
    | .responded _, .executed queued active =>
      some { s with
        page := s.page.map fun page =>
          { page with submissions := showStatuses queued (hmGet active queued) page.submissions }
        lookup := .replied active }
    | _, _ => none
  | .reject =>
    match s.lookup with
    | .sent _ => some { s with lookup := .rejected s.active }
    | .executed _ active => some { s with lookup := .rejected active }
    | _ => none

end StatusRequest

end JudgeSelf.StatusService
