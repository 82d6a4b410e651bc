import JudgeSelf.Machine.Broker
import Mathlib.Algebra.Group.Int.Defs

/-! # Accepting a submission

Model of `HandleSubmit` with `CreateSubmission`, `DeleteSubmission` and `PublishSubmission`. The
table and the queue are the only stores. The identity column never gives out an id twice. What the
calls of one request come to is given from outside, the clock included (in nanoseconds). A queue
may also hold payloads that did not come from here.
-/

namespace JudgeSelf.SubmissionService

structure ContestData where
  contestId : String
  startTime : ℤ
  endTime : ℤ
deriving DecidableEq, Repr

structure ProblemData where
  problemId : String
  problemVersion : ℤ
  contestInfo : ContestData
deriving DecidableEq, Repr

structure SubmissionRequest where
  problemId : String
  language : String
  code : String
  userId : String
  type : String
  relativeSubmissionTime : ℤ
deriving DecidableEq, Repr

structure QueueMessage where
  submissionId : String
  code : String
  language : String
  problemId : String
  problemVersion : ℤ
  type : String
  userId : String
  relativeSubmissionTime : ℤ
deriving DecidableEq, Repr

/-- A row of the table, up to the columns that only readers of the results use. -/
structure SubmissionRow where
  id : String
  problemId : String
  userId : String
  type : String
  code : String
  language : String
  status : String
  relativeSubmissionTime : ℤ
deriving DecidableEq, Repr

/-- The body of a message in the submissions queue. -/
inductive Payload
  | submission (message : QueueMessage)
  | malformed (body : String)
deriving DecidableEq, Repr

/-- The submissions table with the ids it has given out, and the submissions queue. -/
structure Stores where
  rows : List SubmissionRow
  issued : List String
  broker : Machine.Broker Payload
deriving DecidableEq

namespace Stores

/-- `CreateSubmission`; the status is the default of its column. -/
def createSubmission (stores : Stores) (id : String) (req : SubmissionRequest) : Stores :=
  { stores with
    rows := stores.rows ++
      [⟨id, req.problemId, req.userId, req.type, req.code, req.language, "QUEUE", req.relativeSubmissionTime⟩]
    issued := stores.issued ++ [id] }

def deleteSubmission (stores : Stores) (id : String) : Stores :=
  { stores with rows := stores.rows.filter fun row => row.id ≠ id }

/-- The broker takes a message. -/
def enqueue (stores : Stores) (payload : Payload) : Stores :=
  { stores with broker := stores.broker.publish payload }

end Stores

/-- What publishing comes to; `taken` tells whether the broker has taken the message all the same. -/
inductive PublishOutcome
  | channelClosed
  | publishError (error : String) (taken : Bool)
  | nacked (deliveryTag : ℕ)
  | unconfirmed (error : String) (taken : Bool)
  | confirmed
deriving DecidableEq, Repr

def PublishOutcome.taken : PublishOutcome → Bool
  | channelClosed => false
  | publishError _ taken => taken
  | nacked _ => false
  | unconfirmed _ taken => taken
  | confirmed => true

/-- How `PublishSubmission` ends. -/
inductive Published
  | done
  | failed (error : String)
  | panicked
deriving DecidableEq, Repr

/-- The error of the publish call is not looked at, and waiting on its nil confirmation panics. -/
def publishSubmission : PublishOutcome → Published
  | .channelClosed => .failed "Channel is closed"
  | .publishError _ _ => .panicked
  | .unconfirmed err _ => .failed ("Confirmation wait failed: " ++ err)
  | .nacked deliveryTag => .failed ("Message " ++ toString deliveryTag ++ " was nacked by the broker")
  | .confirmed => .done

/-- The answer to the client; after a panic the server closes the connection without one. -/
inductive Response
  | error (code : ℕ) (text : String)
  | accepted (submissionId : String)
  | aborted
deriving DecidableEq, Repr

inductive ProblemError
  | noRows
  | other (error : String)
deriving DecidableEq, Repr

/-- What the calls of one request come to; `now` gives the readings of the clock in order. -/
structure Calls where
  now : ℕ → ℤ
  problem : Except ProblemError ProblemData
  newId : Except String String
  publish : PublishOutcome
  deleteError : Option String

/-- `Time.Unix`. -/
def unix (time : ℤ) : ℤ := time / 10 ^ 9

/-- The fields of the request that do not come from the client. -/
def classify (now : ℕ → ℤ) (contestInfo : ContestData) (userId : String) (req : SubmissionRequest) :
    SubmissionRequest :=
  if now 0 < contestInfo.startTime ∨ contestInfo.endTime < now 1 then
    { req with userId := userId, type := "PRACTICE", relativeSubmissionTime := -1 }
  else
    { req with
      userId := userId
      type := "RATED"
      relativeSubmissionTime := unix (now 2) - unix contestInfo.startTime }

def queueMessage (id : String) (problemData : ProblemData) (req : SubmissionRequest) : QueueMessage where
  submissionId := id
  problemId := problemData.problemId
  language := req.language
  code := req.code
  problemVersion := problemData.problemVersion
  type := req.type
  userId := req.userId
  relativeSubmissionTime := req.relativeSubmissionTime

/-- `HandleSubmit` up to the publishing of the message; `body` is the decoded body. -/
def beginSubmit (calls : Calls) (userId : String) (body : Option SubmissionRequest) (stores : Stores) :
    Except Response QueueMessage × Stores :=
  match body with
  | none => (.error (.error 400 "Invalid JSON payload"), stores)
  | some req =>
    match calls.problem with
    | .error .noRows => (.error (.error 400 "Invalid Problem ID"), stores)
    | .error (.other _) => (.error (.error 500 "Internal server error"), stores)
    | .ok problemData =>
      let req := classify calls.now problemData.contestInfo userId req
      match calls.newId with
      | .error _ => (.error (.error 500 "Failed to create submission"), stores)
      | .ok subId => (.ok (queueMessage subId problemData req), stores.createSubmission subId req)

/-- `HandleSubmit` from the result of the publishing on. -/
def concludeSubmit (published : Published) (deleteError : Option String) (subId : String) (stores : Stores) :
    Response × Stores :=
  match published with
  | .done => (.accepted subId, stores)
  | .failed _ =>
    (.error 500 "Failed to queue submission",
      match deleteError with
      | none => stores.deleteSubmission subId
      | some _ => stores)
  | .panicked => (.aborted, stores)

def handleSubmit (calls : Calls) (userId : String) (body : Option SubmissionRequest) (stores : Stores) :
    Response × Stores :=
  match beginSubmit calls userId body stores with
  | (.error response, stores) => (response, stores)
  | (.ok message, stores) =>
    let stores := if calls.publish.taken then stores.enqueue (.submission message) else stores
    concludeSubmit (publishSubmission calls.publish) calls.deleteError message.submissionId stores

/-- No row has an id that was not given out. -/
def Stores.Issued (stores : Stores) : Prop := ∀ row ∈ stores.rows, row.id ∈ stores.issued

/-- Deleting a row just created leaves the other rows. -/
theorem Stores.rows_deleteSubmission_createSubmission {stores : Stores} (issued : stores.Issued) {id : String}
    (fresh : id ∉ stores.issued) (req : SubmissionRequest) :
    ((stores.createSubmission id req).deleteSubmission id).rows = stores.rows := by
  have others : ∀ row ∈ stores.rows, (decide (row.id ≠ id)) = true := by
    intro row member
    exact decide_eq_true fun same => fresh (same ▸ issued row member)
  rw [deleteSubmission, createSubmission]
  dsimp only
  rw [List.filter_append, List.filter_eq_self.mpr others, List.filter_cons_of_neg (by simp), List.filter_nil,
    List.append_nil]

/-- A request that is turned down has not reached the table; any other has a row with a new id. -/
theorem beginSubmit_spec (calls : Calls) (userId : String) (body : Option SubmissionRequest) (stores : Stores) :
    match beginSubmit calls userId body stores with
    | (.error _, after) => after = stores
    | (.ok message, after) => calls.newId = .ok message.submissionId ∧
        ∃ req, after = stores.createSubmission message.submissionId req := by
  rcases body with _ | req
  · rfl
  · rcases found : calls.problem with (_ | _) | problemData
    · simp only [beginSubmit, found]
    · simp only [beginSubmit, found]
    · rcases created : calls.newId with err | subId
      · simp only [beginSubmit, found, created]
      · simp only [beginSubmit, found, created]
        exact ⟨rfl, _, rfl⟩

/-- At the end the row stays or is deleted, and only a confirmed message is answered with 202. -/
theorem concludeSubmit_spec (outcome : PublishOutcome) (deleteError : Option String) (subId : String)
    (stores : Stores) :
    ((concludeSubmit (publishSubmission outcome) deleteError subId stores).2 = stores ∨
        (concludeSubmit (publishSubmission outcome) deleteError subId stores).2 = stores.deleteSubmission subId) ∧
      ∀ id, (concludeSubmit (publishSubmission outcome) deleteError subId stores).1 = .accepted id →
        id = subId ∧ outcome = .confirmed := by
  rcases outcome with _ | _ | _ | _ | _
  all_goals
    cases deleteError <;> simp [publishSubmission, concludeSubmit, eq_comm]

/-- The calls of a request in the first minute of a contest, for an outcome of the publishing. -/
def firstMinute (publish : PublishOutcome) : Calls where
  now _ := 60 * 10 ^ 9
  problem := .ok ⟨"p", 1, ⟨"c", 0, 7200 * 10 ^ 9⟩⟩
  newId := .ok "s"
  publish := publish
  deleteError := none

/-- The body of a request with a Python program. -/
def pythonRequest : SubmissionRequest := ⟨"p", "python", "print(0)", "", "", 0⟩

def noSubmissions : Stores := ⟨[], [], .empty⟩

end JudgeSelf.SubmissionService
