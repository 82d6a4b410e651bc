import JudgeSelf.Json.Object
import JudgeSelf.Model.Engine.Pool
import JudgeSelf.Model.Polygon.Js

/-! # The messages of the two queues

Model of the JSON of `QueueMessage` in the submission service and in `rabbitmqPublisher.go`, of
`ParseSubmissionData` in `job.go`, and of the reviver in `rabbitmq.task.ts`. Encoding a struct writes
its fields in the order of their declarations.
-/

namespace JudgeSelf

/-- The body that `PublishSubmission` sends; the version has no JSON name of its own. -/
def SubmissionService.QueueMessage.marshal (msg : QueueMessage) : Json.Text :=
  [("submission_id", .string msg.submissionId), ("source_code", .string msg.code),
    ("language", .string msg.language), ("problem_id", .string msg.problemId),
    ("ProblemVersion", .number msg.problemVersion), ("type", .string msg.type), ("user_id", .string msg.userId),
    ("relative_submission_time", .number msg.relativeSubmissionTime)]

namespace Engine

def SubmissionData.fields : List Json.Field :=
  [⟨"submission_id", .string⟩, ⟨"source_code", .string⟩, ⟨"language", .string⟩, ⟨"problem_id", .string⟩,
    ⟨"type", .string⟩, ⟨"user_id", .string⟩, ⟨"relative_submission_time", .int64⟩]

def parseSubmissionData (payload : Json.Text) : Option SubmissionData :=
  (Json.unmarshal SubmissionData.fields payload).map fun data =>
    { submissionId := data.string "submission_id"
      sourceCode := data.string "source_code"
      sourceLanguage := data.string "language"
      problemId := data.string "problem_id"
      type := data.string "type"
      userId := data.string "user_id"
      relativeSubmissionTime := data.int64 "relative_submission_time" }

/-- `QueueMessage` of `rabbitmqPublisher.go`. -/
structure RabbitMQPublisher.QueueMessage where
  submissionId : String
  status : String
  userId : String
  contestId : String
  problemId : String
  relativeSubmissionTime : ℤ
deriving DecidableEq, Repr

/-- The body that `PublishSubmissionResult` sends. -/
def RabbitMQPublisher.QueueMessage.marshal (msg : QueueMessage) : Json.Text :=
  [("submission_id", .string msg.submissionId), ("status", .string msg.status), ("user_id", .string msg.userId),
    ("contest_id", .string msg.contestId), ("problem_id", .string msg.problemId),
    ("relative_submission_time", .number msg.relativeSubmissionTime)]

/-- The message that `PostExecute` puts together for a RATED submission. -/
def Job.queueMessage (job : Job) (verdict : Verdict) : RabbitMQPublisher.QueueMessage where
  submissionId := job.submissionData.submissionId
  userId := job.submissionData.userId
  relativeSubmissionTime := job.submissionData.relativeSubmissionTime
  status := verdict.status
  contestId := job.problemData.contestId
  problemId := job.problemData.problemId

end Engine

namespace LeaderboardService

def keyMap : List (String × String) :=
  [("submission_id", "submissionId"), ("contest_id", "contestId"), ("user_id", "userId"),
    ("problem_id", "problemId"), ("status", "status"), ("relative_submission_time", "relativeSubmittedAt")]

def reviver {α : Type} : Json.Reviver α := fun this key value =>
  if keyMap.lookup key = some key then (this, value)
  else
    match keyMap.lookup key with
    | some renamed => (this.set renamed value, none)
    | none => (this, value)

/-- The double nearest to an integer. -/
def double (n : ℤ) : ℤ := n.sign * Js.nearest n.natAbs

/-- What `StartRabbitMQ` decodes from the content of a message. -/
def parseVerdict (content : Json.Text) : Option (Record String (Option Json.Scalar)) :=
  Json.parseWith reviver double content

/-- The fields of a message. -/
def QueueMessage.members (verdict : QueueMessage) : List (String × Option Json.Scalar) :=
  [("submissionId", some (.string verdict.submissionId)), ("contestId", some (.string verdict.contestId)),
    ("userId", some (.string verdict.userId)), ("problemId", some (.string verdict.problemId)),
    ("status", some (.string verdict.status)), ("relativeSubmittedAt", some (.number verdict.relativeSubmittedAt))]

end LeaderboardService

end JudgeSelf
