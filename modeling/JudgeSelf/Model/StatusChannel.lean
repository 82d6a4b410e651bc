import JudgeSelf.Model.Engine.Logged

/-! # Status messages

Model of `PublishStatusUpdate`, of the messages that `RunWorker` hands to goroutines, and of `Subscribe` in
`status.service.ts`. A message is complete when its goroutine is started; publishing and handling come later,
in any order. `active_submissions` is a map of ids to statuses.
-/

namespace JudgeSelf

namespace Engine

structure StatusMessage where
  submissionId : String
  contestId : String
  running : Bool
  time : ℤ
  memory : ℤ
  status : String
deriving DecidableEq, Repr

/-- `PublishStatusUpdate` for a job whose problem and verdict may not be there yet. -/
def publishStatusUpdate (data : SubmissionData) (problemData : Option ProblemData) (verdict : Option Verdict)
    (status : String) : StatusMessage where
  submissionId := data.submissionId
  contestId := (problemData.map ProblemData.contestId).getD ""
  running := !verdict.any (·.status = status)
  time := (verdict.map Verdict.time).getD 0
  memory := (verdict.map Verdict.memory).getD 0
  status := status

/-- The statuses that `runTests` publishes on its way. -/
def testUpdates (env : Environment) (job : Job) (checkerBin userCodeBin : String) : ℕ → ℕ → World → List String
  | 0, _, _ => []
  | remaining + 1, test, w =>
    let testInputPath := job.problemData.getTestFilePath test
    let testAnswerPath := job.problemData.getAnswerFilePath test
    let testOutputPath := job.getOutputFilePath test
    let (userCodeResult, w) := executeUserCode env job test userCodeBin testInputPath testOutputPath w
    ("Running on test " ++ toString test) ::
      if userCodeResult.status ≠ "AC" then []
      else
        let (checkerResult, w) :=
          executeChecker env job test checkerBin testInputPath testOutputPath testAnswerPath w
        if checkerResult.status ≠ "AC" then []
        else testUpdates env job checkerBin userCodeBin remaining (test + 1) w

/-- The statuses that `executeWorker` publishes on its way. -/
def executeUpdates (env : Environment) (job : Job) (w : World) : List String :=
  "Compiling" ::
    match compileCheckerCode env job w with
    | (none, _, _) => []
    | (some checkerBin, _, w) =>
      match compileUserCode env job w with
      | (none, _, _) => []
      | (some userCodeBin, _, w) =>
        if job.problemData.testCount = 0 then []
        else testUpdates env job checkerBin userCodeBin job.problemData.testCount.toNat 1 w

/-- What the calls of a run come to. -/
structure RunCalls where
  mkdirAll : Option String
  preExecute : Except String ProblemData
  env : Environment
  world : World
  updateSubmission : Verdict → Option String

/-- How `RunWorker` ends. -/
inductive RunEnd
  | done
  | failed (error : String)
  | panicked
deriving DecidableEq, Repr

/-- `RunWorker` on a decoded job: the messages in the order of their goroutines, and its end. -/
def runWorker (calls : RunCalls) (data : SubmissionData) : List StatusMessage × RunEnd :=
  let running := publishStatusUpdate data none none "Running"
  match calls.mkdirAll with
  | some err => ([running], .failed ("Failed to create localDir directory: " ++ err))
  | none =>
    match calls.preExecute with
    | .error err => ([running], .failed ("Failed to get or load problem data: " ++ err))
    | .ok problemData =>
      let updates := (executeUpdates calls.env ⟨data, problemData⟩ calls.world).map
        (publishStatusUpdate data (some problemData) none)
      match postExecute calls.updateSubmission ⟨data, problemData⟩
        (executeWorker calls.env ⟨data, problemData⟩ calls.world).1 with
      | none => (running :: updates, .panicked)
      | some ⟨_, some err, _⟩ => (running :: updates, .failed err)
      | some ⟨verdict, none, _⟩ =>
        (running :: updates ++ [publishStatusUpdate data (some problemData) (some verdict) verdict.status], .done)

end Engine

namespace StatusService

open Engine (StatusMessage)

/-- The callback of `Subscribe` on `active_submissions`. -/
def subscribe (active : String → Option String) (msg : StatusMessage) : String → Option String :=
  if msg.running then Function.update active msg.submissionId (some msg.status)
  else Function.update active msg.submissionId none

end StatusService

end JudgeSelf
