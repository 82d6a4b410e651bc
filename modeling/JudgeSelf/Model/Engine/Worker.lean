import JudgeSelf.Model.Engine.Formatter
import JudgeSelf.Model.Leaderboard.Redis

/-! # The worker

Model of `compile.go`, `execute.go`, and of `ExecuteWorker` and `PostExecute`. Loading the problem
has put its item into the cache, so that the item is there when the checker is compiled. Status
updates and log lines are left out: nothing reads them back.
-/

namespace JudgeSelf.Engine

open Go

def localTemp : String := "/tmp/execution-engine"

namespace Job

def localDir (job : Job) : String := join localTemp job.submissionData.submissionId

def getOutputDir (job : Job) : String := join job.localDir "output"

def getOutputFileName (job : Job) (test : ℕ) : String :=
  zeroPadded (toString job.problemData.testCount).length test ++ ".out"

def getOutputFilePath (job : Job) (test : ℕ) : String := join job.getOutputDir (job.getOutputFileName test)

end Job

def getDefaultConfig : IsolateConfig :=
  { newIsolateConfig with memoryLimit := 2 * 1024 * 1024, timeLimit := 30, wallTimeLimit := 31 }

/-- The mount for the directory of a file, and the path of the file inside the sandbox. -/
def filePathToMount (path : String) : MountDir × String :=
  let dirname := "/" ++ base (dir path)
  ({ source := dir path, destination := dirname, writable := false, noExecute := false },
    join dirname (base path))

/-- The compiled checker, from the cache if it is there; without one, the result of the job. -/
def compileCheckerCode (env : Environment) (job : Job) (w : World) : Option String × Models.Result × World :=
  match w.compiledBin with
  | some checkerBin => (some checkerBin, .zero, w)
  | none =>
    let checkerSource := w.files.contents job.problemData.getCheckerSourcePath
    match compileCode env checkerSource job.problemData.checkerLanguage job.problemData.getResourcesFolder
      getDefaultConfig w with
    | (some checkerBin, _, w) => (some checkerBin, .zero, { w with compiledBin := some checkerBin })
    | (none, result, w) =>
      let message := match result.isolateMetadata with
        | some metadata => "Checker compilation failed\n" ++ isolateMetadataToString metadata
        | none => result.message
      (none, formatResult { result with message := message } "INT", w)

/-- The result of a user program that has no binary. -/
def failedCompilation (result : Result) : Models.Result :=
  match result.isolateMetadata with
  | none => formatResult result "INT"
  | some metadata =>
    let (status, message) := formatIsolateMetadata metadata false
    if status = "INT" then
      let message := "Usercode Compilation failed, (Internal error by sandbox) \n" ++
        isolateMetadataToString metadata
      formatResult { result with message := message } "INT"
    else if status = "AC" then
      let message := "Usercode Compilation failed, (Code compiled successfully but no bin was generated) \n" ++
        isolateMetadataToString metadata
      formatResult { result with message := message } "INT"
    else formatResult { result with message := message } "CE"

def compileUserCode (env : Environment) (job : Job) (w : World) : Option String × Models.Result × World :=
  match compileCode env (some job.submissionData.sourceCode) job.submissionData.sourceLanguage ""
    getDefaultConfig w with
  | (some userCodeBin, _, w) => (some userCodeBin, .zero, w)
  | (none, result, w) => (none, failedCompilation result, w)

/-- What `ExecuteUserCode` makes of the result of the sandbox. -/
def formatUserCode (result : Result) : Models.Result :=
  match result.isolateMetadata with
  | none => formatResult result "INT"
  | some metadata =>
    let (status, message) := formatIsolateMetadata metadata false
    if status = "INT" then
      let message := "Usercode Execution failed, (Internal error by sandbox) \n" ++
        isolateMetadataToString metadata
      formatResult { result with message := message } "INT"
    else formatResult { result with message := message } status

/-- The configuration of `ExecuteUserCode`. -/
def userCodeConfig (job : Job) : IsolateConfig :=
  let timeLimit := Binary64.nearest (Binary64.nearest job.problemData.timeLimit / 1000)
  { newIsolateConfig with
    timeLimit := timeLimit
    memoryLimit := job.problemData.memoryLimit
    wallTimeLimit := Binary64.nearest (timeLimit * 2) }

def executeUserCode (env : Environment) (job : Job) (test : ℕ) (userCodeBin testInputPath testOutputPath : String)
    (w : World) : Models.Result × World :=
  let (result, w) := executeCode env (.userCode test) userCodeBin job.submissionData.sourceLanguage
    testInputPath testOutputPath "" [] (userCodeConfig job) w
  (formatUserCode result, w)

/-- What `ExecuteChecker` makes of the result of the sandbox. -/
def formatChecker (result : Result) : Models.Result :=
  match result.isolateMetadata with
  | none => formatResult result "INT"
  | some metadata =>
    let (status, _) := formatIsolateMetadata metadata true
    if status = "INT" then
      let message := "Checker Execution failed, (Internal error by sandbox) \n" ++
        isolateMetadataToString metadata
      formatResult { result with message := message } "INT"
    else if status ≠ "AC" ∧ status ≠ "WA" then
      let message := "Checker Execution failed, (Checker returned unexpected status: " ++ status ++ ") \n" ++
        isolateMetadataToString metadata
      formatResult { result with message := message } "FAIL"
    else { formatResult result status with message := result.stderr }

def executeChecker (env : Environment) (job : Job) (test : ℕ)
    (checkerBin testInputPath testOutputPath testAnswerPath : String) (w : World) : Models.Result × World :=
  let (inputMount, destInputPath) := filePathToMount testInputPath
  let (outputMount, destOutputPath) := filePathToMount testOutputPath
  let (answerMount, destAnswerPath) := filePathToMount testAnswerPath
  let config := { getDefaultConfig with dirMounts := [inputMount, outputMount, answerMount] }
  let (result, w) := executeCode env (.checker test) checkerBin job.problemData.checkerLanguage "" "" ""
    [destInputPath, destOutputPath, destAnswerPath] config w
  (formatChecker result, w)

/-- The loop of `ExecuteWorker` from test `test` on, with the number of tests that remain. -/
def runTests (env : Environment) (job : Job) (checkerBin userCodeBin : String) :
    ℕ → ℕ → World → List Models.Result × World
  | 0, _, w => ([], w)
  | remaining + 1, test, w =>
    let testInputPath := job.problemData.getTestFilePath test
    let testAnswerPath := job.problemData.getAnswerFilePath test
    let testOutputPath := job.getOutputFilePath test
    let (userCodeResult, w) := executeUserCode env job test userCodeBin testInputPath testOutputPath w
    if userCodeResult.status ≠ "AC" then ([{ userCodeResult with test := test }], w)
    else
      let (checkerResult, w) :=
        executeChecker env job test checkerBin testInputPath testOutputPath testAnswerPath w
      if checkerResult.status ≠ "AC" ∧ checkerResult.status ≠ "WA" then
        ([{ checkerResult with test := test, time := 0, memory := 0 }], w)
      else
        let finalTestResult : Models.Result :=
          { test := test
            time := userCodeResult.time
            memory := userCodeResult.memory
            status := checkerResult.status
            message := checkerResult.message
            inputSnippet := userCodeResult.inputSnippet
            outputSnippet := userCodeResult.outputSnippet
            answerSnippet := w.files.readSnippet testAnswerPath }
        if checkerResult.status = "WA" then ([finalTestResult], w)
        else
          let (results, w) := runTests env job checkerBin userCodeBin remaining (test + 1) w
          (finalTestResult :: results, w)

def executeWorker (env : Environment) (job : Job) (w : World) : List Models.Result × World :=
  match compileCheckerCode env job w with
  | (none, compileResult, w) => ([compileResult], w)
  | (some checkerBin, _, w) =>
    match compileUserCode env job w with
    | (none, compileResult, w) => ([compileResult], w)
    | (some userCodeBin, _, w) =>
      if job.problemData.testCount = 0 then
        ([⟨0, 0, 0, "INT", "No test cases found for this problem.", "", "", ""⟩], w)
      else runTests env job checkerBin userCodeBin job.problemData.testCount.toNat 1 w

/-- What `ExecuteWorker` returns: after both compilations `make` panics on a negative test count, and
then nothing is returned. -/
def returnedResults (env : Environment) (job : Job) (w : World) : Option (List Models.Result) :=
  let (checkerBin, _, w₁) := compileCheckerCode env job w
  let (userCodeBin, _, _) := compileUserCode env job w₁
  if checkerBin.isSome ∧ userCodeBin.isSome ∧ job.problemData.testCount < 0 then none
  else some (executeWorker env job w).1

/-- What `PostExecute` leaves: its verdict, its error, and the message it publishes. -/
structure PostExecution where
  verdict : Verdict
  error : Option String
  published : Option LeaderboardService.QueueMessage

/-- The verdict of a job; without results the source panics. -/
def Job.verdict (job : Job) (results : List Models.Result) : Option Verdict :=
  results.getLast?.map fun last =>
    { submissionId := job.submissionData.submissionId
      status := last.status
      time := results.foldl (fun maxTime result => max maxTime (toInt64 (result.time * .ofRat false 1000))) 0
      memory := results.foldl (fun maxMemory result => max maxMemory result.memory) 0
      results := results }

/-- `PostExecute`, with the error that the database update returns for a verdict. -/
def postExecute (updateSubmission : Verdict → Option String) (job : Job) (results : List Models.Result) :
    Option PostExecution :=
  (job.verdict results).map fun verdict =>
    match updateSubmission verdict with
    | some err => ⟨verdict, some ("Failed to update submission in database: " ++ err), none⟩
    | none =>
      let message : LeaderboardService.QueueMessage :=
        { submissionId := job.submissionData.submissionId
          contestId := job.problemData.contestId
          userId := job.submissionData.userId
          problemId := job.problemData.problemId
          status := verdict.status
          relativeSubmittedAt := job.submissionData.relativeSubmissionTime }
      ⟨verdict, none, if job.submissionData.type = "RATED" then some message else none⟩

end JudgeSelf.Engine
