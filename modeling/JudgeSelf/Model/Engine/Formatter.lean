import JudgeSelf.Model.Engine.Sandbox

/-! # Jobs, results and their statuses

Model of the types of `job.go` that the worker uses and of `formatter.go`. Statuses are strings, as
they travel to the database, to the status channel and to the verdicts queue.
-/

namespace JudgeSelf.Engine

open Go

structure SubmissionData where
  submissionId : String
  sourceCode : String
  sourceLanguage : String
  problemId : String
  type : String
  userId : String
  relativeSubmissionTime : ℤ
deriving DecidableEq, Repr

structure ProblemData where
  problemId : String
  timeLimit : ℤ
  memoryLimit : ℤ
  testCount : ℤ
  checkerLanguage : String
  localProblemDir : String
  contestId : String
deriving DecidableEq, Repr

namespace ProblemData

def getTestsDir (pd : ProblemData) : String := join pd.localProblemDir "tests"

def getTestFileName (pd : ProblemData) (test : ℕ) : String := zeroPadded (toString pd.testCount).length test

def getTestFilePath (pd : ProblemData) (test : ℕ) : String := join pd.getTestsDir (pd.getTestFileName test)

def getAnswerFilePath (pd : ProblemData) (test : ℕ) : String := pd.getTestFilePath test ++ ".a"

def getCheckerSourcePath (pd : ProblemData) : String := join pd.localProblemDir "checker"

def getResourcesFolder (pd : ProblemData) : String := join pd.localProblemDir "resources"

end ProblemData

/-- A job whose problem has been loaded. -/
structure Job where
  submissionData : SubmissionData
  problemData : ProblemData
deriving DecidableEq, Repr

/-- `models.Result`, the result of one test. -/
structure Models.Result where
  test : ℕ
  time : Binary64
  memory : ℤ
  status : String
  message : String
  inputSnippet : String
  outputSnippet : String
  answerSnippet : String
deriving DecidableEq, Repr

/-- The zero value `models.Result{}`. -/
def Models.Result.zero : Models.Result := ⟨0, 0, 0, "", "", "", "", ""⟩

structure Verdict where
  submissionId : String
  status : String
  time : ℤ
  memory : ℤ
  results : List Models.Result
deriving DecidableEq, Repr

/-- Status and message for the metadata of a run. -/
def formatIsolateMetadata (metadata : IsolateMetadata) (isChecker : Bool) : String × String :=
  if metadata.status = "TO" then ("TLE", "Time limit exceeded")
  else if metadata.status = "SG" then
    if metadata.exitSig = 11 then ("SIGSEGV", "Runtime Error (SIGSEGV)")
    else if metadata.exitSig = 25 then ("SIGXFSZ", "Runtime Error (SIGXFSZ)")
    else if metadata.exitSig = 8 then ("SIGFPE", "Runtime Error (SIGFPE)")
    else if metadata.exitSig = 6 then ("SIGABRT", "Runtime Error (SIGABRT)")
    else ("RE", "Runtime Error (Other): " ++ toString metadata.exitSig)
  else if metadata.status = "RE" then
    if isChecker then
      if metadata.exitCode = 1 ∨ metadata.exitCode = 2 then ("WA", "Wrong Answer")
      else if metadata.exitCode = 3 then ("FAIL", "Jury Failed")
      else ("FAIL", "Jury Failed with Exit Signal: " ++ toString metadata.exitSig)
    else ("NZEC", "Non-Zero Exit Code: " ++ toString metadata.exitCode)
  else if metadata.status = "XX" then ("INT", "Internal error")
  else ("AC", "")

def isolateMetadataToString (metadata : IsolateMetadata) : String :=
  "\n".intercalate ["Exit code: " ++ toString metadata.exitCode, "Exit signal: " ++ toString metadata.exitSig,
    "Status: " ++ metadata.status, "Time: " ++ formatFloat 6 metadata.time,
    "Wall time: " ++ formatFloat 6 metadata.wallTime, "Memory: " ++ toString metadata.memory]

def formatResult (result : Result) (status : String) : Models.Result :=
  let (memory, time) : ℤ × Binary64 := match result.isolateMetadata with
    | some metadata => if status ≠ "INT" then (metadata.memory, metadata.time) else (0, 0)
    | none => (0, 0)
  { test := 0
    memory := memory
    time := time
    status := status
    message := result.message
    inputSnippet := result.stdin
    outputSnippet := if status = "INT" then result.stdout ++ "\n\nStderr: " ++ result.message else result.stdout
    answerSnippet := "" }

/-- A status of isolate that the formatter does not report as a failure of any kind. -/
def IsolateMetadata.Clean (metadata : IsolateMetadata) : Prop :=
  metadata.status ∉ ["TO", "SG", "RE", "XX"]

instance (metadata : IsolateMetadata) : Decidable metadata.Clean := inferInstanceAs (Decidable (¬ _))

@[simp] theorem formatResult_status (result : Result) (status : String) :
    (formatResult result status).status = status := by
  rw [formatResult]

/-- The statuses of results. -/
def statuses : List String :=
  ["AC", "WA", "CE", "TLE", "RE", "SIGSEGV", "SIGXFSZ", "SIGFPE", "SIGABRT", "NZEC", "FAIL", "INT"]

theorem formatIsolateMetadata_mem_statuses (metadata : IsolateMetadata) (isChecker : Bool) :
    (formatIsolateMetadata metadata isChecker).1 ∈ statuses := by
  rw [formatIsolateMetadata]
  split_ifs <;> dsimp only <;> decide

/-- Every metadata that names no failure of isolate is formatted as AC, whatever isolate did. -/
theorem formatIsolateMetadata_accepts_iff (metadata : IsolateMetadata) (isChecker : Bool) :
    (formatIsolateMetadata metadata isChecker).1 = "AC" ↔ metadata.Clean := by
  rw [IsolateMetadata.Clean, List.mem_cons, List.mem_cons, List.mem_cons, List.mem_singleton]
  constructor
  · rintro accepts (status | status | status | status)
    · simp [formatIsolateMetadata, status] at accepts
    · simp only [formatIsolateMetadata, status, String.reduceEq, ↓reduceIte] at accepts
      split_ifs at accepts <;> simp at accepts
    · simp only [formatIsolateMetadata, status, String.reduceEq, ↓reduceIte] at accepts
      split_ifs at accepts <;> simp at accepts
    · simp [formatIsolateMetadata, status] at accepts
  · intro clean
    obtain ⟨notTO, notSG, notRE, notXX⟩ : _ ∧ _ ∧ _ ∧ _ := by simpa only [not_or] using clean
    rw [formatIsolateMetadata, if_neg notTO, if_neg notSG, if_neg notRE, if_neg notXX]

end JudgeSelf.Engine
