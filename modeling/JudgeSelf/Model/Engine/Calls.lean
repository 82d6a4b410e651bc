import JudgeSelf.Machine.Program
import JudgeSelf.Model.Engine.Worker

/-! # Judging by single calls

The sandbox and the worker once more, with every access to a file and every invocation of `isolate` as a call
of its own, in the order of the source, so that other workers can get in between. What a worker keeps to itself
is its seat. A program that runs alone does what the functions of the sandbox and the worker do. What
`CompileCheckerCode` finds in the cache item under its lock is given; a worker that waits for the lock makes no call.
-/

namespace JudgeSelf.Engine

open Go Machine

namespace Files

/-- `os.ReadFile`. -/
def read (files : Files) (path : String) : Except String String :=
  match files.contents path with
  | some data => .ok data
  | none => .error (files.readError path)

/-- A write fails and changes nothing, or succeeds. -/
theorem write_cases (files : Files) (path data : String) :
    (∃ err, files.write path data = (some err, files)) ∨
      files.write path data = (none, { files with contents := Function.update files.contents path (some data) }) := by
  rw [write]
  cases files.writeError path with
  | none => exact .inr rfl
  | some err => exact .inl ⟨err, rfl⟩

end Files

inductive FileCall
  /-- `os.Create`, `os.WriteFile`, or `os.OpenFile` with `O_TRUNC`. -/
  | write (path data : String)
  | read (path : String)
  /-- `os.ReadDir`, up to the regular files. -/
  | list (path : String)
  /-- An invocation of `isolate`, by its number. -/
  | isolate (invocation : ℕ) (command : IsolateCommand)

/-- The error of a write; the contents or the error of a read; the names; the error and the output of `isolate`. -/
def FileCall.Reply : FileCall → Type
  | write _ _ => Option String
  | read _ => Except String String
  | list _ => List String
  | isolate _ _ => Option String × String × String

def FileCall.perform (env : Environment) : (call : FileCall) → Files → call.Reply × Files
  | write path data, files => files.write path data
  | read path, files => (files.read path, files)
  | list path, files => (files.listing path, files)
  | isolate invocation command, files =>
    let outcome := env.isolate invocation command files
    ((outcome.error, outcome.stdout, outcome.stderr), outcome.files)

/-- What a worker keeps to itself. -/
structure Seat where
  sandbox : Sandbox
  invocations : ℕ
  runs : List IsolateRun
  compiledBin : Option String

def Seat.world (seat : Seat) (files : Files) : World :=
  ⟨files, seat.sandbox, seat.invocations, seat.runs, seat.compiledBin⟩

namespace World

def seat (w : World) : Seat := ⟨w.sandbox, w.invocations, w.runs, w.compiledBin⟩

/-- `RunWorker` up to `PostExecute`, for a problem in the cache; `compiledBin` is what its item holds. -/
def runWorker (env : Environment) (job : Job) (compiledBin : Option String) (w : World) :
    List Models.Result × World :=
  executeWorker env job { reInitialize env w with compiledBin }

/-- The loop of `Start`: the results of one job after the other. -/
def start (env : Environment) : List (Job × Option String) → World → List (List Models.Result) × World
  | [], w => ([], w)
  | (job, compiledBin) :: jobs, w =>
    let (results, w) := w.runWorker env job compiledBin
    let (later, w) := w.start env jobs
    (results :: later, w)

end World

/-- A program of a worker. -/
abbrev FileProgram := StateT Seat (Program FileCall.Reply)

namespace FileProgram

/-- A program that runs alone. -/
def exec {α : Type} (env : Environment) (p : FileProgram α) (w : World) : α × World :=
  let ((a, seat), files) := (p w.seat).run (FileCall.perform env) w.files
  (a, seat.world files)

def write (path data : String) : FileProgram (Option String) := StateT.lift (Program.request (FileCall.write path data))

def read (path : String) : FileProgram (Except String String) := StateT.lift (Program.request (FileCall.read path))

def list (path : String) : FileProgram (List String) := StateT.lift (Program.request (FileCall.list path))

/-- An invocation of `isolate`: its error, what it prints to standard output and to standard error. -/
def isolate (command : IsolateCommand) : FileProgram (Option String × String × String) := do
  let seat ← get
  set { seat with invocations := seat.invocations + 1 }
  StateT.lift (Program.request (FileCall.isolate seat.invocations command))

/-- `ReadSnippet`, of which the callers drop the error. -/
def readSnippet (path : String) : FileProgram String := do
  match ← read path with
  | .ok data => return String.ofList (data.toList.take 1024)
  | .error _ => return ""

def copyFiles (source destination : String) : List String → FileProgram Unit
  | [] => return
  | name :: names => do
    match ← read (join source name) with
    | .error _ => return
    | .ok data =>
      match ← write (join destination name) data with
      | none => copyFiles source destination names
      | some _ => return

/-- `CopyDirFiles`, of which the caller drops the error. -/
def copyDirFiles (source destination : String) : FileProgram Unit := do
  copyFiles source destination (← list source)

def initBaseFiles (boxDir : String) : List String → FileProgram Unit
  | [] => return
  | name :: names => do
    match ← write (join boxDir name) "" with
    | none => initBaseFiles boxDir names
    | some _ => return

def reInitialize : FileProgram Unit := do
  let seat ← get
  let (error, stdout, _) ← isolate (.init seat.sandbox.boxId)
  match error with
  | some _ => return
  | none =>
    let workDir := trimSpace stdout
    let boxDir := join workDir "box"
    modify fun seat => { seat with sandbox := ⟨seat.sandbox.boxId, workDir, boxDir⟩ }
    initBaseFiles boxDir ["stdin.txt", "stdout.txt", "stderr.txt", "metadata.txt"]

/-- `GetParsedMetadata`, and the log of the run. -/
def getParsedMetadata (purpose : Purpose) (error : Option String) : FileProgram (Option IsolateMetadata) := do
  let seat ← get
  let metadata := (← read seat.sandbox.getMetadataPath).toOption.map parseMetadata
  let logged : IsolateRun := ⟨purpose, error, metadata⟩
  set { seat with runs := seat.runs ++ [logged] }
  return metadata

/-- The part of `CompileCode` from the isolate run on. -/
def runCompiler (compileCmd : List String) (config : IsolateConfig) : FileProgram (Option String × Result) := do
  let sandbox := (← get).sandbox
  let (error, stdout, stderr) ← isolate (.run sandbox.boxId config.applyHardLimits
    (["-M", sandbox.getMetadataPath] ++ homeAndPath ++ ["-d", "/etc:noexec", "-p"]) compileCmd)
  match error with
  | some err =>
    let metadata ← getParsedMetadata .compile error
    return (none, ⟨"Compilation failed with error: " ++ err, "", stdout, stderr, metadata⟩)
  | none =>
    let outputBin ← read (join sandbox.boxDir "outputBin")
    let metadata ← getParsedMetadata .compile error
    match outputBin with
    | .error err => return (none, ⟨"Failed to read compiled binary: " ++ err, "", stdout, stderr, metadata⟩)
    | .ok outputBin => return (some outputBin, ⟨"", "", stdout, stderr, metadata⟩)

def compileCode (env : Environment) (sourceCode : Option String) (language additionalFilesDir : String)
    (config : IsolateConfig) : FileProgram (Option String × Result) := do
  reInitialize
  match env.compileCommand language with
  | none => return (none, ⟨"Unsupported language: " ++ language, "", "", "", none⟩)
  | some [] => return (sourceCode, ⟨"", "", "", "", none⟩)
  | some compileCmd =>
    let sandbox := (← get).sandbox
    match ← write (join sandbox.boxDir "source") (sourceCode.getD "") with
    | some err => return (none, ⟨"Failed to write source code to file: " ++ err, "", "", "", none⟩)
    | none =>
      if additionalFilesDir ≠ "" then copyDirFiles additionalFilesDir sandbox.boxDir
      runCompiler compileCmd config

def executeCode (env : Environment) (purpose : Purpose)
    (sourceBin language stdinFilePath stdoutFilePath stderrFilePath : String) (additionalArgs : List String)
    (config : IsolateConfig) : FileProgram Result := do
  reInitialize
  let sandbox := (← get).sandbox
  let _ ← write (join sandbox.boxDir "source") sourceBin
  let executeCmd := (env.executeCommand language).getD []
  let stdinPath := if stdinFilePath = "" then sandbox.getDefaultStdinPath else stdinFilePath
  let stdoutPath := if stdoutFilePath = "" then sandbox.getDefaultStdoutPath else stdoutFilePath
  let stderrPath := if stderrFilePath = "" then sandbox.getDefaultStderrPath else stderrFilePath
  let _ ← write stdoutPath ""
  let _ ← write stderrPath ""
  let (error, _, _) ← isolate (.run sandbox.boxId config.applyHardLimits
    (["-M", sandbox.getMetadataPath] ++ homeAndPath) (executeCmd ++ additionalArgs))
  let message := match error with
    | none => "Execution completed"
    | some err => "Execution failed with error: " ++ err
  let stdinSnippet ← readSnippet stdinPath
  let stdoutSnippet ← readSnippet stdoutPath
  let stderrSnippet ← readSnippet stderrPath
  let metadata ← getParsedMetadata purpose error
  return ⟨message, stdinSnippet, stdoutSnippet, stderrSnippet, metadata⟩

/-- `CompileCheckerCode`; what the item holds is in the seat. -/
def compileCheckerCode (env : Environment) (job : Job) : FileProgram (Option String × Models.Result) := do
  match (← get).compiledBin with
  | some checkerBin => return (some checkerBin, .zero)
  | none =>
    let checkerSource := (← read job.problemData.getCheckerSourcePath).toOption
    match ← compileCode env checkerSource job.problemData.checkerLanguage job.problemData.getResourcesFolder
      getDefaultConfig with
    | (some checkerBin, _) =>
      modify fun seat => { seat with compiledBin := some checkerBin }
      return (some checkerBin, .zero)
    | (none, result) =>
      let message := match result.isolateMetadata with
        | some metadata => "Checker compilation failed\n" ++ isolateMetadataToString metadata
        | none => result.message
      return (none, formatResult { result with message := message } "INT")

def compileUserCode (env : Environment) (job : Job) : FileProgram (Option String × Models.Result) := do
  match ← compileCode env job.submissionData.sourceCode job.submissionData.sourceLanguage "" getDefaultConfig with
  | (some userCodeBin, _) => return (some userCodeBin, .zero)
  | (none, result) => return (none, failedCompilation result)

def executeUserCode (env : Environment) (job : Job) (test : ℕ) (userCodeBin testInputPath testOutputPath : String) :
    FileProgram Models.Result := do
  let result ← executeCode env (.userCode test) userCodeBin job.submissionData.sourceLanguage testInputPath
    testOutputPath "" [] (userCodeConfig job)
  return formatUserCode result

def executeChecker (env : Environment) (job : Job) (test : ℕ)
    (checkerBin testInputPath testOutputPath testAnswerPath : String) : FileProgram Models.Result := do
  let (inputMount, destInputPath) := filePathToMount testInputPath
  let (outputMount, destOutputPath) := filePathToMount testOutputPath
  let (answerMount, destAnswerPath) := filePathToMount testAnswerPath
  let config := { getDefaultConfig with dirMounts := [inputMount, outputMount, answerMount] }
  let result ← executeCode env (.checker test) checkerBin job.problemData.checkerLanguage "" "" ""
    [destInputPath, destOutputPath, destAnswerPath] config
  return formatChecker result

/-- The loop of `ExecuteWorker`. -/
def runTests (env : Environment) (job : Job) (checkerBin userCodeBin : String) :
    ℕ → ℕ → FileProgram (List Models.Result)
  | 0, _ => return []
  | remaining + 1, test => do
    let testInputPath := job.problemData.getTestFilePath test
    let testAnswerPath := job.problemData.getAnswerFilePath test
    let testOutputPath := job.getOutputFilePath test
    let userCodeResult ← executeUserCode env job test userCodeBin testInputPath testOutputPath
    if userCodeResult.status ≠ "AC" then return [{ userCodeResult with test := test }]
    else
      let checkerResult ← executeChecker env job test checkerBin testInputPath testOutputPath testAnswerPath
      if checkerResult.status ≠ "AC" ∧ checkerResult.status ≠ "WA" then
        return [{ checkerResult with test := test, time := 0, memory := 0 }]
      else
        let answerSnippet ← readSnippet testAnswerPath
        let finalTestResult : Models.Result :=
          { test := test
            time := userCodeResult.time
            memory := userCodeResult.memory
            status := checkerResult.status
            message := checkerResult.message
            inputSnippet := userCodeResult.inputSnippet
            outputSnippet := userCodeResult.outputSnippet
            answerSnippet := answerSnippet }
        if checkerResult.status = "WA" then return [finalTestResult]
        else return finalTestResult :: (← runTests env job checkerBin userCodeBin remaining (test + 1))

def executeWorker (env : Environment) (job : Job) : FileProgram (List Models.Result) := do
  match ← compileCheckerCode env job with
  | (none, compileResult) => return [compileResult]
  | (some checkerBin, _) =>
    match ← compileUserCode env job with
    | (none, compileResult) => return [compileResult]
    | (some userCodeBin, _) =>
      if job.problemData.testCount = 0 then
        return [⟨0, 0, 0, "INT", "No test cases found for this problem.", "", "", ""⟩]
      else runTests env job checkerBin userCodeBin job.problemData.testCount.toNat 1

def runWorker (env : Environment) (job : Job) (compiledBin : Option String) : FileProgram (List Models.Result) := do
  reInitialize
  modify fun seat => { seat with compiledBin }
  executeWorker env job

def start (env : Environment) : List (Job × Option String) → FileProgram (List (List Models.Result))
  | [] => return []
  | (job, compiledBin) :: jobs => do
    let results ← runWorker env job compiledBin
    return results :: (← start env jobs)

section Exec

variable {α β : Type} {env : Environment} {w : World}

@[simp] theorem exec_pure (a : α) : exec env (pure a) w = (a, w) := rfl

@[simp] theorem exec_bind (p : FileProgram α) (f : α → FileProgram β) :
    exec env (p >>= f) w = exec env (f (exec env p w).1) (exec env p w).2 := by
  have composed : ((p w.seat).bind fun out => f out.1 out.2).run (FileCall.perform env) w.files = _ :=
    Program.run_bind fun out : α × Seat => f out.1 out.2
  exact congrArg (fun out : (β × Seat) × Files => (out.1.1, out.1.2.world out.2)) composed

@[simp] theorem exec_get : exec env get w = (w.seat, w) := rfl

@[simp] theorem exec_set (seat : Seat) : exec env (set seat) w = (⟨⟩, seat.world w.files) := rfl

@[simp] theorem exec_modify (f : Seat → Seat) : exec env (modify f) w = (⟨⟩, (f w.seat).world w.files) := rfl

@[simp] theorem exec_write (path data : String) :
    exec env (write path data) w =
      ((w.files.write path data).1, { w with files := (w.files.write path data).2 }) := rfl

@[simp] theorem exec_isolate (command : IsolateCommand) :
    exec env (isolate command) w =
      (((env.isolate w.invocations command w.files).error, (env.isolate w.invocations command w.files).stdout,
        (env.isolate w.invocations command w.files).stderr),
        { w with
          files := (env.isolate w.invocations command w.files).files
          invocations := w.invocations + 1 }) := rfl

@[simp] theorem exec_read (path : String) : exec env (read path) w = (w.files.read path, w) := rfl

@[simp] theorem exec_list (path : String) : exec env (list path) w = (w.files.listing path, w) := rfl

@[simp] theorem exec_readSnippet (path : String) :
    exec env (readSnippet path) w = (w.files.readSnippet path, w) := by
  rw [readSnippet, exec_bind, exec_read, Files.readSnippet, Files.read]
  cases w.files.contents path with
  | none => rfl
  | some data => rfl

private theorem exec_copyFiles (source destination : String) (names : List String) :
    exec env (copyFiles source destination names) w =
      (⟨⟩, { w with files := w.files.copyFiles source destination names }) := by
  induction names generalizing w with
  | nil => rfl
  | cons name names ih =>
    rw [copyFiles, exec_bind, exec_read, Files.copyFiles, Files.read]
    cases w.files.contents (join source name) with
    | none => rfl
    | some data =>
      dsimp only
      rw [exec_bind, exec_write, Files.write]
      cases w.files.writeError (join destination name) with
      | none => exact ih
      | some err => rfl

private theorem exec_copyDirFiles (source destination : String) :
    exec env (copyDirFiles source destination) w =
      (⟨⟩, { w with files := w.files.copyDirFiles source destination }) := by
  rw [copyDirFiles, exec_bind, exec_list, exec_copyFiles]
  rfl

private theorem exec_initBaseFiles (boxDir : String) (names : List String) :
    exec env (initBaseFiles boxDir names) w =
      (⟨⟩, { w with files := Engine.initBaseFiles w.files boxDir names }) := by
  induction names generalizing w with
  | nil => rfl
  | cons name names ih =>
    rw [initBaseFiles, exec_bind, exec_write, Engine.initBaseFiles, Files.write]
    cases w.files.writeError (join boxDir name) with
    | none => exact ih
    | some err => rfl

private theorem exec_reInitialize : exec env reInitialize w = (⟨⟩, Engine.reInitialize env w) := by
  rw [reInitialize, Engine.reInitialize, exec_bind, exec_get, exec_bind, exec_isolate]
  dsimp only [World.seat]
  cases (env.isolate w.invocations (.init w.sandbox.boxId) w.files).error with
  | some err => rfl
  | none =>
    dsimp only
    rw [exec_bind, exec_modify, exec_initBaseFiles]
    rfl

private theorem exec_getParsedMetadata (purpose : Purpose) (error : Option String) :
    exec env (getParsedMetadata purpose error) w =
      (Engine.getParsedMetadata w.files w.sandbox,
        { w with runs := w.runs ++ [⟨purpose, error, Engine.getParsedMetadata w.files w.sandbox⟩] }) := by
  rw [getParsedMetadata, exec_bind, exec_get, exec_bind, exec_read, Engine.getParsedMetadata, Files.read]
  dsimp only [World.seat]
  cases w.files.contents w.sandbox.getMetadataPath with
  | none => rfl
  | some text => rfl

private theorem exec_runCompiler (compileCmd : List String) (config : IsolateConfig) :
    exec env (runCompiler compileCmd config) w =
      let (outputBin, result, w) := Engine.runCompiler env compileCmd config w
      ((outputBin, result), w) := by
  rw [runCompiler, exec_bind, exec_get, exec_bind, exec_isolate, Engine.runCompiler.eq_def, runIsolate]
  dsimp only [World.seat]
  generalize env.isolate w.invocations _ w.files = outcome
  cases outcome.error with
  | some err =>
    dsimp only
    rw [exec_bind, exec_getParsedMetadata]
    rfl
  | none =>
    dsimp only
    rw [exec_bind, exec_read, exec_bind, exec_getParsedMetadata, Files.read]
    dsimp only
    cases outcome.files.contents (join w.sandbox.boxDir "outputBin") with
    | none => rfl
    | some outputBin => rfl

private theorem exec_compileCode (sourceCode : Option String) (language additionalFilesDir : String)
    (config : IsolateConfig) :
    exec env (compileCode env sourceCode language additionalFilesDir config) w =
      let (outputBin, result, w) := Engine.compileCode env sourceCode language additionalFilesDir config w
      ((outputBin, result), w) := by
  rw [compileCode, exec_bind, exec_reInitialize, Engine.compileCode]
  dsimp only
  generalize Engine.reInitialize env w = w
  rcases env.compileCommand language with _ | _ | ⟨program, arguments⟩
  · rfl
  · rfl
  · rw [exec_bind, exec_get, exec_bind, exec_write]
    dsimp only [World.seat]
    rcases w.files.write_cases (join w.sandbox.boxDir "source") (sourceCode.getD "") with ⟨err, failed⟩ | written
    · rw [failed]
      rfl
    · rw [written]
      dsimp only
      split
      · rw [exec_bind, exec_copyDirFiles]
        exact exec_runCompiler ..
      · exact exec_runCompiler ..

private theorem exec_executeCode (purpose : Purpose)
    (sourceBin language stdinFilePath stdoutFilePath stderrFilePath : String) (additionalArgs : List String)
    (config : IsolateConfig) :
    exec env (executeCode env purpose sourceBin language stdinFilePath stdoutFilePath stderrFilePath additionalArgs
        config) w =
      Engine.executeCode env purpose sourceBin language stdinFilePath stdoutFilePath stderrFilePath additionalArgs
        config w := by
  rw [executeCode, exec_bind, exec_reInitialize, Engine.executeCode]
  dsimp only
  generalize Engine.reInitialize env w = w
  rw [exec_bind, exec_get, exec_bind, exec_write, exec_bind, exec_write, exec_bind, exec_write, exec_bind,
    exec_isolate]
  dsimp only
  rw [exec_bind, exec_readSnippet, exec_bind, exec_readSnippet, exec_bind, exec_readSnippet, exec_bind,
    exec_getParsedMetadata]
  rfl

private theorem exec_compileCheckerCode (job : Job) :
    exec env (compileCheckerCode env job) w =
      let (checkerBin, compileResult, w) := Engine.compileCheckerCode env job w
      ((checkerBin, compileResult), w) := by
  rw [compileCheckerCode, exec_bind, exec_get, Engine.compileCheckerCode]
  dsimp only [World.seat]
  cases w.compiledBin with
  | some checkerBin => rfl
  | none =>
    have source : (w.files.read job.problemData.getCheckerSourcePath).toOption =
        w.files.contents job.problemData.getCheckerSourcePath := by
      rw [Files.read]
      cases w.files.contents job.problemData.getCheckerSourcePath <;> rfl
    dsimp only
    rw [exec_bind, exec_read, source, exec_bind, exec_compileCode]
    rcases Engine.compileCode env (w.files.contents job.problemData.getCheckerSourcePath)
      job.problemData.checkerLanguage job.problemData.getResourcesFolder getDefaultConfig w
      with ⟨_ | checkerBin, result, w⟩
    · rfl
    · rfl

private theorem exec_compileUserCode (job : Job) :
    exec env (compileUserCode env job) w =
      let (userCodeBin, compileResult, w) := Engine.compileUserCode env job w
      ((userCodeBin, compileResult), w) := by
  rw [compileUserCode, exec_bind, exec_compileCode, Engine.compileUserCode]
  rcases Engine.compileCode env (some job.submissionData.sourceCode) job.submissionData.sourceLanguage ""
    getDefaultConfig w with ⟨_ | userCodeBin, result, w⟩
  · rfl
  · rfl

private theorem exec_executeUserCode (job : Job) (test : ℕ) (userCodeBin testInputPath testOutputPath : String) :
    exec env (executeUserCode env job test userCodeBin testInputPath testOutputPath) w =
      Engine.executeUserCode env job test userCodeBin testInputPath testOutputPath w := by
  rw [executeUserCode, exec_bind, exec_executeCode]
  rfl

private theorem exec_executeChecker (job : Job) (test : ℕ)
    (checkerBin testInputPath testOutputPath testAnswerPath : String) :
    exec env (executeChecker env job test checkerBin testInputPath testOutputPath testAnswerPath) w =
      Engine.executeChecker env job test checkerBin testInputPath testOutputPath testAnswerPath w := by
  rw [executeChecker, exec_bind, exec_executeCode]
  rfl

private theorem exec_runTests (job : Job) (checkerBin userCodeBin : String) (remaining test : ℕ) :
    exec env (runTests env job checkerBin userCodeBin remaining test) w =
      Engine.runTests env job checkerBin userCodeBin remaining test w := by
  induction remaining generalizing test w with
  | zero => rfl
  | succ remaining ih =>
    rw [runTests, exec_bind, exec_executeUserCode, Engine.runTests]
    rcases Engine.executeUserCode env job test userCodeBin (job.problemData.getTestFilePath test)
      (job.getOutputFilePath test) w with ⟨userCodeResult, w⟩
    dsimp only
    split
    · rfl
    · rw [exec_bind, exec_executeChecker]
      rcases Engine.executeChecker env job test checkerBin (job.problemData.getTestFilePath test)
        (job.getOutputFilePath test) (job.problemData.getAnswerFilePath test) w with ⟨checkerResult, w⟩
      dsimp only
      split
      · rfl
      · rw [exec_bind, exec_readSnippet]
        dsimp only
        split
        · rfl
        · rw [exec_bind, ih]
          rfl

/-- A worker alone judges as `ExecuteWorker` does. -/
theorem exec_executeWorker (job : Job) : exec env (executeWorker env job) w = Engine.executeWorker env job w := by
  rw [executeWorker, exec_bind, exec_compileCheckerCode, Engine.executeWorker]
  rcases Engine.compileCheckerCode env job w with ⟨_ | checkerBin, compileResult, w⟩
  · rfl
  · dsimp only
    rw [exec_bind, exec_compileUserCode]
    rcases Engine.compileUserCode env job w with ⟨_ | userCodeBin, compileResult, w⟩
    · rfl
    · dsimp only
      split
      · rfl
      · exact exec_runTests ..

private theorem exec_runWorker (job : Job) (compiledBin : Option String) :
    exec env (runWorker env job compiledBin) w = w.runWorker env job compiledBin := by
  rw [runWorker, exec_bind, exec_reInitialize, exec_bind, exec_modify]
  exact exec_executeWorker job

/-- The programs of a worker alone give the results of `ExecuteWorker` for one job after the other. -/
theorem exec_start (jobs : List (Job × Option String)) : exec env (start env jobs) w = w.start env jobs := by
  induction jobs generalizing w with
  | nil => rfl
  | cons entry jobs ih =>
    obtain ⟨job, compiledBin⟩ := entry
    rw [start, exec_bind, exec_runWorker, exec_bind, ih]
    rfl

end Exec

end FileProgram

end JudgeSelf.Engine
