import JudgeSelf.Model.Engine.Float

/-! # The isolate sandbox

Model of the package `sandbox`. The external command `isolate` is a parameter: for each invocation
in turn it gives an error or none, the output, and the files it leaves, which may be any files. Of
the file system only contents and writability count. A run of a program is logged with the purpose
of its caller, which the source does not pass; nothing reads the log.
-/

namespace JudgeSelf.Engine

open Go

/-- Contents of files, and the errors of opening them. -/
structure Files where
  contents : String → Option String
  /-- The error of opening a file without contents. -/
  readError : String → String
  /-- The error of creating a file or opening it for writing. -/
  writeError : String → Option String
  /-- The regular files of a directory that the engine only reads. -/
  listing : String → List String

namespace Files

/-- `os.Create` and `os.WriteFile`: the error, and the files after it. -/
def write (files : Files) (path data : String) : Option String × Files :=
  match files.writeError path with
  | some err => (some err, files)
  | none => (none, { files with contents := Function.update files.contents path (some data) })

/-- The first kilobyte of a file. -/
def readSnippet (files : Files) (path : String) : String :=
  String.ofList (((files.contents path).getD "").toList.take 1024)

/-- The loop of `CopyDirFiles`, which stops at the first error. -/
def copyFiles (files : Files) (source destination : String) : List String → Files
  | [] => files
  | name :: names =>
    match files.contents (join source name) with
    | none => files
    | some data =>
      match files.write (join destination name) data with
      | (none, copied) => copied.copyFiles source destination names
      | (some _, _) => files

def copyDirFiles (files : Files) (source destination : String) : Files :=
  files.copyFiles source destination (files.listing source)

end Files

structure MountDir where
  source : String
  destination : String
  writable : Bool
  noExecute : Bool
deriving DecidableEq

structure IsolateConfig where
  memoryLimit : ℤ
  timeLimit : ℚ
  extraTimeLimit : ℚ
  wallTimeLimit : ℚ
  stack : ℤ
  fileSizeLimit : ℤ
  dirMounts : List MountDir
deriving DecidableEq

def hardLimits : IsolateConfig where
  memoryLimit := 3 * 1024 * 1024
  timeLimit := 30
  extraTimeLimit := 2
  wallTimeLimit := 31
  stack := 256 * 1024
  fileSizeLimit := 16 * 1024
  dirMounts := []

/-- `NewIsolateConfig` without options. -/
def newIsolateConfig : IsolateConfig where
  memoryLimit := 512 * 1024
  timeLimit := 5
  wallTimeLimit := 10
  extraTimeLimit := 1
  stack := hardLimits.stack
  fileSizeLimit := hardLimits.fileSizeLimit
  dirMounts := []

def IsolateConfig.applyHardLimits (ic : IsolateConfig) : IsolateConfig where
  memoryLimit := min ic.memoryLimit hardLimits.memoryLimit
  timeLimit := min ic.timeLimit hardLimits.timeLimit
  extraTimeLimit := min ic.extraTimeLimit hardLimits.extraTimeLimit
  wallTimeLimit := min ic.wallTimeLimit hardLimits.wallTimeLimit
  stack := min ic.stack hardLimits.stack
  fileSizeLimit := min ic.fileSizeLimit hardLimits.fileSizeLimit
  dirMounts := ic.dirMounts

/-- The arguments of an invocation; those made of the configuration are kept as the configuration. -/
inductive IsolateCommand
  | init (boxId : ℕ)
  | run (boxId : ℕ) (config : IsolateConfig) (options command : List String)
deriving DecidableEq

/-- What an invocation comes to: the error of `cmd.Run`, what it prints, the files it leaves. -/
structure Outcome where
  error : Option String
  stdout : String
  stderr : String
  files : Files

/-- The external command, and the commands that `languages.json` gives for a language. -/
structure Environment where
  isolate : ℕ → IsolateCommand → Files → Outcome
  compileCommand : String → Option (List String)
  executeCommand : String → Option (List String)

structure IsolateMetadata where
  time : Binary64
  wallTime : Binary64
  memory : ℤ
  exitCode : ℤ
  exitSig : ℤ
  status : String
  message : String
deriving DecidableEq

structure Result where
  message : String
  stdin : String
  stdout : String
  stderr : String
  isolateMetadata : Option IsolateMetadata
deriving DecidableEq

structure Sandbox where
  boxId : ℕ
  workDir : String
  boxDir : String
deriving DecidableEq, Repr

/-- Whose program a run of isolate is about. -/
inductive Purpose
  | compile
  | userCode (test : ℕ)
  | checker (test : ℕ)
deriving DecidableEq, Repr

/-- A logged run: its error, and the metadata parsed after it. -/
structure IsolateRun where
  purpose : Purpose
  error : Option String
  metadata : Option IsolateMetadata
deriving DecidableEq

structure World where
  files : Files
  sandbox : Sandbox
  invocations : ℕ
  runs : List IsolateRun
  /-- The compiled checker in the cache item of the problem. -/
  compiledBin : Option String

def Sandbox.getMetadataPath (s : Sandbox) : String := join s.boxDir "metadata.txt"

def Sandbox.getDefaultStdinPath (s : Sandbox) : String := join s.boxDir "stdin.txt"

def Sandbox.getDefaultStdoutPath (s : Sandbox) : String := join s.boxDir "stdout.txt"

def Sandbox.getDefaultStderrPath (s : Sandbox) : String := join s.boxDir "stderr.txt"

/-- The files of `InitBaseFiles`, created empty up to the first error. -/
def initBaseFiles (files : Files) (boxDir : String) : List String → Files
  | [] => files
  | name :: names =>
    match files.write (join boxDir name) "" with
    | (none, created) => initBaseFiles created boxDir names
    | (some _, _) => files

/-- `ReInitialize`; its callers drop the error. -/
def reInitialize (env : Environment) (w : World) : World :=
  let outcome := env.isolate w.invocations (.init w.sandbox.boxId) w.files
  let invoked := { w with files := outcome.files, invocations := w.invocations + 1 }
  match outcome.error with
  | some _ => invoked
  | none =>
    let workDir := trimSpace outcome.stdout
    let boxDir := join workDir "box"
    { invoked with
      sandbox := ⟨w.sandbox.boxId, workDir, boxDir⟩
      files := initBaseFiles outcome.files boxDir ["stdin.txt", "stdout.txt", "stderr.txt", "metadata.txt"] }

/-- One line of the metadata file, and the control group memory seen so far. -/
def parseMetadataLine (state : IsolateMetadata × ℤ) (line : String) : IsolateMetadata × ℤ :=
  let (parsed, cgMem) := state
  match splitColon line with
  | none => state
  | some (key, val) =>
    if key = "time" then ({ parsed with time := parseFloat val }, cgMem)
    else if key = "time-wall" then ({ parsed with wallTime := parseFloat val }, cgMem)
    else if key = "cg-mem" then (parsed, atoi val)
    else if key = "max-rss" then ({ parsed with memory := atoi val }, cgMem)
    else if key = "exitcode" then ({ parsed with exitCode := atoi val }, cgMem)
    else if key = "exitsig" then ({ parsed with exitSig := atoi val }, cgMem)
    else if key = "status" then ({ parsed with status := val }, cgMem)
    else if key = "message" then ({ parsed with message := val }, cgMem)
    else state

def parseMetadata (text : String) : IsolateMetadata :=
  let (parsed, cgMem) := (scanLines text).foldl parseMetadataLine (⟨0, 0, 0, 0, 0, "", ""⟩, -1)
  if cgMem ≠ -1 then { parsed with memory := cgMem } else parsed

def getParsedMetadata (files : Files) (s : Sandbox) : Option IsolateMetadata :=
  (files.contents s.getMetadataPath).map parseMetadata

/-- Run isolate and log the run. -/
def runIsolate (env : Environment) (purpose : Purpose) (config : IsolateConfig) (options command : List String)
    (w : World) : Outcome × Option IsolateMetadata × World :=
  let outcome := env.isolate w.invocations
    (.run w.sandbox.boxId config.applyHardLimits options command) w.files
  let metadata := getParsedMetadata outcome.files w.sandbox
  (outcome, metadata,
    { w with
      files := outcome.files
      invocations := w.invocations + 1
      runs := w.runs ++ [⟨purpose, outcome.error, metadata⟩] })

def homeAndPath : List String :=
  ["-E", "HOME=/tmp", "-E", "PATH=/usr/local/sbin:/usr/local/bin:/usr/sbin:/usr/bin:/sbin:/bin"]

/-- The part of `CompileCode` from the isolate run on: the binary and what else is known. -/
def runCompiler (env : Environment) (compileCmd : List String) (config : IsolateConfig) (w : World) :
    Option String × Result × World :=
  let (outcome, metadata, w) := runIsolate env .compile config
    (["-M", w.sandbox.getMetadataPath] ++ homeAndPath ++ ["-d", "/etc:noexec", "-p"]) compileCmd w
  let result (message : String) : Result := ⟨message, "", outcome.stdout, outcome.stderr, metadata⟩
  match outcome.error with
  | some err => (none, result ("Compilation failed with error: " ++ err), w)
  | none =>
    let outputPath := join w.sandbox.boxDir "outputBin"
    match w.files.contents outputPath with
    | none => (none, result ("Failed to read compiled binary: " ++ w.files.readError outputPath), w)
    | some outputBin => (some outputBin, result "", w)

def compileCode (env : Environment) (sourceCode : Option String) (language additionalFilesDir : String)
    (config : IsolateConfig) (w : World) : Option String × Result × World :=
  let w := reInitialize env w
  match env.compileCommand language with
  | none => (none, ⟨"Unsupported language: " ++ language, "", "", "", none⟩, w)
  | some [] => (sourceCode, ⟨"", "", "", "", none⟩, w)
  | some compileCmd =>
    match w.files.write (join w.sandbox.boxDir "source") (sourceCode.getD "") with
    | (some err, _) => (none, ⟨"Failed to write source code to file: " ++ err, "", "", "", none⟩, w)
    | (none, written) =>
      let prepared := if additionalFilesDir ≠ "" then written.copyDirFiles additionalFilesDir w.sandbox.boxDir
        else written
      runCompiler env compileCmd config { w with files := prepared }

/-- The files of an execution before isolate runs; errors of the preparation are dropped. -/
def prepareExecution (sourceBin stdoutPath stderrPath : String) (w : World) : World :=
  let withSource := (w.files.write (join w.sandbox.boxDir "source") sourceBin).2
  let withStdout := (withSource.write stdoutPath "").2
  { w with files := (withStdout.write stderrPath "").2 }

/-- Run a binary. The error of the run itself reaches the caller in the message only. -/
def executeCode (env : Environment) (purpose : Purpose)
    (sourceBin language stdinFilePath stdoutFilePath stderrFilePath : String) (additionalArgs : List String)
    (config : IsolateConfig) (w : World) : Result × World :=
  let w := reInitialize env w
  let executeCmd := (env.executeCommand language).getD []
  let stdinPath := if stdinFilePath = "" then w.sandbox.getDefaultStdinPath else stdinFilePath
  let stdoutPath := if stdoutFilePath = "" then w.sandbox.getDefaultStdoutPath else stdoutFilePath
  let stderrPath := if stderrFilePath = "" then w.sandbox.getDefaultStderrPath else stderrFilePath
  let (outcome, metadata, w) := runIsolate env purpose config
    (["-M", w.sandbox.getMetadataPath] ++ homeAndPath) (executeCmd ++ additionalArgs)
    (prepareExecution sourceBin stdoutPath stderrPath w)
  let message := match outcome.error with
    | none => "Execution completed"
    | some err => "Execution failed with error: " ++ err
  (⟨message, w.files.readSnippet stdinPath, w.files.readSnippet stdoutPath, w.files.readSnippet stderrPath,
    metadata⟩, w)

@[simp] theorem runs_reInitialize (env : Environment) (w : World) : (reInitialize env w).runs = w.runs := by
  rw [reInitialize]
  dsimp only
  split <;> rfl

/-- The run of an execution is logged with the metadata that the result carries. -/
theorem runs_executeCode (env : Environment) (purpose : Purpose)
    (sourceBin language stdinFilePath stdoutFilePath stderrFilePath : String) (additionalArgs : List String)
    (config : IsolateConfig) (w : World) :
    ∃ err, (executeCode env purpose sourceBin language stdinFilePath stdoutFilePath stderrFilePath
      additionalArgs config w).2.runs = w.runs ++ [⟨purpose, err, (executeCode env purpose sourceBin language
        stdinFilePath stdoutFilePath stderrFilePath additionalArgs config w).1.isolateMetadata⟩] := by
  simp only [executeCode, runIsolate, prepareExecution, runs_reInitialize]
  exact ⟨_, rfl⟩

private theorem runs_runCompiler (env : Environment) (compileCmd : List String) (config : IsolateConfig) (w : World) :
    ∃ run : IsolateRun, run.purpose = .compile ∧
      (runCompiler env compileCmd config w).2.2.runs = w.runs ++ [run] := by
  rw [runCompiler]
  rcases ran : runIsolate env .compile config _ compileCmd w with ⟨outcome, metadata, after⟩
  have logged : after.runs = w.runs ++ [⟨.compile, outcome.error, metadata⟩] := by
    simp only [runIsolate, Prod.mk.injEq] at ran
    obtain ⟨rfl, rfl, rfl⟩ := ran
    rfl
  refine ⟨_, rfl, Eq.trans ?_ logged⟩
  dsimp only
  split
  · rfl
  · split <;> rfl

/-- A compilation logs at most its own run. -/
theorem runs_compileCode (env : Environment) (sourceCode : Option String)
    (language additionalFilesDir : String) (config : IsolateConfig) (w : World) :
    ∃ runs : List IsolateRun, (∀ run ∈ runs, run.purpose = .compile) ∧
      (compileCode env sourceCode language additionalFilesDir config w).2.2.runs = w.runs ++ runs := by
  rw [compileCode]
  split
  · exact ⟨[], List.forall_mem_nil _, by rw [runs_reInitialize, List.append_nil]⟩
  · exact ⟨[], List.forall_mem_nil _, by rw [runs_reInitialize, List.append_nil]⟩
  · next compileCmd _ _ =>
    split
    · exact ⟨[], List.forall_mem_nil _, by rw [runs_reInitialize, List.append_nil]⟩
    · obtain ⟨run, ofCompile, logged⟩ := runs_runCompiler env compileCmd config _
      refine ⟨[run], by simpa using ofCompile, logged.trans ?_⟩
      rw [runs_reInitialize]

end JudgeSelf.Engine
