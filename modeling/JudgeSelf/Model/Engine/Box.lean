import JudgeSelf.Machine.OpenFile
import JudgeSelf.Model.Engine.Worker

/-! # Programs in the box of isolate

Isolate opens the file of `-M`, runs the program, which works on the files of its box directory, and
then writes its report to the open file. Whatever else a run does is left to the environment.
-/

namespace JudgeSelf.Engine

open Go
open Machine (FileOperation OpenFile)

/-- The file of the option `-M`. -/
def metaFile? : List String → Option String
  | "-M" :: path :: _ => some path
  | _ => none

/-- The files after a run whose program performs the operations in its box directory. -/
def runProgram (boxDir metaFile report : String) (operations : List (FileOperation String))
    (contents : String → Option String) : String → Option String :=
  ((operations.map (·.map (join boxDir))).foldl OpenFile.apply (.openFile contents metaFile)).close report

/-- The environment in which every program performs the operations and every run ends with the report. -/
def Environment.withProgram (env : Environment) (boxDir report : String)
    (operations : List (FileOperation String)) : Environment :=
  { env with isolate := fun n command files =>
      let outcome := env.isolate n command files
      match command with
      | .init _ => outcome
      | .run _ _ options _ =>
        match metaFile? options with
        | none => outcome
        | some path =>
          let contents := runProgram boxDir path report operations outcome.files.contents
          { outcome with files := { outcome.files with contents } } }

/-- The box directory of the next execution. -/
def nextBoxDir (env : Environment) (w : World) : String := (reInitialize env w).sandbox.boxDir

/-- The metadata of the last logged run. -/
def World.parsedMetadata (w : World) : Option IsolateMetadata := w.runs.getLast?.bind (·.metadata)

variable (env : Environment) (report : String) (operations : List (FileOperation String)) (w : World)

/-- `GetParsedMetadata` reads by name what the run leaves. -/
theorem isolateMetadata_executeCode (purpose : Purpose)
    (sourceBin language stdinFilePath stdoutFilePath stderrFilePath : String) (additionalArgs : List String)
    (config : IsolateConfig) : ∃ contents,
    (executeCode (env.withProgram (nextBoxDir env w) report operations) purpose sourceBin language stdinFilePath
      stdoutFilePath stderrFilePath additionalArgs config w).1.isolateMetadata =
        (runProgram (nextBoxDir env w) (join (nextBoxDir env w) "metadata.txt") report operations contents
          (join (nextBoxDir env w) "metadata.txt")).map parseMetadata :=
  ⟨_, rfl⟩

/-- The metadata of a user run are those that its result is made of. -/
theorem executeUserCode_eq_format (job : Job) (test : ℕ) (userCodeBin testInputPath testOutputPath : String) :
    ∃ config,
      let executed := executeCode env (.userCode test) userCodeBin job.submissionData.sourceLanguage testInputPath
        testOutputPath "" [] config w
      (executeUserCode env job test userCodeBin testInputPath testOutputPath w).1 = formatUserCode executed.1 ∧
        (executeUserCode env job test userCodeBin testInputPath testOutputPath w).2.parsedMetadata =
          executed.1.isolateMetadata := by
  refine ⟨_, rfl, ?_⟩
  obtain ⟨err, logged⟩ := runs_executeCode env (.userCode test) userCodeBin job.submissionData.sourceLanguage
    testInputPath testOutputPath "" [] (userCodeConfig job) w
  rw [World.parsedMetadata, executeUserCode]
  dsimp only
  rw [logged, List.getLast?_concat]
  rfl

/-- Status and time are functions of the metadata. -/
theorem formatUserCode_congr {result result' : Result} (same : result.isolateMetadata = result'.isolateMetadata) :
    (formatUserCode result).status = (formatUserCode result').status ∧
      (formatUserCode result).time = (formatUserCode result').time := by
  obtain ⟨message, stdin, stdout, stderr, parsed⟩ := result
  obtain ⟨message', stdin', stdout', stderr', parsed'⟩ := result'
  obtain rfl : parsed = parsed' := same
  cases parsed with
  | none => exact ⟨rfl, rfl⟩
  | some metadata =>
    rw [formatUserCode, formatUserCode]
    dsimp only
    split <;> exact ⟨rfl, rfl⟩

end JudgeSelf.Engine
