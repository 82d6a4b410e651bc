import JudgeSelf.Machine.Filepath
import JudgeSelf.Model.Engine.Cache
import JudgeSelf.Model.Engine.Calls

/-! # Workers do not disturb each other

The workers of a pool judge at the same time, on one file system: worker `i` in the box `i + 1` of `isolate`, and
with the outputs of its jobs in a directory for each submission. A command of `isolate` in a box sees what belongs
to no other worker and changes what belongs to its own. Then every worker comes to the results that it comes to
alone, whatever the others judge meanwhile, given what it finds in the cache items of its checkers.
-/

namespace JudgeSelf.Engine

open Go Machine

/-- What the file system has at a path. -/
def Files.cell (files : Files) (path : String) : Option String × String × Option String × List String :=
  (files.contents path, files.readError path, files.writeError path, files.listing path)

def IsolateCommand.boxId : IsolateCommand → ℕ
  | init boxId => boxId
  | run boxId _ _ _ => boxId

/-- A box of `isolate` whose commands are confined to some paths, which include the box itself. -/
structure Boxed (env : Environment) (sandbox : Sandbox) (own see : Set String) : Prop where
  boxDir : sandbox.boxDir = join sandbox.workDir "box"
  inside : ∀ name, join sandbox.boxDir name ∈ own
  visible : own ⊆ see
  /-- `isolate --init` prints the directory of the box. -/
  workDir : ∀ invocation files, (env.isolate invocation (.init sandbox.boxId) files).error = none →
    trimSpace (env.isolate invocation (.init sandbox.boxId) files).stdout = sandbox.workDir
  confined : ∀ invocation (command : IsolateCommand), command.boxId = sandbox.boxId →
    Program.Local Files.cell (FileCall.perform env) own see (.isolate invocation command)

/-- A program that makes only local calls and stays in its sandbox, with what it gives. -/
def StaysIn {α : Type} (env : Environment) (sandbox : Sandbox) (own see : Set String) (post : α → Prop)
    (p : FileProgram α) : Prop :=
  ∀ seat : Seat, seat.sandbox = sandbox → Program.Within Files.cell (FileCall.perform env) own see
    (fun out : α × Seat => post out.1 ∧ out.2.sandbox = sandbox) (p seat)

section StaysIn

variable {α β : Type} {env : Environment} {sandbox : Sandbox} {own see : Set String} {path : String}

private theorem stays_pure {post : α → Prop} {a : α} (holds : post a) : StaysIn env sandbox own see post (pure a) :=
  fun _ seated => ⟨holds, seated⟩

private theorem stays_bind {post : α → Prop} {post' : β → Prop} {p : FileProgram α} {f : α → FileProgram β}
    (first : StaysIn env sandbox own see post p) (second : ∀ a, post a → StaysIn env sandbox own see post' (f a)) :
    StaysIn env sandbox own see post' (p >>= f) :=
  fun seat seated => Program.within_bind (first seat seated) fun out kept => second out.1 kept.1 out.2 kept.2

private theorem stays_get : StaysIn env sandbox own see (fun seat : Seat => seat.sandbox = sandbox) get :=
  fun _ seated => ⟨seated, seated⟩

private theorem stays_set {seat : Seat} (seated : seat.sandbox = sandbox) :
    StaysIn env sandbox own see (fun _ => True) (set seat) :=
  fun _ _ => ⟨trivial, seated⟩

private theorem stays_modify {f : Seat → Seat} (keeps : ∀ seat, seat.sandbox = sandbox → (f seat).sandbox = sandbox) :
    StaysIn env sandbox own see (fun _ => True) (modify f) :=
  fun seat seated => ⟨trivial, keeps seat seated⟩

private theorem stays_lift {call : FileCall} {post : call.Reply → Prop}
    (isLocal : Program.Local Files.cell (FileCall.perform env) own see call)
    (holds : ∀ files, post (FileCall.perform env call files).1) :
    StaysIn env sandbox own see post (StateT.lift (Program.request call)) :=
  fun _ seated => Program.within_bind (Program.within_request isLocal holds) fun _ held => ⟨held, seated⟩

variable (boxed : Boxed env sandbox own see)

include boxed

omit boxed in
private theorem local_write (visible : own ⊆ see) {data : String} (owned : path ∈ own) :
    Program.Local Files.cell (FileCall.perform env) own see (.write path data) where
  reply s t agree := by
    have same := agree path (visible owned)
    simp only [Files.cell, Prod.mk.injEq] at same
    simp only [FileCall.perform, Files.write, same.2.2.1]
    cases t.writeError path <;> rfl
  agree s t agree k seen := by
    have same := agree path (visible owned)
    have other := agree k seen
    simp only [Files.cell, Prod.mk.injEq] at same other
    simp only [FileCall.perform, Files.write, same.2.2.1]
    cases t.writeError path with
    | some err => exact agree k seen
    | none => simp [Files.cell, Function.update_apply, other]
  frame s k foreign := by
    have differs : k ≠ path := fun same => foreign (same ▸ owned)
    simp only [FileCall.perform, Files.write]
    cases s.writeError path with
    | some err => rfl
    | none => simp [Files.cell, differs]

private theorem stays_write {data : String} (owned : path ∈ own) :
    StaysIn env sandbox own see (fun _ => True) (FileProgram.write path data) :=
  @stays_lift env sandbox own see (.write path data) _ (local_write boxed.visible owned) fun _ => trivial

omit boxed in
private theorem local_read (seen : path ∈ see) : Program.Local Files.cell (FileCall.perform env) own see
    (.read path) where
  reply s t agree := by
    have same := agree path seen
    simp only [Files.cell, Prod.mk.injEq] at same
    rw [FileCall.perform, FileCall.perform, Files.read, Files.read, same.1, same.2.1]
  agree s t agree := agree
  frame _ _ _ := rfl

omit boxed in
private theorem stays_read (seen : path ∈ see) : StaysIn env sandbox own see (fun _ => True) (FileProgram.read path) :=
  @stays_lift env sandbox own see (.read path) _ (local_read seen) fun _ => trivial

omit boxed in
private theorem stays_list (seen : path ∈ see) :
    StaysIn env sandbox own see (fun _ => True) (FileProgram.list path) := by
  refine @stays_lift env sandbox own see (.list path) _ ⟨fun s t agree => ?_, fun _ _ agree => agree, fun _ _ _ => rfl⟩
    fun _ => trivial
  have same := agree path seen
  simp only [Files.cell, Prod.mk.injEq] at same
  rw [FileCall.perform, FileCall.perform, same.2.2.2]

/-- Files of a directory in sight are copied into the box. -/
theorem stays_copyDirFiles {source : String} (seen : source ∈ see) (files : ∀ name, join source name ∈ see) :
    StaysIn env sandbox own see (fun _ => True) (FileProgram.copyDirFiles source sandbox.boxDir) := by
  apply stays_bind (stays_list seen)
  intro names _
  induction names with
  | nil => exact stays_pure trivial
  | cons name names ih =>
    apply stays_bind (stays_read (files name))
    intro contents _
    cases contents with
    | error err => exact stays_pure trivial
    | ok data =>
      apply stays_bind (stays_write boxed (boxed.inside name))
      intro error _
      cases error with
      | none => exact ih
      | some err => exact stays_pure trivial

private theorem stays_isolate {command : IsolateCommand} (mine : command.boxId = sandbox.boxId) :
    StaysIn env sandbox own see
      (fun reply => command = .init sandbox.boxId → reply.1 = none → trimSpace reply.2.1 = sandbox.workDir)
      (FileProgram.isolate command) := by
  apply stays_bind stays_get
  intro seat seated
  refine stays_bind (stays_set seated) fun _ _ => ?_
  apply stays_lift (boxed.confined _ command mine)
  rintro files rfl succeeded
  exact boxed.workDir _ files succeeded

omit boxed in
private theorem stays_readSnippet (seen : path ∈ see) :
    StaysIn env sandbox own see (fun _ => True) (FileProgram.readSnippet path) := by
  apply stays_bind (stays_read seen)
  intro contents _
  cases contents with
  | ok data => exact stays_pure trivial
  | error err => exact stays_pure trivial

private theorem stays_initBaseFiles (names : List String) :
    StaysIn env sandbox own see (fun _ => True) (FileProgram.initBaseFiles sandbox.boxDir names) := by
  induction names with
  | nil => exact stays_pure trivial
  | cons name names ih =>
    apply stays_bind (stays_write boxed (boxed.inside name))
    intro error _
    cases error with
    | none => exact ih
    | some err => exact stays_pure trivial

private theorem stays_reInitialize : StaysIn env sandbox own see (fun _ => True) FileProgram.reInitialize := by
  apply stays_bind stays_get
  intro seat seated
  apply stays_bind (@stays_isolate _ _ _ _ boxed (.init seat.sandbox.boxId) (congrArg Sandbox.boxId seated))
  rintro ⟨error, stdout, stderr⟩ printed
  cases error with
  | some err => exact stays_pure trivial
  | none =>
    have workDir : trimSpace stdout = sandbox.workDir := printed (by rw [seated]) rfl
    dsimp only
    rw [workDir, ← boxed.boxDir]
    apply stays_bind (stays_modify _)
    · exact fun _ _ => stays_initBaseFiles boxed _
    · intro seat seated
      rw [seated]

private theorem stays_getParsedMetadata (purpose : Purpose) (error : Option String) :
    StaysIn env sandbox own see (fun _ => True) (FileProgram.getParsedMetadata purpose error) := by
  apply stays_bind stays_get
  intro seat seated
  apply stays_bind (stays_read _)
  · intro contents _
    refine stays_bind (stays_set seated) fun _ _ => stays_pure trivial
  · rw [seated]
    exact boxed.visible (boxed.inside _)

private theorem stays_runCompiler (compileCmd : List String) (config : IsolateConfig) :
    StaysIn env sandbox own see (fun _ => True) (FileProgram.runCompiler compileCmd config) := by
  apply stays_bind stays_get
  intro seat seated
  apply stays_bind (stays_isolate boxed _)
  · rintro ⟨error, stdout, stderr⟩ _
    cases error with
    | some err => exact stays_bind (stays_getParsedMetadata boxed _ _) fun _ _ => stays_pure trivial
    | none =>
      apply stays_bind (stays_read _)
      · intro outputBin _
        apply stays_bind (stays_getParsedMetadata boxed _ _)
        intro metadata _
        cases outputBin with
        | error err => exact stays_pure trivial
        | ok outputBin => exact stays_pure trivial
      · rw [seated]
        exact boxed.visible (boxed.inside _)
  · exact congrArg Sandbox.boxId seated

/-- A compilation stays in the sandbox if it takes its additional files from a directory in sight. -/
theorem stays_compileCode (sourceCode : Option String) (language additionalFilesDir : String) (config : IsolateConfig)
    (additional : additionalFilesDir ≠ "" →
      additionalFilesDir ∈ see ∧ ∀ name, join additionalFilesDir name ∈ see) :
    StaysIn env sandbox own see (fun _ => True)
      (FileProgram.compileCode env sourceCode language additionalFilesDir config) := by
  apply stays_bind (stays_reInitialize boxed)
  intro _ _
  rcases env.compileCommand language with _ | _ | ⟨program, arguments⟩
  · exact stays_pure trivial
  · exact stays_pure trivial
  · apply stays_bind stays_get
    intro seat seated
    apply stays_bind (stays_write boxed _)
    · intro error _
      cases error with
      | some err => exact stays_pure trivial
      | none =>
        dsimp only
        split
        · next given =>
          obtain ⟨seen, files⟩ := additional given
          rw [seated]
          exact stays_bind (stays_copyDirFiles boxed seen files) fun _ _ => stays_runCompiler boxed _ _
        · exact stays_runCompiler boxed _ _
    · rw [seated]
      exact boxed.inside _

/-- An execution stays in the sandbox if it reads a visible input and writes its output to an own file. -/
theorem stays_executeCode (purpose : Purpose) (sourceBin language stdinFilePath stdoutFilePath : String)
    (additionalArgs : List String) (config : IsolateConfig) (stdin : stdinFilePath = "" ∨ stdinFilePath ∈ see)
    (stdout : stdoutFilePath = "" ∨ stdoutFilePath ∈ own) :
    StaysIn env sandbox own see (fun _ => True) (FileProgram.executeCode env purpose sourceBin language stdinFilePath
      stdoutFilePath "" additionalArgs config) := by
  apply stays_bind (stays_reInitialize boxed)
  intro _ _
  apply stays_bind stays_get
  intro seat seated
  dsimp only
  rw [seated]
  have stdinPath : (if stdinFilePath = "" then sandbox.getDefaultStdinPath else stdinFilePath) ∈ see := by
    split
    · exact boxed.visible (boxed.inside _)
    · next given => exact stdin.resolve_left given
  have stdoutPath : (if stdoutFilePath = "" then sandbox.getDefaultStdoutPath else stdoutFilePath) ∈ own := by
    split
    · exact boxed.inside _
    · next given => exact stdout.resolve_left given
  have stderrPath : sandbox.getDefaultStderrPath ∈ own := boxed.inside _
  rw [if_pos rfl]
  refine stays_bind (stays_write boxed (boxed.inside _)) fun _ _ => ?_
  refine stays_bind (stays_write boxed stdoutPath) fun _ _ => ?_
  refine stays_bind (stays_write boxed stderrPath) fun _ _ => ?_
  refine stays_bind (stays_isolate boxed rfl) fun reply _ => ?_
  refine stays_bind (stays_readSnippet stdinPath) fun _ _ => ?_
  refine stays_bind (stays_readSnippet (boxed.visible stdoutPath)) fun _ _ => ?_
  refine stays_bind (stays_readSnippet (boxed.visible stderrPath)) fun _ _ => ?_
  exact stays_bind (stays_getParsedMetadata boxed _ _) fun _ _ => stays_pure trivial

private theorem stays_compileUserCode (job : Job) :
    StaysIn env sandbox own see (fun _ => True) (FileProgram.compileUserCode env job) := by
  apply stays_bind (stays_compileCode boxed _ _ _ _ fun given => absurd rfl given)
  rintro ⟨userCodeBin, result⟩ _
  cases userCodeBin with
  | none => exact stays_pure trivial
  | some userCodeBin => exact stays_pure trivial

/-- What a worker needs of a job: it sees the package of the problem, and the outputs are its own. -/
structure Accessible (own see : Set String) (job : Job) : Prop where
  checker : job.problemData.getCheckerSourcePath ∈ see
  resources : job.problemData.getResourcesFolder ∈ see
  resource : ∀ name, join job.problemData.getResourcesFolder name ∈ see
  input : ∀ test, job.problemData.getTestFilePath test ∈ see
  answer : ∀ test, job.problemData.getAnswerFilePath test ∈ see
  output : ∀ test, job.getOutputFilePath test ∈ own

variable {job : Job} (accessible : Accessible own see job)

include accessible

private theorem stays_compileCheckerCode :
    StaysIn env sandbox own see (fun _ => True) (FileProgram.compileCheckerCode env job) := by
  apply stays_bind stays_get
  intro seat _
  cases seat.compiledBin with
  | some checkerBin => exact stays_pure trivial
  | none =>
    apply stays_bind (stays_read accessible.checker)
    intro source _
    apply stays_bind (stays_compileCode boxed _ _ _ _ fun _ => ⟨accessible.resources, accessible.resource⟩)
    rintro ⟨checkerBin, result⟩ _
    cases checkerBin with
    | none => exact stays_pure trivial
    | some checkerBin => exact stays_bind (stays_modify fun _ seated => seated) fun _ _ => stays_pure trivial

private theorem stays_executeUserCode (test : ℕ) (userCodeBin : String) :
    StaysIn env sandbox own see (fun _ => True) (FileProgram.executeUserCode env job test userCodeBin
      (job.problemData.getTestFilePath test) (job.getOutputFilePath test)) :=
  stays_bind (stays_executeCode boxed _ _ _ _ _ _ _ (.inr (accessible.input test)) (.inr (accessible.output test)))
    fun _ _ => stays_pure trivial

omit accessible in
private theorem stays_executeChecker (test : ℕ) (checkerBin testInputPath testOutputPath testAnswerPath : String) :
    StaysIn env sandbox own see (fun _ => True) (FileProgram.executeChecker env job test checkerBin testInputPath
      testOutputPath testAnswerPath) :=
  stays_bind (stays_executeCode boxed _ _ _ _ _ _ _ (.inl rfl) (.inl rfl)) fun _ _ => stays_pure trivial

private theorem stays_runTests (checkerBin userCodeBin : String) (remaining test : ℕ) :
    StaysIn env sandbox own see (fun _ => True)
      (FileProgram.runTests env job checkerBin userCodeBin remaining test) := by
  induction remaining generalizing test with
  | zero => exact stays_pure trivial
  | succ remaining ih =>
    apply stays_bind (stays_executeUserCode boxed accessible test userCodeBin)
    intro userCodeResult _
    split
    · exact stays_pure trivial
    · apply stays_bind (stays_executeChecker boxed test checkerBin _ _ _)
      intro checkerResult _
      split
      · exact stays_pure trivial
      · refine stays_bind (stays_readSnippet (accessible.answer test)) fun answerSnippet _ => ?_
        split
        · exact stays_pure trivial
        · exact stays_bind (ih (test + 1)) fun _ _ => stays_pure trivial

private theorem stays_executeWorker :
    StaysIn env sandbox own see (fun _ => True) (FileProgram.executeWorker env job) := by
  apply stays_bind (stays_compileCheckerCode boxed accessible)
  rintro ⟨checkerBin, compileResult⟩ _
  cases checkerBin with
  | none => exact stays_pure trivial
  | some checkerBin =>
    apply stays_bind (stays_compileUserCode boxed job)
    rintro ⟨userCodeBin, compileResult⟩ _
    cases userCodeBin with
    | none => exact stays_pure trivial
    | some userCodeBin =>
      dsimp only
      split
      · exact stays_pure trivial
      · exact stays_runTests boxed accessible _ _ _ _

omit accessible

private theorem stays_start {jobs : List (Job × Option String)}
    (accessible : ∀ entry ∈ jobs, Accessible own see entry.1) :
    StaysIn env sandbox own see (fun _ => True) (FileProgram.start env jobs) := by
  induction jobs with
  | nil => exact stays_pure trivial
  | cons entry jobs ih =>
    obtain ⟨job, compiledBin⟩ := entry
    obtain ⟨mine, later⟩ := List.forall_mem_cons.mp accessible
    have judged : StaysIn env sandbox own see (fun _ => True) (FileProgram.runWorker env job compiledBin) := by
      refine stays_bind (stays_reInitialize boxed) fun _ _ => ?_
      refine stays_bind (stays_modify fun _ seated => seated) fun _ _ => ?_
      exact stays_executeWorker boxed mine
    refine stays_bind judged fun _ _ => ?_
    exact stays_bind (ih later) fun _ _ => stays_pure trivial

end StaysIn

/-- The directory that `isolate --init` prints for a box. -/
def boxRoot (boxId : ℕ) : String := join "/var/local/lib/isolate" (toString boxId)

/-- The sandbox of `NewSandbox`. -/
def newSandbox (boxId : ℕ) : Sandbox := ⟨boxId, boxRoot boxId, join (boxRoot boxId) "box"⟩

/-- A worker with the jobs that it takes, each with what `CompileCheckerCode` finds in the cache item of its problem:
the binary that a worker has compiled before, or nothing, and then it compiles the checker. -/
structure Shift where
  env : Environment
  jobs : List (Job × Option String)
  seat : Seat

section Pool

variable {n : ℕ} (shifts : Fin n → Shift)

/-- The paths of a worker: its box, and the outputs of its jobs. -/
def ownPaths (i : Fin n) : Set String :=
  Filepath.below (boxRoot (i + 1)) ∪
    {path | ∃ entry ∈ (shifts i).jobs, path ∈ Filepath.below entry.1.getOutputDir}

/-- The paths that are of no other worker. -/
def seenPaths (i : Fin n) : Set String := {path | ∀ j, j ≠ i → path ∉ ownPaths shifts j}

/-- No submission is judged by two workers. -/
structure SeparateJobs : Prop where
  numbered : ∀ i, ∀ entry ∈ (shifts i).jobs, ∃ id : ℕ, entry.1.submissionData.submissionId = toString id
  once : ∀ i, ∀ entry ∈ (shifts i).jobs, ∀ j, ∀ entry' ∈ (shifts j).jobs,
    entry.1.submissionData.submissionId = entry'.1.submissionData.submissionId → i = j

/-- Worker `i` of the pool sits in box `i + 1`, its problems are in the cache, and `isolate` keeps the commands in a
box from the paths of other workers. -/
structure Staffed : Prop extends SeparateJobs shifts where
  seated : ∀ i, (shifts i).seat.sandbox = newSandbox (i + 1)
  cached : ∀ i, ∀ entry ∈ (shifts i).jobs, ∃ key, entry.1.problemData.localProblemDir = tmpDir ++ key
  prints : ∀ (i : Fin n) invocation files,
    ((shifts i).env.isolate invocation (.init (i + 1)) files).error = none →
      trimSpace ((shifts i).env.isolate invocation (.init (i + 1)) files).stdout = boxRoot (i + 1)
  confined : ∀ (i : Fin n) invocation (command : IsolateCommand), command.boxId = i + 1 →
    Program.Local Files.cell (FileCall.perform (shifts i).env) (ownPaths shifts i) (seenPaths shifts i)
      (.isolate invocation command)

/-- The workers take turns on their files, in the order of a schedule. -/
def judgeTogether (files : Files) (schedule : List (Fin n)) :
    (Fin n → Program FileCall.Reply (List (List Models.Result) × Seat)) × Files :=
  Program.interleave (fun i => FileCall.perform (shifts i).env)
    (fun i => FileProgram.start (shifts i).env (shifts i).jobs (shifts i).seat) files schedule

variable {shifts}

private theorem slash_notMem_toString (id : ℕ) : '/' ∉ (toString id).toList := by
  intro member
  have digit := Nat.isDigit_of_mem_toString member
  exact absurd digit (by decide)

private theorem join_of_ne {directory : String} (some : directory ≠ "") (name : String) :
    join directory name = directory ++ "/" ++ name := if_neg some

private theorem boxRoot_eq (boxId : ℕ) : boxRoot boxId = "/var/local/lib/isolate" ++ "/" ++ toString boxId :=
  join_of_ne (by decide) _

private theorem boxRoot_ne_empty (boxId : ℕ) : boxRoot boxId ≠ "" := by
  rw [boxRoot_eq]
  simp

private theorem getOutputDir_eq {job : Job} {id : ℕ} (numbered : job.submissionData.submissionId = toString id) :
    job.getOutputDir = "/tmp/execution-engine" ++ "/" ++ toString id ++ "/" ++ "output" := by
  have localDir : job.localDir = "/tmp/execution-engine" ++ "/" ++ toString id := by
    rw [Job.localDir, numbered]
    exact join_of_ne (by decide) _
  rw [Job.getOutputDir, localDir]
  exact join_of_ne (by simp) _

private theorem segments_boxRoot (boxId : ℕ) :
    Path.segments (boxRoot boxId) = ["", "var", "local", "lib", "isolate", toString boxId] := by
  rw [boxRoot_eq, Path.segments_join, Path.segments_of_notMem (slash_notMem_toString boxId)]
  rfl

private theorem segments_getOutputDir {job : Job} {id : ℕ} (numbered : job.submissionData.submissionId = toString id) :
    Path.segments job.getOutputDir = ["", "tmp", "execution-engine", toString id, "output"] := by
  rw [getOutputDir_eq numbered, Path.segments_join, Path.segments_join,
    Path.segments_of_notMem (slash_notMem_toString id)]
  rfl

private theorem notMem_boxRoot {a b : ℕ} (differs : a ≠ b) :
    ∀ path ∈ Filepath.below (boxRoot a), path ∉ Filepath.below (boxRoot b) :=
  @Filepath.notMem_below _ _ _ _ ["", "var", "local", "lib", "isolate"] _ _ (segments_boxRoot a) (segments_boxRoot b)
    (Nat.toString_injective.ne differs)

private theorem notMem_output_of_boxRoot {job : Job} {id : ℕ} (boxId : ℕ)
    (numbered : job.submissionData.submissionId = toString id) :
    ∀ path ∈ Filepath.below (boxRoot boxId), path ∉ Filepath.below job.getOutputDir :=
  @Filepath.notMem_below _ _ _ _ [""] _ _ (segments_boxRoot boxId) (segments_getOutputDir numbered) (by decide)

private theorem notMem_output {job job' : Job} {id id' : ℕ} (numbered : job.submissionData.submissionId = toString id)
    (numbered' : job'.submissionData.submissionId = toString id') (differs : id ≠ id') :
    ∀ path ∈ Filepath.below job.getOutputDir, path ∉ Filepath.below job'.getOutputDir :=
  @Filepath.notMem_below _ _ _ _ ["", "tmp", "execution-engine"] _ _ (segments_getOutputDir numbered)
    (segments_getOutputDir numbered') (Nat.toString_injective.ne differs)

variable (separate : SeparateJobs shifts)

include separate

/-- No path is of two workers. -/
theorem notMem_ownPaths {i j : Fin n} (other : i ≠ j) : ∀ path ∈ ownPaths shifts i, path ∉ ownPaths shifts j := by
  rintro path (box | ⟨entry, taken, output⟩) (box' | ⟨entry', taken', output'⟩)
  · have differs : (i : ℕ) + 1 ≠ j + 1 := by omega
    exact notMem_boxRoot differs path box box'
  · obtain ⟨id, numbered⟩ := separate.numbered j entry' taken'
    exact notMem_output_of_boxRoot _ numbered path box output'
  · obtain ⟨id, numbered⟩ := separate.numbered i entry taken
    exact notMem_output_of_boxRoot _ numbered path box' output
  · obtain ⟨id, numbered⟩ := separate.numbered i entry taken
    obtain ⟨id', numbered'⟩ := separate.numbered j entry' taken'
    have differs : id ≠ id' := by
      rintro rfl
      exact other (separate.once i entry taken j entry' taken' (numbered.trans numbered'.symm))
    exact notMem_output numbered numbered' differs path output output'

/-- The packages of problems are of no worker. -/
theorem notMem_ownPaths_of_package {path : String} (package : path ∈ Filepath.below "/tmp/execution-engine/problems")
    (j : Fin n) : path ∉ ownPaths shifts j := by
  rintro (box | ⟨entry, taken, output⟩)
  · have parted := @Filepath.notMem_below _ "/tmp/execution-engine/problems" _ _ [""] _ _ (segments_boxRoot (j + 1))
      rfl (by decide)
    exact parted path box package
  · obtain ⟨id, numbered⟩ := separate.numbered j entry taken
    have differs : toString id ≠ "problems" := by
      intro same
      have digit : ('p' : Char).isDigit := Nat.isDigit_of_mem_toString (n := id) (same ▸ by decide)
      exact absurd digit (by decide)
    have parted := @Filepath.notMem_below _ "/tmp/execution-engine/problems" _ _ ["", "tmp", "execution-engine"] _ _
      (segments_getOutputDir numbered) rfl differs
    exact parted path output package

private theorem ownPaths_subset_seenPaths (i : Fin n) : ownPaths shifts i ⊆ seenPaths shifts i :=
  fun path mine _ other => notMem_ownPaths separate other.symm path mine

omit separate in
private theorem join_boxDir_mem (i : Fin n) (name : String) :
    join (newSandbox (i + 1)).boxDir name ∈ ownPaths shifts i := by
  refine .inl ⟨"box" ++ "/" ++ name, ?_⟩
  rw [newSandbox, join_of_ne (boxRoot_ne_empty _), join_of_ne (by simp)]
  simp only [String.append_assoc]

omit separate

variable (staffed : Staffed shifts)

include staffed

private theorem boxed_newSandbox (i : Fin n) :
    Boxed (shifts i).env (newSandbox (i + 1)) (ownPaths shifts i) (seenPaths shifts i) where
  boxDir := rfl
  inside := join_boxDir_mem i
  visible := ownPaths_subset_seenPaths staffed.toSeparateJobs i
  workDir invocation files succeeded := staffed.prints i invocation files succeeded
  confined := staffed.confined i

private theorem accessible_of_mem {i : Fin n} {entry : Job × Option String} (taken : entry ∈ (shifts i).jobs) :
    Accessible (ownPaths shifts i) (seenPaths shifts i) entry.1 := by
  obtain ⟨key, cached⟩ := staffed.cached i entry taken
  have start : tmpDir = "/tmp/execution-engine/problems" ++ "/" := rfl
  have join_start (name : String) : join entry.1.problemData.localProblemDir name = tmpDir ++ key ++ "/" ++ name := by
    rw [cached, join_of_ne]
    simp [start]
  -- Whatever starts with the directory of the package is in sight.
  have package (rest : String) : tmpDir ++ key ++ "/" ++ rest ∈ seenPaths shifts i := by
    intro j _
    refine notMem_ownPaths_of_package staffed.toSeparateJobs ⟨key ++ "/" ++ rest, ?_⟩ j
    rw [start]
    simp only [String.append_assoc]
  have below (directory name : String) :
      join (tmpDir ++ key ++ "/" ++ directory) name = tmpDir ++ key ++ "/" ++ (directory ++ "/" ++ name) := by
    rw [join_of_ne]
    · simp only [String.append_assoc]
    · simp [start]
  have test (test : ℕ) : entry.1.problemData.getTestFilePath test =
      tmpDir ++ key ++ "/" ++ ("tests" ++ "/" ++ entry.1.problemData.getTestFileName test) := by
    rw [ProblemData.getTestFilePath, ProblemData.getTestsDir, join_start, below]
  refine ⟨?_, ?_, fun name => ?_, fun number => ?_, fun number => ?_, fun number => .inr ⟨entry, taken, ?_⟩⟩
  · rw [ProblemData.getCheckerSourcePath, join_start]
    exact package _
  · rw [ProblemData.getResourcesFolder, join_start]
    exact package _
  · rw [ProblemData.getResourcesFolder, join_start, below]
    exact package _
  · rw [test]
    exact package _
  · rw [ProblemData.getAnswerFilePath, test, String.append_assoc]
    exact package _
  · obtain ⟨id, numbered⟩ := staffed.numbered i entry taken
    refine ⟨entry.1.getOutputFileName number, ?_⟩
    rw [Job.getOutputFilePath, join_of_ne]
    rw [getOutputDir_eq numbered]
    simp

/-- The workers of a pool judge at once: in every order of their calls, the packages of the problems stay as they
are, and each worker that gets enough turns has the results of judging its jobs one after the other alone, with what
it has found in the cache items of the checkers. -/
theorem workers_judge_alone (files : Files) :
    (∀ (schedule : List (Fin n)), ∀ path ∈ Filepath.below "/tmp/execution-engine/problems",
      (judgeTogether shifts files schedule).2.cell path = files.cell path) ∧
    ∀ i : Fin n, ∃ turns, ∀ schedule : List (Fin n), turns ≤ schedule.count i → ∃ seat,
      (judgeTogether shifts files schedule).1 i =
        .done ((((shifts i).seat.world files).start (shifts i).env (shifts i).jobs).1, seat) := by
  have within (i : Fin n) := stays_start (boxed_newSandbox staffed i) (fun _ => accessible_of_mem staffed)
    (shifts i).seat (staffed.seated i)
  have foreign (i j : Fin n) (other : i ≠ j) : ∀ path ∈ ownPaths shifts i, path ∉ seenPaths shifts j :=
    fun path mine seen => seen i other mine
  constructor
  · intro schedule path package
    exact Program.interleave_frame within schedule (notMem_ownPaths_of_package staffed.toSeparateJobs package)
  · intro i
    let program := FileProgram.start (shifts i).env (shifts i).jobs (shifts i).seat
    refine ⟨program.calls (FileCall.perform (shifts i).env) files, fun schedule enough => ?_⟩
    have finished := (Program.interleave_eq_done foreign within enough).1
    rw [← FileProgram.exec_start]
    exact ⟨_, finished⟩

end Pool

/-- An `isolate` that runs every program without output and without error. -/
def quietIsolate : IsolateCommand → Files → Outcome
  | .init boxId, files => ⟨none, boxRoot boxId ++ "\n", "", files⟩
  | .run boxId _ _ _, files =>
    ⟨none, "", "", (files.write (newSandbox boxId).getMetadataPath "time:0.001\nmax-rss:1000\nexitcode:0\n").2⟩

def quietEnvironment : Environment where
  isolate _ := quietIsolate
  compileCommand _ := some []
  executeCommand _ := some ["./source"]

def quietShifts (i : Fin 2) : Shift where
  env := quietEnvironment
  jobs := [(⟨⟨toString (i : ℕ), "", "c", "", "RATED", "", 0⟩,
    ⟨"p", 1000, 1000, 2, "c", tmpDir ++ "p_1", "k"⟩⟩, if i = 0 then none else some "checker")]
  seat := ⟨newSandbox (i + 1), 0, [], none⟩

private theorem separate_quietShifts : SeparateJobs quietShifts where
  numbered i entry taken := ⟨i, congrArg (·.1.submissionData.submissionId) (List.mem_singleton.mp taken)⟩
  once := by
    rintro i entry taken j entry' taken' same
    rw [List.mem_singleton.mp taken, List.mem_singleton.mp taken'] at same
    exact Fin.ext (Nat.toString_injective same)

private theorem staffed_quietShifts : Staffed quietShifts where
  toSeparateJobs := separate_quietShifts
  seated _ := rfl
  cached i entry taken := ⟨_, congrArg (·.1.problemData.localProblemDir) (List.mem_singleton.mp taken)⟩
  prints i _ _ _ := by
    have trimmed : ∀ i : Fin 2, trimSpace (boxRoot (i + 1) ++ "\n") = boxRoot (i + 1) := by decide +kernel
    exact trimmed i
  confined i invocation command mine := by
    have owned : (newSandbox (i + 1)).getMetadataPath ∈ ownPaths quietShifts i := join_boxDir_mem i _
    have written := @local_write quietEnvironment _ _ _ (ownPaths_subset_seenPaths separate_quietShifts i)
      "time:0.001\nmax-rss:1000\nexitcode:0\n" owned
    cases command with
    | init boxId => exact ⟨fun _ _ _ => rfl, fun _ _ agree => agree, fun _ _ _ => rfl⟩
    | run boxId config options arguments =>
      obtain rfl : boxId = i + 1 := mine
      exact ⟨fun _ _ _ => rfl, written.agree, written.frame⟩

/-- Two workers with a submission each to the same problem. -/
theorem two_workers_judge_alone :
    ∃ turns, ∀ schedule : List (Fin 2), turns ≤ schedule.count 1 → ∃ seat,
      (judgeTogether quietShifts ⟨fun _ => none, fun _ => "", fun _ => none, fun _ => []⟩ schedule).1 1 =
        .done (((quietShifts 1).seat.world ⟨fun _ => none, fun _ => "", fun _ => none, fun _ => []⟩).start
          quietEnvironment (quietShifts 1).jobs |>.1, seat) :=
  (workers_judge_alone staffed_quietShifts _).2 1

end JudgeSelf.Engine
