import JudgeSelf.Model.Engine.Worker

/-! # What an execution logs

Every run of isolate for a test is logged, and the last run gives the status of the last result.
`executeWorker_logged` says how the results of a job depend on the log.
-/

namespace JudgeSelf.Engine

/-- The statuses of a job that does not get to its tests. -/
def compileStatuses : List String := ["CE", "INT"]

/-- Compiling the checker logs compilations only, and its failure has a status of its own. -/
theorem compileCheckerCode_spec (env : Environment) (job : Job) (w : World) :
    (∃ runs : List IsolateRun, (∀ run ∈ runs, run.purpose = .compile) ∧
        (compileCheckerCode env job w).2.2.runs = w.runs ++ runs) ∧
      ((compileCheckerCode env job w).1 = none → (compileCheckerCode env job w).2.1.status ∈ compileStatuses) := by
  rw [compileCheckerCode]
  split
  · exact ⟨⟨[], List.forall_mem_nil _, (List.append_nil _).symm⟩, nofun⟩
  · obtain ⟨runs, ofCompile, logged⟩ := runs_compileCode env
      (w.files.contents job.problemData.getCheckerSourcePath) job.problemData.checkerLanguage
      job.problemData.getResourcesFolder getDefaultConfig w
    dsimp only
    split
    · next compiled => exact ⟨⟨runs, ofCompile, by rw [compiled] at logged; exact logged⟩, nofun⟩
    · next failed =>
      refine ⟨⟨runs, ofCompile, by rw [failed] at logged; exact logged⟩, fun _ => ?_⟩
      rw [formatResult_status]
      decide

private theorem failedCompilation_status_mem (result : Result) :
    (failedCompilation result).status ∈ compileStatuses := by
  rw [failedCompilation]
  split
  · rw [formatResult_status]
    decide
  · dsimp only
    split
    · rw [formatResult_status]
      decide
    · split <;> rw [formatResult_status] <;> decide

private theorem compileUserCode_spec (env : Environment) (job : Job) (w : World) :
    (∃ runs : List IsolateRun, (∀ run ∈ runs, run.purpose = .compile) ∧
        (compileUserCode env job w).2.2.runs = w.runs ++ runs) ∧
      ((compileUserCode env job w).1 = none → (compileUserCode env job w).2.1.status ∈ compileStatuses) := by
  obtain ⟨runs, ofCompile, logged⟩ := runs_compileCode env (some job.submissionData.sourceCode)
    job.submissionData.sourceLanguage "" getDefaultConfig w
  rw [compileUserCode]
  split
  · next compiled => exact ⟨⟨runs, ofCompile, by rw [compiled] at logged; exact logged⟩, nofun⟩
  · next result _ failed =>
    exact ⟨⟨runs, ofCompile, by rw [failed] at logged; exact logged⟩, fun _ => failedCompilation_status_mem result⟩

/-- The status of the user's program on a test, from the metadata of its run. -/
def userCodeStatus (metadata : Option IsolateMetadata) : String :=
  (metadata.map fun parsed => (formatIsolateMetadata parsed false).1).getD "INT"

/-- The status of the checker on a test, from the metadata of its run. -/
def checkerStatus (metadata : Option IsolateMetadata) : String :=
  let status := (metadata.map fun parsed => (formatIsolateMetadata parsed true).1).getD "INT"
  if status ∈ ["AC", "WA", "INT"] then status else "FAIL"

private theorem formatUserCode_status (result : Result) :
    (formatUserCode result).status = userCodeStatus result.isolateMetadata := by
  rw [formatUserCode]
  split
  · next absent => rw [formatResult_status, absent, userCodeStatus, Option.map_none, Option.getD_none]
  · next metadata present =>
    rw [present, userCodeStatus, Option.map_some, Option.getD_some]
    dsimp only
    split
    · next internal => rw [formatResult_status, internal]
    · rw [formatResult_status]

private theorem formatChecker_status (result : Result) :
    (formatChecker result).status = checkerStatus result.isolateMetadata := by
  rw [formatChecker]
  split
  · next absent =>
    rw [formatResult_status, absent, checkerStatus, Option.map_none, Option.getD_none, if_pos (by decide)]
  · next metadata present =>
    rw [present, checkerStatus, Option.map_some, Option.getD_some]
    dsimp only
    split
    · next internal => rw [formatResult_status, internal, if_pos (by decide)]
    · next other =>
      split
      · next unexpected => rw [formatResult_status, if_neg (by simp [unexpected, other])]
      · next expected =>
        rw [not_and_or, not_not, not_not] at expected
        rw [formatResult_status, if_pos (by rcases expected with same | same <;> simp [same])]

/-- The status that the result of a test takes from a run. -/
def IsolateRun.Reports (run : IsolateRun) (status : String) : Prop :=
  match run.purpose with
  | .compile => False
  | .userCode _ => status = userCodeStatus run.metadata
  | .checker _ => status = checkerStatus run.metadata

/-- The run left a metadata file that names no failure. -/
def IsolateRun.LeavesClean (run : IsolateRun) : Prop := ∃ metadata, run.metadata = some metadata ∧ metadata.Clean

private theorem userCodeStatus_accepts_iff (metadata : Option IsolateMetadata) :
    userCodeStatus metadata = "AC" ↔ ∃ parsed, metadata = some parsed ∧ parsed.Clean := by
  cases metadata with
  | none => simp [userCodeStatus]
  | some parsed => simpa [userCodeStatus] using formatIsolateMetadata_accepts_iff parsed false

private theorem checkerStatus_accepts_iff (metadata : Option IsolateMetadata) :
    checkerStatus metadata = "AC" ↔ ∃ parsed, metadata = some parsed ∧ parsed.Clean := by
  cases metadata with
  | none => simp [checkerStatus]
  | some parsed =>
    have accepts := formatIsolateMetadata_accepts_iff parsed true
    rw [checkerStatus, Option.map_some, Option.getD_some]
    split
    · simpa using accepts
    · next unexpected =>
      have unclean : ¬ parsed.Clean := fun clean => unexpected (by rw [accepts.mpr clean]; decide)
      simpa using unclean

private theorem userCodeStatus_mem_statuses (metadata : Option IsolateMetadata) :
    userCodeStatus metadata ∈ statuses := by
  cases metadata with
  | none => exact List.mem_of_elem_eq_true rfl
  | some parsed => exact formatIsolateMetadata_mem_statuses parsed false

private theorem checkerStatus_mem_statuses (metadata : Option IsolateMetadata) : checkerStatus metadata ∈ statuses := by
  rw [checkerStatus]
  split
  · next expected =>
    have known : ["AC", "WA", "INT"] ⊆ statuses := by decide
    exact known expected
  · decide

/-- A run is reported as AC on clean metadata alone. -/
theorem IsolateRun.Reports.accepts_iff {run : IsolateRun} {status : String} (reports : run.Reports status) :
    status = "AC" ↔ run.LeavesClean := by
  rw [IsolateRun.Reports] at reports
  split at reports
  · contradiction
  · rw [reports]
    exact userCodeStatus_accepts_iff run.metadata
  · rw [reports]
    exact checkerStatus_accepts_iff run.metadata

/-- The user program is run once, and its run gives the status. -/
theorem executeUserCode_spec (env : Environment) (job : Job) (test : ℕ)
    (userCodeBin testInputPath testOutputPath : String) (w : World) :
    ∃ run : IsolateRun, run.purpose = .userCode test ∧
      (executeUserCode env job test userCodeBin testInputPath testOutputPath w).2.runs = w.runs ++ [run] ∧
      run.Reports (executeUserCode env job test userCodeBin testInputPath testOutputPath w).1.status := by
  obtain ⟨err, logged⟩ := runs_executeCode env (.userCode test) userCodeBin job.submissionData.sourceLanguage
    testInputPath testOutputPath "" [] _ w
  exact ⟨_, rfl, logged, formatUserCode_status _⟩

theorem executeChecker_spec (env : Environment) (job : Job) (test : ℕ)
    (checkerBin testInputPath testOutputPath testAnswerPath : String) (w : World) :
    ∃ run : IsolateRun, run.purpose = .checker test ∧
      (executeChecker env job test checkerBin testInputPath testOutputPath testAnswerPath w).2.runs =
        w.runs ++ [run] ∧
      run.Reports (executeChecker env job test checkerBin testInputPath testOutputPath testAnswerPath w).1.status := by
  obtain ⟨err, logged⟩ := runs_executeCode env (.checker test) checkerBin job.problemData.checkerLanguage
    "" "" "" _ _ w
  exact ⟨_, rfl, logged, formatChecker_status _⟩

/-- The runs of isolate that a job adds to the log. -/
def jobRuns (env : Environment) (job : Job) (w : World) : List IsolateRun :=
  (executeWorker env job w).2.runs.drop w.runs.length

/-- The last result, on which the verdict rests, is AC. -/
def LastAccepts (results : List Models.Result) : Prop := results.getLast?.map Models.Result.status = some "AC"

instance (results : List Models.Result) : Decidable (LastAccepts results) := inferInstanceAs (Decidable (_ = _))

/-- The runs of an execution that passes all tests from `test` on. -/
def schedule : ℕ → ℕ → List Purpose
  | 0, _ => []
  | remaining + 1, test => .userCode test :: .checker test :: schedule remaining (test + 1)

theorem mem_schedule {remaining test : ℕ} {purpose : Purpose} :
    purpose ∈ schedule remaining test ↔
      ∃ t, test ≤ t ∧ t < test + remaining ∧ (purpose = .userCode t ∨ purpose = .checker t) := by
  induction remaining generalizing test with
  | zero =>
    rw [schedule]
    refine ⟨fun member => absurd member List.not_mem_nil, ?_⟩
    rintro ⟨t, least, below, _⟩
    omega
  | succ remaining ih =>
    rw [schedule, List.mem_cons, List.mem_cons, ih, ← or_assoc]
    constructor
    · rintro (here | ⟨t, least, below, later⟩)
      · exact ⟨test, le_rfl, by omega, here⟩
      · exact ⟨t, by omega, by omega, later⟩
    · rintro ⟨t, least, below, either⟩
      rcases least.eq_or_lt with rfl | later
      · exact .inl either
      · exact .inr ⟨t, later, by omega, either⟩

/-- How the results of the loop depend on the runs that it logs: all runs but the last are clean, and
the last one gives the status of the last result. -/
structure TestsLogged (remaining test : ℕ) (results : List Models.Result) (runs : List IsolateRun) : Prop where
  purposes : ∀ run ∈ runs, run.purpose ≠ .compile
  nonempty : remaining ≠ 0 → results ≠ []
  complete : (∀ run ∈ runs, run.LeavesClean) → runs.map IsolateRun.purpose = schedule remaining test
  front : ∀ run ∈ runs.dropLast, run.LeavesClean
  reports : Option.Rel (fun last run => run.Reports last.status) results.getLast? runs.getLast?

/-- The loop ends at a run that is not reported as AC. -/
theorem TestsLogged.of_rejected {remaining test : ℕ} {last : Models.Result} {front : List IsolateRun}
    {run : IsolateRun} (purposes : ∀ other ∈ front ++ [run], other.purpose ≠ .compile)
    (clean : ∀ other ∈ front, other.LeavesClean) (reports : run.Reports last.status) (rejected : last.status ≠ "AC") :
    TestsLogged remaining test [last] (front ++ [run]) where
  purposes := purposes
  nonempty _ := List.cons_ne_nil _ _
  complete all := absurd (reports.accepts_iff.mpr (all run (by simp))) rejected
  front := by rwa [List.dropLast_concat]
  reports := by
    rw [List.getLast?_singleton, List.getLast?_concat]
    exact .some reports

/-- A test with two clean runs is followed by the rest of the loop. -/
theorem TestsLogged.cons {remaining test : ℕ} {result : Models.Result} {results : List Models.Result}
    {user checker : IsolateRun} {runs : List IsolateRun} (rest : TestsLogged remaining (test + 1) results runs)
    (ofUser : user.purpose = .userCode test) (ofChecker : checker.purpose = .checker test)
    (cleanUser : user.LeavesClean) (cleanChecker : checker.LeavesClean) (reported : checker.Reports result.status) :
    TestsLogged (remaining + 1) test (result :: results) (user :: checker :: runs) where
  purposes := by
    rw [List.forall_mem_cons, List.forall_mem_cons, ofUser, ofChecker]
    exact ⟨nofun, nofun, rest.purposes⟩
  nonempty _ := List.cons_ne_nil _ _
  complete clean := by
    rw [List.forall_mem_cons, List.forall_mem_cons] at clean
    rw [List.map_cons, List.map_cons, ofUser, ofChecker, rest.complete clean.2.2, schedule]
  front := by
    cases runs with
    | nil => simpa using cleanUser
    | cons run runs =>
      rw [List.dropLast_cons_of_ne_nil (List.cons_ne_nil _ _), List.dropLast_cons_of_ne_nil (List.cons_ne_nil _ _),
        List.forall_mem_cons, List.forall_mem_cons]
      exact ⟨cleanUser, cleanChecker, rest.front⟩
  reports := by
    have last := rest.reports
    rw [List.getLast?_cons, List.getLast?_cons, List.getLast?_cons]
    generalize results.getLast? = lastResult at last ⊢
    generalize runs.getLast? = lastRun at last ⊢
    cases last with
    | some here => exact .some here
    | none => exact .some reported

/-- The loop ends with an AC exactly when all its runs are clean. -/
theorem TestsLogged.lastAccepts_iff {remaining test : ℕ} {results : List Models.Result} {runs : List IsolateRun}
    (logged : TestsLogged remaining test results runs) (some : remaining ≠ 0) :
    LastAccepts results ↔ ∀ run ∈ runs, run.LeavesClean := by
  have reports := logged.reports
  rw [LastAccepts]
  rcases ending : results.getLast? with _ | last
  · exact absurd (List.getLast?_eq_none_iff.mp ending) (logged.nonempty some)
  · rcases lastRun : runs.getLast? with _ | run
    · rw [ending, lastRun] at reports
      contradiction
    · rw [ending, lastRun] at reports
      obtain ⟨front, rfl⟩ := List.getLast?_eq_some_iff.mp lastRun
      have clean := logged.front
      rw [List.dropLast_concat] at clean
      cases reports with
      | some here =>
        rw [Option.map_some, Option.some_inj, here.accepts_iff, List.forall_mem_append, List.forall_mem_singleton]
        exact (and_iff_right clean).symm

private theorem runTests_logged (env : Environment) (job : Job) (checkerBin userCodeBin : String) (remaining test : ℕ)
    (w : World) :
    ∃ runs, (runTests env job checkerBin userCodeBin remaining test w).2.runs = w.runs ++ runs ∧
      TestsLogged remaining test (runTests env job checkerBin userCodeBin remaining test w).1 runs := by
  induction remaining generalizing test w with
  | zero =>
    refine ⟨[], (List.append_nil _).symm, ?_⟩
    exact ⟨List.forall_mem_nil _, fun some => absurd rfl some, fun _ => rfl, List.forall_mem_nil _, .none⟩
  | succ remaining ih =>
    rw [runTests]
    obtain ⟨user, ofUser, loggedUser, reportsUser⟩ := executeUserCode_spec env job test userCodeBin
      (job.problemData.getTestFilePath test) (job.getOutputFilePath test) w
    rcases ranUser : executeUserCode env job test userCodeBin (job.problemData.getTestFilePath test)
      (job.getOutputFilePath test) w with ⟨userCodeResult, w₁⟩
    rw [ranUser] at loggedUser reportsUser
    dsimp only at loggedUser reportsUser ⊢
    split
    · next rejected =>
      refine ⟨[] ++ [user], loggedUser, .of_rejected ?_ (List.forall_mem_nil _) reportsUser rejected⟩
      simp [ofUser]
    · next accepted =>
      have cleanUser := reportsUser.accepts_iff.mp (not_not.mp accepted)
      obtain ⟨checker, ofChecker, loggedChecker, reportsChecker⟩ := executeChecker_spec env job test checkerBin
        (job.problemData.getTestFilePath test) (job.getOutputFilePath test)
        (job.problemData.getAnswerFilePath test) w₁
      rcases ranChecker : executeChecker env job test checkerBin (job.problemData.getTestFilePath test)
        (job.getOutputFilePath test) (job.problemData.getAnswerFilePath test) w₁ with ⟨checkerResult, w₂⟩
      rw [ranChecker] at loggedChecker reportsChecker
      have logged : w₂.runs = w.runs ++ ([user] ++ [checker]) := by
        rw [loggedChecker, loggedUser, List.append_assoc]
      have purposes : ∀ run ∈ [user] ++ [checker], run.purpose ≠ .compile := by simp [ofUser, ofChecker]
      have clean : ∀ run ∈ [user], run.LeavesClean := List.forall_mem_singleton.mpr cleanUser
      dsimp only
      split
      · next unexpected => exact ⟨_, logged, .of_rejected purposes clean reportsChecker unexpected.1⟩
      · split
        · next wrong =>
          refine ⟨_, logged, .of_rejected purposes clean reportsChecker ?_⟩
          dsimp only
          rw [wrong]
          decide
        · next expected right =>
          have passed : checkerResult.status = "AC" := by
            by_contra other
            exact expected ⟨other, right⟩
          obtain ⟨runs, loggedRest, rest⟩ := ih (test + 1) w₂
          refine ⟨user :: checker :: runs, ?_, rest.cons ofUser ofChecker cleanUser
            (reportsChecker.accepts_iff.mp passed) reportsChecker⟩
          rw [loggedRest, logged, List.append_assoc]
          rfl

/-- A job logs compilations, and then the runs of its tests if it gets that far. -/
theorem executeWorker_logged (env : Environment) (job : Job) (w : World) :
    ∃ compilations runs, (∀ run ∈ compilations, run.purpose = .compile) ∧
      jobRuns env job w = compilations ++ runs ∧
      (runs = [] ∧ ¬ LastAccepts (executeWorker env job w).1 ∨
        TestsLogged job.problemData.testCount.toNat 1 (executeWorker env job w).1 runs) := by
  obtain ⟨⟨first, ofFirst, loggedFirst⟩, failsFirst⟩ := compileCheckerCode_spec env job w
  have drop {world : World} {runs : List IsolateRun} (logged : world.runs = w.runs ++ runs) :
      world.runs.drop w.runs.length = runs := by rw [logged, List.drop_left]
  have unaccepted {result : Models.Result} (failed : result.status ∈ compileStatuses) : ¬ LastAccepts [result] := by
    intro accepts
    have accepted : result.status = "AC" := Option.some.inj accepts
    rw [accepted] at failed
    exact absurd failed (by decide)
  rw [jobRuns, executeWorker]
  rcases compiledChecker : compileCheckerCode env job w with ⟨checkerBin, checkerResult, w₁⟩
  rw [compiledChecker] at loggedFirst failsFirst
  cases checkerBin with
  | none =>
    refine ⟨first, [], ofFirst, by rw [List.append_nil]; exact drop loggedFirst, .inl ⟨rfl, ?_⟩⟩
    exact unaccepted (failsFirst rfl)
  | some checkerBin =>
    obtain ⟨⟨second, ofSecond, loggedSecond⟩, failsSecond⟩ := compileUserCode_spec env job w₁
    dsimp only
    rcases compiledUser : compileUserCode env job w₁ with ⟨userCodeBin, userResult, w₂⟩
    rw [compiledUser] at loggedSecond failsSecond
    have ofBoth : ∀ run ∈ first ++ second, run.purpose = .compile := List.forall_mem_append.mpr ⟨ofFirst, ofSecond⟩
    have loggedBoth : w₂.runs = w.runs ++ (first ++ second) := by
      rw [← List.append_assoc, ← loggedFirst]
      exact loggedSecond
    cases userCodeBin with
    | none =>
      refine ⟨first ++ second, [], ofBoth, by rw [List.append_nil]; exact drop loggedBoth, .inl ⟨rfl, ?_⟩⟩
      exact unaccepted (failsSecond rfl)
    | some userCodeBin =>
      obtain ⟨runs, logged, rest⟩ := runTests_logged env job checkerBin userCodeBin
        job.problemData.testCount.toNat 1 w₂
      dsimp only
      split
      · refine ⟨first ++ second, [], ofBoth, by rw [List.append_nil]; exact drop loggedBoth, .inl ⟨rfl, ?_⟩⟩
        exact unaccepted (by decide)
      · refine ⟨first ++ second, runs, ofBoth, ?_, .inr rest⟩
        apply drop
        rw [logged, loggedBoth, List.append_assoc]

/-- The last run for a test gives the status of the last result. -/
theorem executeWorker_reports {env : Environment} {job : Job} {w : World} {run : IsolateRun}
    (last : (jobRuns env job w).getLast? = some run) (ofTest : run.purpose ≠ .compile) :
    ∃ result, (executeWorker env job w).1.getLast? = some result ∧ run.Reports result.status := by
  obtain ⟨compilations, runs, ofCompile, logged, ended⟩ := executeWorker_logged env job w
  rw [logged, List.getLast?_append] at last
  rcases ended with ⟨rfl, _⟩ | tests
  · rw [List.getLast?_nil, Option.none_or] at last
    exact absurd (ofCompile run (List.mem_of_getLast? last)) ofTest
  · have reports := tests.reports
    rcases ending : runs.getLast? with _ | ender
    · rw [List.getLast?_eq_none_iff.mp ending, List.getLast?_nil, Option.none_or] at last
      exact absurd (ofCompile run (List.mem_of_getLast? last)) ofTest
    · rw [ending, Option.some_or, Option.some_inj] at last
      rw [ending, last] at reports
      generalize (executeWorker env job w).1.getLast? = result at reports ⊢
      cases reports with
      | some here => exact ⟨_, rfl, here⟩

private theorem runTests_mem_statuses (env : Environment) (job : Job) (checkerBin userCodeBin : String)
    (remaining test : ℕ) (w : World) :
    ∀ result ∈ (runTests env job checkerBin userCodeBin remaining test w).1, result.status ∈ statuses := by
  induction remaining generalizing test w with
  | zero => exact List.forall_mem_nil _
  | succ remaining ih =>
    rw [runTests]
    have user : (executeUserCode env job test userCodeBin (job.problemData.getTestFilePath test)
        (job.getOutputFilePath test) w).1.status ∈ statuses := by
      rw [executeUserCode, formatUserCode_status]
      exact userCodeStatus_mem_statuses _
    dsimp only
    split
    · exact List.forall_mem_singleton.mpr user
    · rcases executeUserCode env job test userCodeBin (job.problemData.getTestFilePath test)
        (job.getOutputFilePath test) w with ⟨userCodeResult, w₁⟩
      have checker : (executeChecker env job test checkerBin (job.problemData.getTestFilePath test)
          (job.getOutputFilePath test) (job.problemData.getAnswerFilePath test) w₁).1.status ∈ statuses := by
        rw [executeChecker, formatChecker_status]
        exact checkerStatus_mem_statuses _
      split
      · exact List.forall_mem_singleton.mpr checker
      · split
        · exact List.forall_mem_singleton.mpr checker
        · exact List.forall_mem_cons.mpr ⟨checker, ih _ _⟩

/-- Whatever isolate does, the statuses are those of the engine. -/
theorem executeWorker_mem_statuses (env : Environment) (job : Job) (w : World) :
    ∀ result ∈ (executeWorker env job w).1, result.status ∈ statuses := by
  have known : compileStatuses ⊆ statuses := by decide
  have failsFirst := (compileCheckerCode_spec env job w).2
  rw [executeWorker]
  rcases compiledChecker : compileCheckerCode env job w with ⟨checkerBin, checkerResult, w₁⟩
  rw [compiledChecker] at failsFirst
  cases checkerBin with
  | none => exact List.forall_mem_singleton.mpr (known (failsFirst rfl))
  | some checkerBin =>
    have failsSecond := (compileUserCode_spec env job w₁).2
    dsimp only
    rcases compiledUser : compileUserCode env job w₁ with ⟨userCodeBin, userResult, w₂⟩
    rw [compiledUser] at failsSecond
    cases userCodeBin with
    | none => exact List.forall_mem_singleton.mpr (known (failsSecond rfl))
    | some userCodeBin =>
      dsimp only
      split
      · exact List.forall_mem_singleton.mpr (by decide)
      · exact runTests_mem_statuses env job checkerBin userCodeBin _ _ w₂

/-- A Python submission to a problem with one test. -/
def pythonJob : Job where
  submissionData := ⟨"s", "print(0)", "python", "p", "RATED", "u", 60⟩
  problemData := ⟨"p", 1000, 262144, 1, "cpp.g++17", "/tmp/execution-engine/problems/p_1", "c"⟩

/-- A worker whose problem has a compiled checker. -/
def idleWorker : World where
  files := ⟨fun _ => none, fun _ => "no such file or directory", fun _ => none, fun _ => []⟩
  sandbox := ⟨1, "", ""⟩
  invocations := 0
  runs := []
  compiledBin := some "checker"

/-- An isolate that initialises its box, ends each run with the given error, and leaves the given
text in the metadata file. -/
def steadyIsolate (error : Option String) (metadata : String) : Environment where
  isolate _ command files :=
    match command with
    | .init _ => ⟨none, "/var/lib/isolate/1\n", "", files⟩
    | .run _ _ _ _ => ⟨error, "", "", (files.write "/var/lib/isolate/1/box/metadata.txt" metadata).2⟩
  compileCommand language := if language = "python" then some [] else none
  executeCommand language := if language = "python" then some ["python3", "source"] else some ["./source"]

end JudgeSelf.Engine
