import JudgeSelf.Model.Engine.Logged

/-! # When an AC is justified

The verdict of a job rests on the metadata files alone. A job gets AC exactly when every run of
isolate for a test leaves a file that names no failure, and the error of a run that did not take
place or did not succeed is not looked at.
-/

namespace JudgeSelf.Engine

/-- The run took place, and isolate returned no error. -/
def RunSucceeded (runs : List IsolateRun) (purpose : Purpose) : Prop :=
  (∃ run ∈ runs, run.purpose = purpose) ∧ ∀ run ∈ runs, run.purpose = purpose → run.error = none

instance (runs : List IsolateRun) (purpose : Purpose) : Decidable (RunSucceeded runs purpose) :=
  inferInstanceAs (Decidable (_ ∧ _))

/-- Each test has two runs in the schedule. -/
private theorem mem_purposes {count : ℤ} {runs : List IsolateRun} {test : ℕ}
    (all : runs.map IsolateRun.purpose = schedule count.toNat 1) (least : 1 ≤ test) (most : (test : ℤ) ≤ count) :
    (∃ run ∈ runs, run.purpose = .userCode test) ∧ ∃ run ∈ runs, run.purpose = .checker test := by
  have within : test < 1 + count.toNat := by omega
  have user : .userCode test ∈ runs.map IsolateRun.purpose := by
    rw [all, mem_schedule]
    exact ⟨test, least, within, .inl rfl⟩
  have checker : .checker test ∈ runs.map IsolateRun.purpose := by
    rw [all, mem_schedule]
    exact ⟨test, least, within, .inr rfl⟩
  exact ⟨List.mem_map.mp user, List.mem_map.mp checker⟩

/-- An AC is justified exactly when isolate does not fail a run of a test and still leave clean
metadata after it and after all other runs of the job's tests. -/
theorem no_false_accept_iff (env : Environment) (job : Job) (w : World) (tests : 1 ≤ job.problemData.testCount) :
    (LastAccepts (executeWorker env job w).1 → ∀ test : ℕ, 1 ≤ test → (test : ℤ) ≤ job.problemData.testCount →
        RunSucceeded (jobRuns env job w) (.userCode test) ∧ RunSucceeded (jobRuns env job w) (.checker test)) ↔
      ((∀ run ∈ jobRuns env job w, run.purpose ≠ .compile → run.LeavesClean) →
        ∀ run ∈ jobRuns env job w, run.purpose ≠ .compile → run.error = none) := by
  obtain ⟨compilations, runs, ofCompile, mine, ended⟩ := executeWorker_logged env job w
  have ofTest : ∀ run ∈ runs, run.purpose ≠ .compile := by
    rcases ended with ⟨rfl, _⟩ | rest
    · exact List.forall_mem_nil _
    · exact rest.purposes
  have tested (P : IsolateRun → Prop) :
      (∀ run ∈ jobRuns env job w, run.purpose ≠ .compile → P run) ↔ ∀ run ∈ runs, P run := by
    rw [mine, List.forall_mem_append]
    constructor
    · exact fun all run member => all.2 run member (ofTest run member)
    · exact fun all => ⟨fun run member other => absurd (ofCompile run member) other, fun run member _ => all run member⟩
  rw [tested, tested]
  rcases ended with ⟨rfl, rejected⟩ | rest
  · exact ⟨fun _ _ => List.forall_mem_nil _, fun _ accepts => absurd accepts rejected⟩
  · have accepts_iff := rest.lastAccepts_iff (by omega)
    constructor
    · intro justified clean run member
      have planned : run.purpose ∈ schedule job.problemData.testCount.toNat 1 := by
        rw [← rest.complete clean]
        exact List.mem_map_of_mem member
      have present : run ∈ jobRuns env job w := by
        rw [mine]
        exact List.mem_append_right _ member
      obtain ⟨test, least, below, ofUser | ofChecker⟩ := mem_schedule.mp planned
      · exact (justified (accepts_iff.mpr clean) test least (by omega)).1.2 run present ofUser
      · exact (justified (accepts_iff.mpr clean) test least (by omega)).2.2 run present ofChecker
    · intro careful accepts test least most
      have clean := accepts_iff.mp accepts
      have succeeded {purpose : Purpose} (other : purpose ≠ .compile)
          (some : ∃ run ∈ runs, run.purpose = purpose) : RunSucceeded (jobRuns env job w) purpose := by
        obtain ⟨run, member, ofPurpose⟩ := some
        rw [RunSucceeded, mine]
        refine ⟨⟨run, List.mem_append_right _ member, ofPurpose⟩, ?_⟩
        rintro run member rfl
        rcases List.mem_append.mp member with compiled | executed
        · exact absurd (ofCompile run compiled) other
        · exact careful clean run executed
      obtain ⟨user, checker⟩ := mem_purposes (rest.complete clean) least most
      exact ⟨succeeded nofun user, succeeded nofun checker⟩

/-- With an isolate that reports no error, the AC of the job is justified. -/
theorem pythonJob_accept_justified :
    LastAccepts (executeWorker (steadyIsolate none "") pythonJob idleWorker).1 ∧
      ∀ test : ℕ, 1 ≤ test → (test : ℤ) ≤ pythonJob.problemData.testCount →
        RunSucceeded (jobRuns (steadyIsolate none "") pythonJob idleWorker) (.userCode test) ∧
          RunSucceeded (jobRuns (steadyIsolate none "") pythonJob idleWorker) (.checker test) := by
  have accepts : LastAccepts (executeWorker (steadyIsolate none "") pythonJob idleWorker).1 := by decide +kernel
  exact ⟨accepts, (no_false_accept_iff _ _ _ (by decide)).mpr (fun _ => by decide +kernel) accepts⟩

/-- When no run of isolate can be started, the metadata file stays empty and the job gets AC. -/
theorem unstarted_runs_are_accepted :
    LastAccepts
        (executeWorker (steadyIsolate "fork/exec: resource temporarily unavailable" "") pythonJob idleWorker).1 ∧
      ¬ RunSucceeded (jobRuns (steadyIsolate "fork/exec: resource temporarily unavailable" "") pythonJob idleWorker)
        (.userCode 1) := by
  decide +kernel

end JudgeSelf.Engine
