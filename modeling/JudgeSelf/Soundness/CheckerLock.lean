import JudgeSelf.Model.Engine.CacheSteps
import JudgeSelf.Model.Engine.Logged

/-! # The lock of a cached checker

Every path of `CompileCheckerCode` gives the lock of its cache item back, except the one on which the
compilation yields no binary: it returns with the write lock held, and from then on no worker gets
past its first `RLock` on the item.
-/

namespace JudgeSelf.Engine

open Machine (RwLock)
open Machine.RwLock (Mode Tracks)

/-- What a worker holds of the lock of its item. -/
def CompilePhase.mode : CompilePhase → Mode
  | .peek => .read
  | .recheck | .readSource | .compile _ => .write
  | .rLock | .lock => .none

/-- What a worker holds of the lock of an item. -/
def CacheStage.mode (item : ℕ) : CacheStage → Mode
  | .compiling _ i phase => if i = item then phase.mode else .none
  | _ => .none

/-- The worker is in `CompileCheckerCode` with the item. -/
def CacheStage.Uses (item : ℕ) : CacheStage → Prop
  | .compiling _ i _ => i = item
  | _ => False

theorem CacheStage.mode_of_not_uses {stage : CacheStage} {item : ℕ} (elsewhere : ¬ stage.Uses item) :
    stage.mode item = .none := by
  cases stage with
  | compiling problem i phase => exact if_neg elsewhere
  | _ => rfl

namespace CacheSystem

variable {archives : String → ℤ → Directory} {s t : CacheSystem} {worker item : ℕ} {caller : Caller}
  {problem : VersionedProblem}

def mode (s : CacheSystem) (item worker : ℕ) : Mode := (s.workers worker).mode item

/-- The compilation of a checker, if the step is one, comes out with a binary. -/
def YieldsBinary (s : CacheSystem) : CacheEvent → Prop
  | .compile worker env w =>
    match s.workers worker with
    | .compiling problem _ (.compile source) =>
      (compileCode env source problem.data.checkerLanguage problem.data.getResourcesFolder getDefaultConfig w).1 ≠ none
    | _ => True
  | _ => True

/-- The locks of all items are held as the stages of the workers say. -/
def Disciplined (s : CacheSystem) : Prop := ∀ item, Tracks (s.mode item) (s.items item).mu

private theorem mode_setStage (s : CacheSystem) (worker : ℕ) (stage : CacheStage) (item : ℕ) :
    (s.setStage worker stage).mode item = Function.update (s.mode item) worker (stage.mode item) :=
  Function.comp_update (CacheStage.mode item) s.workers worker stage

/-- A change of the item and of the stage of a worker that uses it. -/
theorem Disciplined.move (disciplined : s.Disciplined) {stage : CacheStage} {value : CacheS3Item}
    (tracked : Tracks (Function.update (s.mode item) worker (stage.mode item)) value.mu)
    (others : ∀ i, i ≠ item → stage.mode i = s.mode i worker) :
    ((s.setItem item value).setStage worker stage).Disciplined := by
  intro i
  rw [mode_setStage]
  change Tracks (Function.update (s.mode i) worker (stage.mode i)) (Function.update s.items item value i).mu
  by_cases same : i = item
  · subst same
    rw [Function.update_self]
    exact tracked
  · rw [Function.update_of_ne same, others i same, Function.update_eq_self]
    exact disciplined i

/-- A change of stage that holds what the old one held. -/
theorem Disciplined.setStage (disciplined : s.Disciplined) {stage : CacheStage}
    (kept : ∀ i, stage.mode i = s.mode i worker) : (s.setStage worker stage).Disciplined := by
  intro i
  rw [mode_setStage, kept, Function.update_eq_self]
  exact disciplined i

/-- Obtaining an item gives no lock of an item. -/
theorem Disciplined.obtain (disciplined : s.Disciplined) (free : ∀ i, s.mode i worker = .none) :
    (s.obtain worker caller problem item).Disciplined := by
  cases caller with
  | preExecute =>
    have staged := @Disciplined.setStage s worker disciplined (.loaded (problem.withDir (s.items item).path))
      fun i => (free i).symm
    exact staged
  | compileCheckerCode =>
    have staged := @Disciplined.setStage s worker disciplined (.compiling problem item .rLock)
      fun i => (ite_self _).trans (free i).symm
    exact staged

/-- What a worker in `CompileCheckerCode` holds of the other items is nothing. -/
private theorem mode_other {phase : CompilePhase} (at_ : s.workers worker = .compiling problem item phase)
    {stage : CacheStage} (stays : ∀ i, i ≠ item → stage.mode i = .none) (i : ℕ) (other : i ≠ item) :
    stage.mode i = s.mode i worker := by
  rw [stays i other, mode, at_, CacheStage.mode, if_neg (Ne.symm other)]

private theorem mode_compiling (problem : VersionedProblem) (phase : CompilePhase) (i : ℕ) (other : i ≠ item) :
    (CacheStage.compiling problem item phase).mode i = .none := by
  rw [CacheStage.mode, if_neg (Ne.symm other)]

/-- A step of a worker in `CompileCheckerCode` that it stays in. -/
theorem Disciplined.advanceCompile (disciplined : s.Disciplined) {phase next : CompilePhase}
    (at_ : s.workers worker = .compiling problem item phase) {value : CacheS3Item}
    (tracked : Tracks (Function.update (s.mode item) worker next.mode) value.mu) :
    ((s.setItem item value).setStage worker (.compiling problem item next)).Disciplined :=
  disciplined.move (by rwa [CacheStage.mode, if_pos rfl]) (mode_other at_ (mode_compiling problem next))

/-- The return of `CompileCheckerCode`. -/
theorem Disciplined.returned (disciplined : s.Disciplined) {phase : CompilePhase}
    (at_ : s.workers worker = .compiling problem item phase) {value : CacheS3Item} {bin : Option String}
    (tracked : Tracks (Function.update (s.mode item) worker .none) value.mu) :
    ((s.setItem item value).setStage worker (.returned bin)).Disciplined :=
  disciplined.move tracked (mode_other at_ fun _ _ => rfl)

/-- A phase of `CompileCheckerCode` that holds what the last one held. -/
theorem Disciplined.setPhase (disciplined : s.Disciplined) {phase next : CompilePhase}
    (at_ : s.workers worker = .compiling problem item phase) (same : next.mode = phase.mode) :
    (s.setStage worker (.compiling problem item next)).Disciplined := by
  refine disciplined.setStage fun i => ?_
  rw [mode, at_, CacheStage.mode, CacheStage.mode, same]

/-- A new item starts with a free lock, which nobody uses yet. -/
theorem Disciplined.storeItem (disciplined : s.Disciplined) (pointers : s.Pointers)
    (free : ∀ i, s.mode i worker = .none) (archive : Directory) (mu : RwLock (Option ℕ)) :
    (s.storeItem worker caller problem archive mu).Disciplined := by
  refine Disciplined.obtain (fun i => ?_) free
  change Tracks (s.mode i) (Function.update s.items s.allocated ⟨.free, _, none⟩ i).mu
  by_cases same : i = s.allocated
  · subst same
    have unused : s.mode s.allocated = fun _ => Mode.none := by
      funext other
      cases at_ : s.workers other with
      | compiling problem item phase =>
        have known := pointers.workers other problem item phase at_
        rw [mode, at_]
        exact if_neg known.ne
      | _ =>
        rw [mode, at_]
        rfl
    rw [unused, Function.update_self]
    exact RwLock.tracks_free
  · rw [Function.update_of_ne same]
    exact disciplined i

theorem Disciplined.step (disciplined : s.Disciplined) (pointers : s.Pointers) {event : CacheEvent}
    (yields : s.YieldsBinary event) (taken : s.step archives event = some t) : t.Disciplined := by
  have unlocked (mu : RwLock (Option ℕ)) : { s with mu }.Disciplined := disciplined
  have free {worker : ℕ} {stage : CacheStage} (at_ : s.workers worker = stage) (none : ∀ i, stage.mode i = .none)
      (i : ℕ) : s.mode i worker = .none := by rw [mode, at_, none]
  cases effect_of_step taken with
  | preExecute at_ | compileCheckerCode at_ | finish at_ | missingLocked at_ =>
    exact disciplined.setStage fun i => (free at_ (fun _ => rfl) i).symm
  | storeRLock at_ | missing at_ | storeLock at_ =>
    exact (unlocked _).setStage fun i => (free at_ (fun _ => rfl) i).symm
  | found at_ | foundLocked at_ => exact (unlocked _).obtain (free at_ fun _ => rfl)
  | write | cleanStart | cleanLock | cleanEnd | cleanRemove => exact disciplined
  | downloaded at_ => exact disciplined.storeItem pointers (free at_ fun _ => rfl) _ _
  | @downloadFailed _ caller _ _ at_ =>
    have idle (i : ℕ) : caller.failed.mode i = .none := by cases caller <;> rfl
    exact (unlocked _).setStage fun i => (idle i).trans (free at_ (fun _ => rfl) i).symm
  | @itemRLock _ item _ _ at_ locked =>
    refine disciplined.advanceCompile at_ ((disciplined item).rLock ?_ locked)
    rw [mode, at_]
    exact if_pos rfl
  | @compiled _ item _ _ _ at_ _ unlocked => exact disciplined.returned at_ ((disciplined item).rUnlock unlocked)
  | @uncompiled _ item _ _ at_ _ unlocked => exact disciplined.advanceCompile at_ ((disciplined item).rUnlock unlocked)
  | @itemLock _ item _ _ at_ locked => exact disciplined.advanceCompile at_ ((disciplined item).lock locked)
  | @compiledLocked _ item _ _ _ at_ _ unlocked => exact disciplined.returned at_ ((disciplined item).unlock unlocked)
  | uncompiledLocked at_ => exact disciplined.setPhase at_ rfl
  | readSource at_ => exact disciplined.setPhase at_ rfl
  | @compile _ item _ _ _ _ _ _ at_ _ unlocked => exact disciplined.returned at_ ((disciplined item).unlock unlocked)
  | compileFailed at_ failed =>
    rw [YieldsBinary, at_] at yields
    exact absurd failed yields
  | exit => exact fun _ => RwLock.tracks_free

theorem disciplined_start : start.Disciplined := fun _ => RwLock.tracks_free

private theorem disciplined_of_run {events : List CacheEvent}
    (run : Machine.Run (Machine.Guarded (Machine.Steps (step archives)) YieldsBinary) start events s) :
    s.Disciplined := by
  have preserved : ∀ s event t, s.Pointers ∧ s.Disciplined →
      Machine.Guarded (Machine.Steps (step archives)) YieldsBinary s event t → t.Pointers ∧ t.Disciplined :=
    fun _ _ _ ⟨pointers, disciplined⟩ ⟨yields, taken⟩ =>
      ⟨pointers.step taken, disciplined.step pointers yields taken⟩
  have both : s.Pointers ∧ s.Disciplined := run.invariant preserved ⟨pointers_start, disciplined_start⟩
  exact both.2

end CacheSystem

/-- In every run whose compilations yield binaries, a worker outside `CompileCheckerCode` holds no lock of an
item; an item that no worker uses has a free lock, and the next worker gets it. -/
theorem checker_lock_given_back {archives : String → ℤ → Directory} {events : List CacheEvent} {s : CacheSystem}
    (run : Machine.Run (Machine.Guarded (Machine.Steps (CacheSystem.step archives)) CacheSystem.YieldsBinary)
      .start events s) :
    (∀ worker item, ¬ (s.workers worker).Uses item → ¬ (s.items item).mu.Holds worker) ∧
      (∀ item, (∀ worker, ¬ (s.workers worker).Uses item) → (s.items item).mu = .free) ∧
      ∀ worker problem item, s.workers worker = .compiling problem item .rLock →
        (∀ other, other ≠ worker → ¬ (s.workers other).Uses item) →
          (s.step archives (.advance worker)).isSome := by
  have disciplined := CacheSystem.disciplined_of_run run
  refine ⟨fun worker item elsewhere => ?_, fun item unused => ?_, fun worker problem item at_ alone => ?_⟩
  · rw [(disciplined item).holds_iff]
    exact not_not_intro (CacheStage.mode_of_not_uses elsewhere)
  · exact (disciplined item).eq_free fun worker => CacheStage.mode_of_not_uses (unused worker)
  · have free : (s.items item).mu = .free := by
      apply (disciplined item).eq_free
      intro other
      by_cases same : other = worker
      · rw [same, CacheSystem.mode, at_]
        exact ite_self _
      · exact CacheStage.mode_of_not_uses (alone other same)
    simp [CacheSystem.step, at_, CacheSystem.advanceCompile, free, RwLock.free, RwLock.rLock]

instance (s : CacheSystem) (event : CacheEvent) : Decidable (s.YieldsBinary event) :=
  match event with
  | .compile worker env w =>
    match at_ : s.workers worker with
    | .compiling problem _ (.compile source) =>
      decidable_of_iff ((compileCode env source problem.data.checkerLanguage problem.data.getResourcesFolder
        getDefaultConfig w).1 ≠ none) (by rw [CacheSystem.YieldsBinary, at_])
    | .compiling _ _ .rLock | .compiling _ _ .peek | .compiling _ _ .lock | .compiling _ _ .recheck
    | .compiling _ _ .readSource | .idle | .loading _ _ _ | .loaded _ | .returned _ | .panicking =>
      isTrue (by rw [CacheSystem.YieldsBinary, at_]; trivial)
  | .preExecute _ _ | .compileCheckerCode _ | .finish _ | .advance _ | .write _ _ _ | .downloaded _
  | .downloadFailed _ | .cleanStart | .cleanLock _ | .cleanRemove _ | .cleanEnd | .exit _ => isTrue trivial

/-- Archives that hold a checker only. -/
def checkerArchive (_ : String) (_ : ℤ) : Directory := fun name => if name = "checker" then some "int main" else none

/-- An environment whose compilers end with an error. -/
def failingCompilers : Environment :=
  { steadyIsolate (some "exit status 1") "status:RE\nexitcode:1\n" with
    compileCommand := fun _ => some ["g++", "source"] }

/-- An environment in which programs need no compilation. -/
def noCompilers : Environment := { steadyIsolate none "" with compileCommand := fun _ => some [] }

/-- Worker 1 loads a problem and compiles its checker. -/
def checkerCompiled (env : Environment) : List CacheEvent :=
  .preExecute 1 ⟨pythonJob.problemData, 1⟩ :: List.replicate 4 (.advance 1) ++ [.downloaded 1, .compileCheckerCode 1] ++
    List.replicate 7 (.advance 1) ++ [.compile 1 env idleWorker]

/-- Worker 2 takes a job on the same problem up to the lock of the cache item. -/
def nextJob : List CacheEvent :=
  .finish 1 :: .preExecute 2 ⟨pythonJob.problemData, 1⟩ :: List.replicate 2 (.advance 2) ++
    .compileCheckerCode 2 :: List.replicate 2 (.advance 2)

/-- After a compilation with a binary the worker holds nothing. -/
theorem compiled_checker_unlocked : ∃ final,
    (checkerCompiled noCompilers).foldlM
        (Machine.guardedStep (CacheSystem.step checkerArchive) CacheSystem.YieldsBinary) .start = some final ∧
      final.workers 1 = .returned (some "int main") ∧ ¬ (final.items 0).mu.Holds 1 := by
  have ended : ((checkerCompiled noCompilers).foldlM
      (Machine.guardedStep (CacheSystem.step checkerArchive) CacheSystem.YieldsBinary) .start).map
        (fun final => final.workers 1) = some (.returned (some "int main")) := by
    decide +kernel
  obtain ⟨final, executed, returned⟩ := Option.map_eq_some_iff.mp ended
  refine ⟨final, executed, returned, (checker_lock_given_back (.of_foldlM_guarded executed)).1 1 0 ?_⟩
  rw [returned]
  exact id

/-- After a compilation without a binary the worker has returned with the lock, and the next job is stuck. -/
theorem failed_checker_stays_locked : ∃ final,
    (checkerCompiled failingCompilers ++ nextJob).foldlM (CacheSystem.step checkerArchive) .start = some final ∧
      final.workers 1 = .idle ∧ (final.items 0).mu.Holds 1 ∧
      final.workers 2 = .compiling (VersionedProblem.withDir ⟨pythonJob.problemData, 1⟩ (tmpDir ++ "p_1")) 0 .rLock ∧
      final.step checkerArchive (.advance 2) = none := by
  have ended : ((checkerCompiled failingCompilers ++ nextJob).foldlM (CacheSystem.step checkerArchive) .start).map
      (fun final => (final.workers 1, (final.items 0).mu, final.workers 2)) =
        some (.idle, .exclusive 1,
          .compiling (VersionedProblem.withDir ⟨pythonJob.problemData, 1⟩ (tmpDir ++ "p_1")) 0 .rLock) := by
    decide +kernel
  obtain ⟨final, executed, state⟩ := Option.map_eq_some_iff.mp ended
  simp only [Prod.mk.injEq] at state
  obtain ⟨idle, held, waiting⟩ := state
  refine ⟨final, executed, idle, by rw [held]; rfl, waiting, ?_⟩
  simp [CacheSystem.step, waiting, CacheSystem.advanceCompile, held, RwLock.rLock]

end JudgeSelf.Engine
