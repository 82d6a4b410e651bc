import JudgeSelf.Model.Engine.CacheSteps

/-! # The lock of the archive store

Workers in `S3Cache.GetOrLoad` and the cleaner hold the lock of the store exactly as their stages say;
whoever downloads or deletes an archive holds it alone.
-/

namespace JudgeSelf.Engine

open Machine (RwLock)
open Machine.RwLock (Mode Tracks)

/-- What a worker holds of the lock of the store. -/
def LoadPhase.mode : LoadPhase → Mode
  | .lookup => .read
  | .recheck | .download => .write
  | .rLock | .lock => .none

def CacheStage.storeMode : CacheStage → Mode
  | .loading _ _ phase => phase.mode
  | _ => .none

def Cleaner.mode : Cleaner → Mode
  | .removing _ => .write
  | _ => .none

namespace CacheSystem

variable {archives : String → ℤ → Directory} {s t : CacheSystem} {worker item : ℕ} {caller : Caller}
  {problem : VersionedProblem}

/-- What the workers and the cleaner hold of the lock of the store. -/
def storeMode (s : CacheSystem) : Option ℕ → Mode
  | none => s.cleaner.mode
  | some worker => (s.workers worker).storeMode

/-- The lock of the store is held as the stages say. -/
def StoreLocked (s : CacheSystem) : Prop := Tracks s.storeMode s.mu

private theorem storeMode_of_workers {workers : ℕ → CacheStage} {stage : CacheStage}
    (moved : workers = Function.update s.workers worker stage) (t : CacheSystem) (same : t.workers = workers)
    (kept : t.cleaner = s.cleaner) : t.storeMode = Function.update s.storeMode (some worker) stage.storeMode := by
  funext party
  cases party with
  | none =>
    rw [Function.update_of_ne (by simp), storeMode, storeMode, kept]
  | some other =>
    rw [storeMode, same, moved]
    by_cases here : other = worker
    · rw [here, Function.update_self, Function.update_self]
    · rw [Function.update_of_ne here, Function.update_of_ne (by simpa using here), storeMode]

private theorem storeMode_of_cleaner {cleaner : Cleaner} (t : CacheSystem) (same : t.workers = s.workers)
    (moved : t.cleaner = cleaner) : t.storeMode = Function.update s.storeMode none cleaner.mode := by
  funext party
  cases party with
  | none => rw [Function.update_self, storeMode, moved]
  | some other => rw [Function.update_of_ne (by simp), storeMode, storeMode, same]

/-- The lock changes with the stage of one worker. -/
theorem storeLocked_of_worker {stage : CacheStage} (moved : t.workers = Function.update s.workers worker stage)
    (kept : t.cleaner = s.cleaner)
    (tracked : Tracks (Function.update s.storeMode (some worker) stage.storeMode) t.mu) : t.StoreLocked := by
  rw [StoreLocked, storeMode_of_workers moved t rfl kept]
  exact tracked

/-- A worker changes to a stage that holds what the old one held. -/
theorem StoreLocked.of_same (locked : s.StoreLocked) {stage : CacheStage}
    (moved : t.workers = Function.update s.workers worker stage) (kept : t.cleaner = s.cleaner) (mu : t.mu = s.mu)
    (same : stage.storeMode = (s.workers worker).storeMode) : t.StoreLocked := by
  apply storeLocked_of_worker moved kept
  have unchanged : Function.update s.storeMode (some worker) stage.storeMode = s.storeMode := by
    rw [same]
    exact Function.update_eq_self (some worker) s.storeMode
  rw [unchanged, mu]
  exact locked

/-- The lock changes with the stage of the cleaner. -/
theorem storeLocked_of_cleaner (same : t.workers = s.workers)
    (tracked : Tracks (Function.update s.storeMode none t.cleaner.mode) t.mu) : t.StoreLocked := by
  rw [StoreLocked, storeMode_of_cleaner t same rfl]
  exact tracked

/-- A worker lets the lock go when it obtains an item. -/
theorem storeLocked_obtain {mu : RwLock (Option ℕ)}
    (tracked : Tracks (Function.update s.storeMode (some worker) .none) mu) (item : ℕ) :
    ({ s with mu }.obtain worker caller problem item).StoreLocked := by
  refine @storeLocked_of_worker s _ worker _ rfl rfl ?_
  cases caller <;> exact tracked

/-- A step of the cleaner that holds what the last one held. -/
theorem StoreLocked.of_cleaner (locked : s.StoreLocked) (same : t.workers = s.workers) (mu : t.mu = s.mu)
    (held : t.cleaner.mode = s.cleaner.mode) : t.StoreLocked := by
  apply storeLocked_of_cleaner same
  have unchanged : Function.update s.storeMode none t.cleaner.mode = s.storeMode := by
    rw [held]
    exact Function.update_eq_self none s.storeMode
  rw [unchanged, mu]
  exact locked

theorem StoreLocked.step (locked : s.StoreLocked) {event : CacheEvent} (taken : s.step archives event = some t) :
    t.StoreLocked := by
  cases effect_of_step taken with
  | preExecute at_ | compileCheckerCode at_ | finish at_ | missingLocked at_ | itemRLock at_ | compiled at_
  | uncompiled at_ | itemLock at_ | compiledLocked at_ | uncompiledLocked at_ | readSource at_ | compile at_
  | compileFailed at_ => exact locked.of_same rfl rfl rfl (by rw [at_]; rfl)
  | storeRLock at_ acquired =>
    exact storeLocked_of_worker rfl rfl (Tracks.rLock locked (by rw [storeMode, at_]; rfl) acquired)
  | found _ _ released => exact storeLocked_obtain (Tracks.rUnlock locked released) _
  | missing _ _ released => exact storeLocked_of_worker rfl rfl (Tracks.rUnlock locked released)
  | storeLock _ acquired => exact storeLocked_of_worker rfl rfl (Tracks.lock locked acquired)
  | foundLocked _ _ released => exact storeLocked_obtain (Tracks.unlock locked released) _
  | write => exact locked
  | @downloaded worker caller _ _ _ released =>
    refine @storeLocked_of_worker s _ worker _ rfl rfl ?_
    cases caller <;> exact Tracks.unlock locked released
  | @downloadFailed worker caller _ _ _ released =>
    refine @storeLocked_of_worker s _ worker _ rfl rfl ?_
    cases caller <;> exact Tracks.unlock locked released
  | cleanStart idle => exact locked.of_cleaner rfl rfl (by rw [idle]; rfl)
  | cleanLock _ acquired => exact @storeLocked_of_cleaner s _ rfl (Tracks.lock locked acquired)
  | cleanRemove removing => exact locked.of_cleaner rfl rfl (by rw [removing]; rfl)
  | cleanEnd _ released => exact @storeLocked_of_cleaner s _ rfl (Tracks.unlock locked released)
  | @exit survives =>
    have released : (s.exit survives).storeMode = fun _ => Mode.none := by
      funext party
      cases party <;> rfl
    rw [StoreLocked, released]
    exact RwLock.tracks_free

theorem storeLocked_start : start.StoreLocked := by
  have released : start.storeMode = fun _ => Mode.none := by
    funext party
    cases party <;> rfl
  rw [StoreLocked, released]
  exact RwLock.tracks_free

/-- A worker that downloads is alone with the store. -/
theorem StoreLocked.alone (locked : s.StoreLocked) (writing : (s.workers worker).storeMode = .write) :
    s.mu = .exclusive (some worker) :=
  Tracks.eq_exclusive locked (i := some worker) writing

end CacheSystem

end JudgeSelf.Engine
