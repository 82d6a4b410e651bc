import JudgeSelf.Soundness.CheckerLock
import JudgeSelf.Soundness.StoreLock

/-! # The caches go on

As long as a worker is in a call of the archive cache, or the cleaner is at work, the cache offers a step: who waits
for a lock waits for a worker or for the cleaner, and these hold one lock at a time. This rests on every lock being
held as the stages say, and thus on checkers that compile.
-/

namespace JudgeSelf.Engine

open Machine (RwLock)

/-- The worker is in no call of the cache. -/
def CacheStage.Resting : CacheStage → Prop
  | .loading _ _ _ | .compiling _ _ _ => False
  | _ => True

/-- The steps of a call under way, or of the cleaner at work. -/
def CacheEvent.goesOn : CacheEvent → Bool
  | .advance _ | .downloaded _ | .compile _ _ _ | .cleanLock _ | .cleanRemove _ | .cleanEnd => true
  | _ => false

namespace CacheSystem

variable {archives : String → ℤ → Directory} {s : CacheSystem}

/-- No call goes on, and neither does the cleaner. -/
def Stuck (archives : String → ℤ → Directory) (s : CacheSystem) : Prop :=
  ∀ event : CacheEvent, event.goesOn = true → s.step archives event = none

/-- Who holds the lock of the store can let it go. -/
private theorem Stuck.storeMode_eq_none (stuck : s.Stuck archives) (locked : s.StoreLocked) (party : Option ℕ) :
    s.storeMode party = .none := by
  cases party with
  | none =>
    cases cleaner : s.cleaner with
    | idle | started =>
      rw [storeMode, cleaner]
      rfl
    | removing keys =>
      cases keys with
      | cons key keys =>
        have refused := stuck (.cleanRemove fun _ => false) rfl
        rw [step, cleaner] at refused
        contradiction
      | nil =>
        have writing : s.storeMode none = .write := by
          rw [storeMode, cleaner]
          rfl
        obtain ⟨mu, unlocked⟩ := RwLock.Tracks.exists_unlock locked writing
        have refused := stuck .cleanEnd rfl
        rw [step, if_pos cleaner, unlocked] at refused
        contradiction
  | some worker =>
    cases at_ : s.workers worker with
    | loading caller problem phase =>
      have mode : s.storeMode (some worker) = phase.mode := by
        rw [storeMode, at_]
        rfl
      cases phase with
      | rLock | lock => exact mode
      | lookup =>
        obtain ⟨mu, unlocked⟩ := RwLock.Tracks.exists_rUnlock locked mode
        have refused := stuck (.advance worker) rfl
        rw [step, at_] at refused
        dsimp only at refused
        rw [advanceLoad, unlocked] at refused
        contradiction
      | recheck =>
        obtain ⟨mu, unlocked⟩ := RwLock.Tracks.exists_unlock locked mode
        have refused := stuck (.advance worker) rfl
        rw [step, at_] at refused
        dsimp only at refused
        rw [advanceLoad, unlocked] at refused
        split at refused <;> contradiction
      | download =>
        obtain ⟨mu, unlocked⟩ := RwLock.Tracks.exists_unlock locked mode
        have refused := stuck (.downloaded worker) rfl
        rw [step, at_] at refused
        dsimp only at refused
        rw [unlocked] at refused
        contradiction
    | _ =>
      rw [storeMode, at_]
      rfl

/-- Who holds the lock of an item can go on. -/
private theorem Stuck.mode_eq_none (stuck : s.Stuck archives) (disciplined : s.Disciplined) (item worker : ℕ) :
    s.mode item worker = .none := by
  cases at_ : s.workers worker with
  | compiling problem i phase =>
    by_cases here : i = item
    · subst here
      have mode : s.mode i worker = phase.mode := by
        rw [CacheSystem.mode, at_]
        exact if_pos rfl
      have refused := stuck (.advance worker) rfl
      rw [step, at_] at refused
      dsimp only at refused
      cases phase with
      | rLock | lock => exact mode
      | peek =>
        obtain ⟨mu, unlocked⟩ := (disciplined i).exists_rUnlock mode
        rw [advanceCompile, unlocked] at refused
        contradiction
      | recheck =>
        obtain ⟨mu, unlocked⟩ := (disciplined i).exists_unlock mode
        rw [advanceCompile, unlocked] at refused
        split at refused <;> contradiction
      | readSource => contradiction
      | compile source =>
        obtain ⟨mu, unlocked⟩ := (disciplined i).exists_unlock mode
        have stays := stuck (.compile worker (steadyIsolate none "") idleWorker) rfl
        rw [step, at_] at stays
        dsimp only at stays
        rw [CacheSystem.compile, unlocked] at stays
        split at stays <;> contradiction
    · rw [CacheSystem.mode, at_]
      exact if_neg here
  | _ =>
    rw [CacheSystem.mode, at_]
    rfl

/-- Where the cache is stuck, the cleaner is idle and all workers are outside. -/
theorem Stuck.resting (stuck : s.Stuck archives) (locked : s.StoreLocked) (disciplined : s.Disciplined) :
    s.cleaner = .idle ∧ ∀ worker, (s.workers worker).Resting := by
  have free : s.mu = .free := RwLock.Tracks.eq_free locked (stuck.storeMode_eq_none locked)
  have items (item : ℕ) : (s.items item).mu = .free := (disciplined item).eq_free (stuck.mode_eq_none disciplined item)
  constructor
  · cases cleaner : s.cleaner with
    | idle => rfl
    | started =>
      have refused := stuck (.cleanLock []) rfl
      rw [step, if_pos cleaner, free] at refused
      contradiction
    | removing keys =>
      have held := stuck.storeMode_eq_none locked none
      rw [storeMode, cleaner] at held
      contradiction
  · intro worker
    have refused := stuck (.advance worker) rfl
    cases at_ : s.workers worker with
    | loading caller problem phase =>
      have held := stuck.storeMode_eq_none locked (some worker)
      rw [storeMode, at_] at held
      rw [step, at_] at refused
      dsimp only at refused
      cases phase with
      | rLock | lock =>
        rw [advanceLoad, free] at refused
        contradiction
      | lookup | recheck | download => contradiction
    | compiling problem item phase =>
      have held := stuck.mode_eq_none disciplined item worker
      rw [CacheSystem.mode, at_, CacheStage.mode, if_pos rfl] at held
      rw [step, at_] at refused
      dsimp only at refused
      cases phase with
      | rLock | lock =>
        rw [advanceCompile, items] at refused
        contradiction
      | peek | recheck | readSource | compile => contradiction
    | idle | loaded | returned | panicking => trivial

end CacheSystem

end JudgeSelf.Engine
