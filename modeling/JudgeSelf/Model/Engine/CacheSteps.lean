import JudgeSelf.Model.Engine.CacheLocks

/-! # The steps of the archive cache

Each step of the cache system as a rule with its guard, and what every step keeps: the items that are in
use have been given out.
-/

namespace JudgeSelf.Engine

open Machine (RwLock)

/-- Where a failed download leads. -/
def Caller.failed : Caller → CacheStage
  | .preExecute => .idle
  | .compileCheckerCode => .panicking

namespace CacheSystem

/-- The steps that can be taken, each with its guard and the state after it. -/
inductive Effect (archives : String → ℤ → Directory) (s : CacheSystem) : CacheEvent → CacheSystem → Prop
  | preExecute {worker : ℕ} {problem : VersionedProblem} (at_ : s.workers worker = .idle) :
    Effect archives s (.preExecute worker problem) (s.setStage worker (.loading .preExecute problem .rLock))
  | compileCheckerCode {worker : ℕ} {problem : VersionedProblem} (at_ : s.workers worker = .loaded problem) :
    Effect archives s (.compileCheckerCode worker)
      (s.setStage worker (.loading .compileCheckerCode problem .rLock))
  | finish {worker : ℕ} {bin : Option String} (at_ : s.workers worker = .returned bin) :
    Effect archives s (.finish worker) (s.setStage worker .idle)
  | storeRLock {worker : ℕ} {caller : Caller} {problem : VersionedProblem} {mu : RwLock (Option ℕ)}
      (at_ : s.workers worker = .loading caller problem .rLock) (locked : s.mu.rLock (some worker) = some mu) :
    Effect archives s (.advance worker) ({ s with mu }.setStage worker (.loading caller problem .lookup))
  | found {worker item : ℕ} {caller : Caller} {problem : VersionedProblem} {mu : RwLock (Option ℕ)}
      (at_ : s.workers worker = .loading caller problem .lookup) (stored : s.store.get? problem.key = some item)
      (unlocked : s.mu.rUnlock (some worker) = some mu) :
    Effect archives s (.advance worker) ({ s with mu }.obtain worker caller problem item)
  | missing {worker : ℕ} {caller : Caller} {problem : VersionedProblem} {mu : RwLock (Option ℕ)}
      (at_ : s.workers worker = .loading caller problem .lookup) (absent : s.store.get? problem.key = none)
      (unlocked : s.mu.rUnlock (some worker) = some mu) :
    Effect archives s (.advance worker) ({ s with mu }.setStage worker (.loading caller problem .lock))
  | storeLock {worker : ℕ} {caller : Caller} {problem : VersionedProblem} {mu : RwLock (Option ℕ)}
      (at_ : s.workers worker = .loading caller problem .lock) (locked : s.mu.lock (some worker) = some mu) :
    Effect archives s (.advance worker) ({ s with mu }.setStage worker (.loading caller problem .recheck))
  | foundLocked {worker item : ℕ} {caller : Caller} {problem : VersionedProblem} {mu : RwLock (Option ℕ)}
      (at_ : s.workers worker = .loading caller problem .recheck) (stored : s.store.get? problem.key = some item)
      (unlocked : s.mu.unlock (some worker) = some mu) :
    Effect archives s (.advance worker) ({ s with mu }.obtain worker caller problem item)
  | missingLocked {worker : ℕ} {caller : Caller} {problem : VersionedProblem}
      (at_ : s.workers worker = .loading caller problem .recheck) (absent : s.store.get? problem.key = none) :
    Effect archives s (.advance worker) (s.setStage worker (.loading caller problem .download))
  | write {worker : ℕ} {caller : Caller} {problem : VersionedProblem} {name content : String}
      (at_ : s.workers worker = .loading caller problem .download)
      (named : name = "temp.zip" ∨ (archives problem.data.problemId problem.problemVersion name).isSome) :
    Effect archives s (.write worker name content)
      { s with
        directories := Function.update s.directories (tmpDir ++ problem.key)
          (Function.update (s.directories (tmpDir ++ problem.key)) name (some content)) }
  | downloaded {worker : ℕ} {caller : Caller} {problem : VersionedProblem} {mu : RwLock (Option ℕ)}
      (at_ : s.workers worker = .loading caller problem .download)
      (unlocked : s.mu.unlock (some worker) = some mu) :
    Effect archives s (.downloaded worker)
      (s.storeItem worker caller problem (archives problem.data.problemId problem.problemVersion) mu)
  | downloadFailed {worker : ℕ} {caller : Caller} {problem : VersionedProblem} {mu : RwLock (Option ℕ)}
      (at_ : s.workers worker = .loading caller problem .download)
      (unlocked : s.mu.unlock (some worker) = some mu) :
    Effect archives s (.downloadFailed worker) ({ s with mu }.setStage worker caller.failed)
  | itemRLock {worker item : ℕ} {problem : VersionedProblem} {mu : RwLock ℕ}
      (at_ : s.workers worker = .compiling problem item .rLock)
      (locked : (s.items item).mu.rLock worker = some mu) :
    Effect archives s (.advance worker) ((s.setMu item mu).setStage worker (.compiling problem item .peek))
  | compiled {worker item : ℕ} {problem : VersionedProblem} {mu : RwLock ℕ} {bin : String}
      (at_ : s.workers worker = .compiling problem item .peek) (cached : (s.items item).compiledBin = some bin)
      (unlocked : (s.items item).mu.rUnlock worker = some mu) :
    Effect archives s (.advance worker) ((s.setMu item mu).setStage worker (.returned (some bin)))
  | uncompiled {worker item : ℕ} {problem : VersionedProblem} {mu : RwLock ℕ}
      (at_ : s.workers worker = .compiling problem item .peek) (uncached : (s.items item).compiledBin = none)
      (unlocked : (s.items item).mu.rUnlock worker = some mu) :
    Effect archives s (.advance worker) ((s.setMu item mu).setStage worker (.compiling problem item .lock))
  | itemLock {worker item : ℕ} {problem : VersionedProblem} {mu : RwLock ℕ}
      (at_ : s.workers worker = .compiling problem item .lock)
      (locked : (s.items item).mu.lock worker = some mu) :
    Effect archives s (.advance worker) ((s.setMu item mu).setStage worker (.compiling problem item .recheck))
  | compiledLocked {worker item : ℕ} {problem : VersionedProblem} {mu : RwLock ℕ} {bin : String}
      (at_ : s.workers worker = .compiling problem item .recheck) (cached : (s.items item).compiledBin = some bin)
      (unlocked : (s.items item).mu.unlock worker = some mu) :
    Effect archives s (.advance worker) ((s.setMu item mu).setStage worker (.returned (some bin)))
  | uncompiledLocked {worker item : ℕ} {problem : VersionedProblem}
      (at_ : s.workers worker = .compiling problem item .recheck) (uncached : (s.items item).compiledBin = none) :
    Effect archives s (.advance worker) (s.setStage worker (.compiling problem item .readSource))
  | readSource {worker item : ℕ} {problem : VersionedProblem}
      (at_ : s.workers worker = .compiling problem item .readSource) :
    Effect archives s (.advance worker) (s.setStage worker
      (.compiling problem item (.compile (s.directories problem.data.localProblemDir "checker"))))
  | compile {worker item : ℕ} {problem : VersionedProblem} {source : Option String} {env : Environment} {w : World}
      {mu : RwLock ℕ} {bin : String} (at_ : s.workers worker = .compiling problem item (.compile source))
      (yields : (compileCode env source problem.data.checkerLanguage problem.data.getResourcesFolder getDefaultConfig
        w).1 = some bin)
      (unlocked : (s.items item).mu.unlock worker = some mu) :
    Effect archives s (.compile worker env w)
      ((s.setItem item ⟨mu, (s.items item).path, some bin⟩).setStage worker (.returned (some bin)))
  | compileFailed {worker item : ℕ} {problem : VersionedProblem} {source : Option String} {env : Environment}
      {w : World} (at_ : s.workers worker = .compiling problem item (.compile source))
      (failed : (compileCode env source problem.data.checkerLanguage problem.data.getResourcesFolder getDefaultConfig
        w).1 = none) :
    Effect archives s (.compile worker env w) (s.setStage worker (.returned none))
  | cleanStart (idle : s.cleaner = .idle) (full : cacheCleanupThreshold < s.store.entries.length) :
    Effect archives s .cleanStart { s with cleaner := .started }
  | cleanLock {validKeys : List String} {mu : RwLock (Option ℕ)} (started : s.cleaner = .started)
      (locked : s.mu.lock none = some mu) :
    Effect archives s (.cleanLock validKeys)
      { s with mu, cleaner := .removing (s.store.keys.filter (IsStale validKeys s.store.keys)) }
  | cleanRemove {key : String} {keys : List String} {survives : String → Bool}
      (removing : s.cleaner = .removing (key :: keys)) :
    Effect archives s (.cleanRemove survives) (s.remove key keys survives)
  | cleanEnd {mu : RwLock (Option ℕ)} (removed : s.cleaner = .removing [])
      (unlocked : s.mu.unlock none = some mu) :
    Effect archives s .cleanEnd { s with mu, cleaner := .idle }
  | exit {survives : String → String → Bool} : Effect archives s (.exit survives) (s.exit survives)

variable {archives : String → ℤ → Directory} {s t : CacheSystem} {worker item : ℕ} {caller : Caller}
  {problem : VersionedProblem}

private theorem effect_advanceLoad {phase : LoadPhase} (at_ : s.workers worker = .loading caller problem phase)
    (taken : s.advanceLoad worker caller problem phase = some t) : s.Effect archives (.advance worker) t := by
  cases phase with
  | rLock =>
    obtain ⟨mu, locked, rfl⟩ := Option.map_eq_some_iff.mp taken
    exact .storeRLock at_ locked
  | lookup =>
    obtain ⟨mu, unlocked, rfl⟩ := Option.map_eq_some_iff.mp taken
    split
    · next stored => exact .found at_ stored unlocked
    · next absent => exact .missing at_ absent unlocked
  | lock =>
    obtain ⟨mu, locked, rfl⟩ := Option.map_eq_some_iff.mp taken
    exact .storeLock at_ locked
  | recheck =>
    rw [advanceLoad] at taken
    split at taken
    · next stored =>
      obtain ⟨mu, unlocked, rfl⟩ := Option.map_eq_some_iff.mp taken
      exact .foundLocked at_ stored unlocked
    · next absent =>
      obtain rfl := Option.some.inj taken
      exact .missingLocked at_ absent
  | download => contradiction

private theorem effect_advanceCompile {phase : CompilePhase} (at_ : s.workers worker = .compiling problem item phase)
    (taken : s.advanceCompile worker problem item phase = some t) : s.Effect archives (.advance worker) t := by
  cases phase with
  | rLock =>
    obtain ⟨mu, locked, rfl⟩ := Option.map_eq_some_iff.mp taken
    exact .itemRLock at_ locked
  | peek =>
    obtain ⟨mu, unlocked, rfl⟩ := Option.map_eq_some_iff.mp taken
    split
    · next cached => exact .compiled at_ cached unlocked
    · next uncached => exact .uncompiled at_ uncached unlocked
  | lock =>
    obtain ⟨mu, locked, rfl⟩ := Option.map_eq_some_iff.mp taken
    exact .itemLock at_ locked
  | recheck =>
    rw [advanceCompile] at taken
    split at taken
    · next cached =>
      obtain ⟨mu, unlocked, rfl⟩ := Option.map_eq_some_iff.mp taken
      exact .compiledLocked at_ cached unlocked
    · next uncached =>
      obtain rfl := Option.some.inj taken
      exact .uncompiledLocked at_ uncached
  | readSource =>
    obtain rfl := Option.some.inj taken
    exact .readSource at_
  | compile source => contradiction

private theorem effect_compile {source : Option String} {env : Environment} {w : World}
    (at_ : s.workers worker = .compiling problem item (.compile source))
    (taken : s.compile worker problem item source env w = some t) :
    s.Effect archives (.compile worker env w) t := by
  rw [compile] at taken
  split at taken
  · next failed =>
    obtain rfl := Option.some.inj taken
    exact .compileFailed at_ failed
  · next yields =>
    obtain ⟨mu, unlocked, rfl⟩ := Option.map_eq_some_iff.mp taken
    exact .compile at_ yields unlocked

theorem effect_of_step {event : CacheEvent} (taken : s.step archives event = some t) :
    s.Effect archives event t := by
  cases event with
  | preExecute worker problem =>
    rw [step] at taken
    split at taken
    · next at_ =>
      obtain rfl := Option.some.inj taken
      exact .preExecute at_
    · contradiction
  | compileCheckerCode worker =>
    rw [step] at taken
    split at taken
    · next at_ =>
      obtain rfl := Option.some.inj taken
      exact .compileCheckerCode at_
    · contradiction
  | finish worker =>
    rw [step] at taken
    split at taken
    · next at_ =>
      obtain rfl := Option.some.inj taken
      exact .finish at_
    · contradiction
  | advance worker =>
    rw [step] at taken
    split at taken
    · next at_ => exact effect_advanceLoad at_ taken
    · next at_ => exact effect_advanceCompile at_ taken
    · contradiction
  | write worker name content =>
    rw [step] at taken
    split at taken
    · next at_ =>
      split at taken
      · next named =>
        obtain rfl := Option.some.inj taken
        exact .write at_ named
      · contradiction
    · contradiction
  | downloaded worker =>
    rw [step] at taken
    split at taken
    · next at_ =>
      obtain ⟨mu, unlocked, rfl⟩ := Option.map_eq_some_iff.mp taken
      exact .downloaded at_ unlocked
    · contradiction
  | downloadFailed worker =>
    rw [step] at taken
    split at taken
    · next at_ =>
      obtain ⟨mu, unlocked, rfl⟩ := Option.map_eq_some_iff.mp taken
      exact .downloadFailed at_ unlocked
    · contradiction
  | compile worker env w =>
    rw [step] at taken
    split at taken
    · next at_ => exact effect_compile at_ taken
    · contradiction
  | cleanStart =>
    rw [step] at taken
    split at taken
    · next ready =>
      obtain rfl := Option.some.inj taken
      exact .cleanStart ready.1 ready.2
    · contradiction
  | cleanLock validKeys =>
    rw [step] at taken
    split at taken
    · next started =>
      obtain ⟨mu, locked, rfl⟩ := Option.map_eq_some_iff.mp taken
      exact .cleanLock started locked
    · contradiction
  | cleanRemove survives =>
    rw [step] at taken
    split at taken
    · next removing =>
      obtain rfl := Option.some.inj taken
      exact .cleanRemove removing
    · contradiction
  | cleanEnd =>
    rw [step] at taken
    split at taken
    · next removed =>
      obtain ⟨mu, unlocked, rfl⟩ := Option.map_eq_some_iff.mp taken
      exact .cleanEnd removed unlocked
    · contradiction
  | exit survives =>
    obtain rfl := Option.some.inj taken
    exact .exit

@[simp] theorem workers_setStage (s : CacheSystem) (worker : ℕ) (stage : CacheStage) :
    (s.setStage worker stage).workers = Function.update s.workers worker stage := rfl

/-- All items in use have been given out. -/
structure Pointers (s : CacheSystem) : Prop where
  store : ∀ key item, s.store.get? key = some item → item < s.allocated
  workers : ∀ worker problem item phase, s.workers worker = .compiling problem item phase → item < s.allocated

theorem pointers_start : start.Pointers := ⟨by simp [start], by simp [start]⟩

/-- A stage without an item, or with one that is given out. -/
theorem Pointers.setStage (pointers : s.Pointers) {stage : CacheStage}
    (known : ∀ problem item phase, stage = .compiling problem item phase → item < s.allocated) :
    (s.setStage worker stage).Pointers := by
  refine ⟨pointers.store, fun other problem item phase at_ => ?_⟩
  rw [workers_setStage, Function.update_apply] at at_
  split at at_
  · exact known problem item phase at_
  · exact pointers.workers other problem item phase at_

theorem Pointers.obtain (pointers : s.Pointers) (known : item < s.allocated) :
    (s.obtain worker caller problem item).Pointers := by
  cases caller with
  | preExecute =>
    have staged := @Pointers.setStage s worker pointers (.loaded (problem.withDir (s.items item).path)) (by simp)
    exact ⟨staged.store, staged.workers⟩
  | compileCheckerCode =>
    have staged := @Pointers.setStage s worker pointers (.compiling problem item .rLock) fun _ _ _ same => by
      cases same
      exact known
    exact ⟨staged.store, staged.workers⟩

theorem Pointers.setItem (pointers : s.Pointers) (value : CacheS3Item) : (s.setItem item value).Pointers :=
  ⟨pointers.store, pointers.workers⟩

theorem Pointers.storeItem (pointers : s.Pointers) (archive : Directory) (mu : RwLock (Option ℕ)) :
    (s.storeItem worker caller problem archive mu).Pointers := by
  refine Pointers.obtain ⟨fun key item found => ?_, fun other problem item phase at_ => ?_⟩ (Nat.lt_succ_self _)
  · change (s.store.set problem.key s.allocated).get? key = some item at found
    rw [Record.get?_set] at found
    split at found
    · exact Option.some.inj found ▸ Nat.lt_succ_self _
    · exact (pointers.store key item found).trans (Nat.lt_succ_self _)
  · exact (pointers.workers other problem item phase at_).trans (Nat.lt_succ_self _)

theorem Pointers.step (pointers : s.Pointers) {event : CacheEvent} (taken : s.step archives event = some t) :
    t.Pointers := by
  have unlocked (mu : RwLock (Option ℕ)) : { s with mu }.Pointers := ⟨pointers.store, pointers.workers⟩
  have known {worker item : ℕ} {problem : VersionedProblem} {phase next : CompilePhase}
      (at_ : s.workers worker = .compiling problem item phase) (p : VersionedProblem) (i : ℕ) (ph : CompilePhase)
      (same : CacheStage.compiling problem item next = .compiling p i ph) : i < s.allocated := by
    cases same
    exact pointers.workers _ _ _ _ at_
  cases effect_of_step taken with
  | preExecute | compileCheckerCode | finish | missingLocked | compileFailed => exact pointers.setStage (by simp)
  | storeRLock | missing | storeLock => exact (unlocked _).setStage (by simp)
  | found _ stored | foundLocked _ stored => exact (unlocked _).obtain (pointers.store _ _ stored)
  | write | cleanStart | cleanLock | cleanEnd => exact ⟨pointers.store, pointers.workers⟩
  | downloaded => exact pointers.storeItem _ _
  | @downloadFailed _ caller =>
    refine (unlocked _).setStage fun _ _ _ same => ?_
    cases caller <;> contradiction
  | itemRLock at_ | uncompiled at_ | itemLock at_ => exact (pointers.setItem _).setStage (known at_)
  | compiled | compiledLocked | compile => exact (pointers.setItem _).setStage (by simp)
  | uncompiledLocked at_ | readSource at_ => exact pointers.setStage (known at_)
  | @cleanRemove key _ _ _ =>
    refine ⟨fun k item found => ?_, pointers.workers⟩
    change (s.store.erase key).get? k = some item at found
    rw [Record.get?_erase] at found
    split at found
    · contradiction
    · exact pointers.store k item found
  | exit => exact ⟨by simp [exit], by simp [exit]⟩

end CacheSystem

end JudgeSelf.Engine
