import JudgeSelf.Machine.RwLock
import JudgeSelf.Machine.Run
import JudgeSelf.Model.Engine.Cache
import JudgeSelf.Model.Engine.Worker

/-! # The archive cache under its locks

Workers in `S3Cache.GetOrLoad` and `CompileCheckerCode` next to the cleaner, one step for each
acquisition or release of a lock and for each access to the files of a problem. The archive of a
version of a problem never changes. A download writes files of the archive and its temporary file
in any order, a removal may leave files behind. The history lists the newest observation first.
-/

namespace JudgeSelf.Engine

open Machine (RwLock)

/-- The files of an archive or of a problem directory. -/
abbrev Directory := String → Option String

structure CacheS3Item where
  mu : RwLock ℕ
  path : String
  compiledBin : Option String

/-- Who calls `S3Cache.GetOrLoad`. -/
inductive Caller
  | preExecute
  | compileCheckerCode
deriving DecidableEq

/-- What `S3Cache.GetOrLoad` does next. -/
inductive LoadPhase
  | rLock
  | lookup
  | lock
  | recheck
  | download
deriving DecidableEq

/-- What `CompileCheckerCode` does next with its cache item. -/
inductive CompilePhase
  | rLock
  | peek
  | lock
  | recheck
  | readSource
  | compile (source : Option String)
deriving DecidableEq

inductive CacheStage
  | idle
  | loading (caller : Caller) (problem : VersionedProblem) (phase : LoadPhase)
  /-- `PreExecute` has returned. -/
  | loaded (problem : VersionedProblem)
  | compiling (problem : VersionedProblem) (item : ℕ) (phase : CompilePhase)
  /-- `CompileCheckerCode` has returned. -/
  | returned (bin : Option String)
  /-- `CompileCheckerCode` has no cache item, and its first use ends the process. -/
  | panicking
deriving DecidableEq

inductive Cleaner
  | idle
  /-- There are enough items; the locks are next. -/
  | started
  /-- In the deleting loop, with the keys that it still deletes. -/
  | removing (keys : List String)
deriving DecidableEq

inductive Observation
  | downloaded (key : String) (item : ℕ)
  | obtained (key : String) (item : ℕ)
  | removed (key : String)
  | exited
deriving DecidableEq

/-- Items are pointers, `allocated` of them given out so far. Of the lock the cleaner is party `none`. -/
structure CacheSystem where
  mu : RwLock (Option ℕ)
  store : Record String ℕ
  items : ℕ → CacheS3Item
  allocated : ℕ
  directories : String → Directory
  workers : ℕ → CacheStage
  cleaner : Cleaner
  history : List Observation

inductive CacheEvent
  | preExecute (worker : ℕ) (problem : VersionedProblem)
  | compileCheckerCode (worker : ℕ)
  | finish (worker : ℕ)
  /-- The next step of a worker that depends on the caches alone. -/
  | advance (worker : ℕ)
  | write (worker : ℕ) (name content : String)
  | downloaded (worker : ℕ)
  | downloadFailed (worker : ℕ)
  | compile (worker : ℕ) (env : Environment) (w : World)
  | cleanStart
  /-- The cleaner has both locks; `validKeys` are the problems that the database cache keeps. -/
  | cleanLock (validKeys : List String)
  | cleanRemove (survives : String → Bool)
  | cleanEnd
  /-- The process ends and is started again; `initCleanup` empties the directories. -/
  | exit (survives : String → String → Bool)

/-- The files that a removal leaves behind. -/
def Directory.restrict (files : Directory) (survives : String → Bool) : Directory :=
  fun name => if survives name then files name else none

/-- The files after unpacking an archive, without the temporary file. -/
def Directory.extract (files archive : Directory) : Directory :=
  fun name => (archive name).or (if name = "temp.zip" then none else files name)

/-- The problem as `Cache.GetOrLoad` returns it. -/
def VersionedProblem.withDir (problem : VersionedProblem) (path : String) : VersionedProblem :=
  { problem with data := { problem.data with localProblemDir := path } }

namespace CacheSystem

def setStage (s : CacheSystem) (worker : ℕ) (stage : CacheStage) : CacheSystem :=
  { s with workers := Function.update s.workers worker stage }

def setItem (s : CacheSystem) (item : ℕ) (value : CacheS3Item) : CacheSystem :=
  { s with items := Function.update s.items item value }

def setMu (s : CacheSystem) (item : ℕ) (mu : RwLock ℕ) : CacheSystem :=
  s.setItem item { s.items item with mu }

/-- `S3Cache.GetOrLoad` returns an item. -/
def obtain (s : CacheSystem) (worker : ℕ) (caller : Caller) (problem : VersionedProblem) (item : ℕ) : CacheSystem :=
  { s with
    workers := Function.update s.workers worker (match caller with
      | .preExecute => .loaded (problem.withDir (s.items item).path)
      | .compileCheckerCode => .compiling problem item .rLock)
    history := .obtained problem.key item :: s.history }

/-- The phases of `S3Cache.GetOrLoad` before a download. -/
def advanceLoad (s : CacheSystem) (worker : ℕ) (caller : Caller) (problem : VersionedProblem) :
    LoadPhase → Option CacheSystem
  | .rLock => (s.mu.rLock (some worker)).map fun mu =>
    { s with mu }.setStage worker (.loading caller problem .lookup)
  | .lookup => (s.mu.rUnlock (some worker)).map fun mu =>
    match s.store.get? problem.key with
    | some item => { s with mu }.obtain worker caller problem item
    | none => { s with mu }.setStage worker (.loading caller problem .lock)
  | .lock => (s.mu.lock (some worker)).map fun mu =>
    { s with mu }.setStage worker (.loading caller problem .recheck)
  | .recheck =>
    match s.store.get? problem.key with
    | some item => (s.mu.unlock (some worker)).map fun mu => { s with mu }.obtain worker caller problem item
    | none => some (s.setStage worker (.loading caller problem .download))
  | .download => none

/-- The phases of `CompileCheckerCode` before the compilation. -/
def advanceCompile (s : CacheSystem) (worker : ℕ) (problem : VersionedProblem) (item : ℕ) :
    CompilePhase → Option CacheSystem
  | .rLock => ((s.items item).mu.rLock worker).map fun mu =>
    (s.setMu item mu).setStage worker (.compiling problem item .peek)
  | .peek => ((s.items item).mu.rUnlock worker).map fun mu =>
    (s.setMu item mu).setStage worker (match (s.items item).compiledBin with
      | some bin => .returned (some bin)
      | none => .compiling problem item .lock)
  | .lock => ((s.items item).mu.lock worker).map fun mu =>
    (s.setMu item mu).setStage worker (.compiling problem item .recheck)
  | .recheck =>
    match (s.items item).compiledBin with
    | some bin => ((s.items item).mu.unlock worker).map fun mu =>
      (s.setMu item mu).setStage worker (.returned (some bin))
    | none => some (s.setStage worker (.compiling problem item .readSource))
  | .readSource =>
    some (s.setStage worker (.compiling problem item (.compile (s.directories problem.data.localProblemDir "checker"))))
  | .compile _ => none

/-- `CompileCheckerCode` from the compilation on; without a binary it returns with the lock held. -/
def compile (s : CacheSystem) (worker : ℕ) (problem : VersionedProblem) (item : ℕ) (source : Option String)
    (env : Environment) (w : World) : Option CacheSystem :=
  match (compileCode env source problem.data.checkerLanguage problem.data.getResourcesFolder getDefaultConfig w).1 with
  | none => some (s.setStage worker (.returned none))
  | some checkerBin => ((s.items item).mu.unlock worker).map fun mu =>
    (s.setItem item ⟨mu, (s.items item).path, some checkerBin⟩).setStage worker (.returned (some checkerBin))

/-- The end of a successful download. -/
def storeItem (s : CacheSystem) (worker : ℕ) (caller : Caller) (problem : VersionedProblem) (archive : Directory)
    (mu : RwLock (Option ℕ)) : CacheSystem :=
  let path := tmpDir ++ problem.key
  { s with
    mu
    store := s.store.set problem.key s.allocated
    items := Function.update s.items s.allocated ⟨.free, path, none⟩
    allocated := s.allocated + 1
    directories := Function.update s.directories path ((s.directories path).extract archive)
    history := .downloaded problem.key s.allocated :: s.history }.obtain worker caller problem s.allocated

/-- The removal of one archive. -/
def remove (s : CacheSystem) (key : String) (keys : List String) (survives : String → Bool) : CacheSystem :=
  let path := ((s.store.get? key).map fun item => (s.items item).path).getD ""
  { s with
    store := s.store.erase key
    directories := Function.update s.directories path ((s.directories path).restrict survives)
    cleaner := .removing keys
    history := .removed key :: s.history }

def exit (s : CacheSystem) (survives : String → String → Bool) : CacheSystem where
  mu := .free
  store := Record.empty
  items := fun _ => ⟨.free, "", none⟩
  allocated := s.allocated
  directories path := (s.directories path).restrict (survives path)
  workers := fun _ => .idle
  cleaner := .idle
  history := .exited :: s.history

/-- An engine that has just been started over empty directories. -/
def start : CacheSystem where
  mu := .free
  store := Record.empty
  items := fun _ => ⟨.free, "", none⟩
  allocated := 0
  directories _ _ := none
  workers := fun _ => .idle
  cleaner := .idle
  history := []

def step (archives : String → ℤ → Directory) (s : CacheSystem) : CacheEvent → Option CacheSystem
  | .preExecute worker problem =>
    match s.workers worker with
    | .idle => some (s.setStage worker (.loading .preExecute problem .rLock))
    | _ => none
  | .compileCheckerCode worker =>
    match s.workers worker with
    | .loaded problem => some (s.setStage worker (.loading .compileCheckerCode problem .rLock))
    | _ => none
  | .finish worker =>
    match s.workers worker with
    | .returned _ => some (s.setStage worker .idle)
    | _ => none
  | .advance worker =>
    match s.workers worker with
    | .loading caller problem phase => s.advanceLoad worker caller problem phase
    | .compiling problem item phase => s.advanceCompile worker problem item phase
    | _ => none
  | .write worker name content =>
    match s.workers worker with
    | .loading _ problem .download =>
      if name = "temp.zip" ∨ (archives problem.data.problemId problem.problemVersion name).isSome then
        let path := tmpDir ++ problem.key
        some { s with directories :=
          Function.update s.directories path (Function.update (s.directories path) name (some content)) }
      else none
    | _ => none
  | .downloaded worker =>
    match s.workers worker with
    | .loading caller problem .download => (s.mu.unlock (some worker)).map fun mu =>
      s.storeItem worker caller problem (archives problem.data.problemId problem.problemVersion) mu
    | _ => none
  | .downloadFailed worker =>
    match s.workers worker with
    | .loading caller _ .download => (s.mu.unlock (some worker)).map fun mu =>
      { s with mu }.setStage worker (match caller with
        | .preExecute => .idle
        | .compileCheckerCode => .panicking)
    | _ => none
  | .compile worker env w =>
    match s.workers worker with
    | .compiling problem item (.compile source) => s.compile worker problem item source env w
    | _ => none
  | .cleanStart =>
    if s.cleaner = .idle ∧ cacheCleanupThreshold < s.store.entries.length then some { s with cleaner := .started }
    else none
  | .cleanLock validKeys =>
    if s.cleaner = .started then
      (s.mu.lock none).map fun mu =>
        { s with mu, cleaner := .removing (s.store.keys.filter (IsStale validKeys s.store.keys)) }
    else none
  | .cleanRemove survives =>
    match s.cleaner with
    | .removing (key :: keys) => some (s.remove key keys survives)
    | _ => none
  | .cleanEnd =>
    if s.cleaner = .removing [] then (s.mu.unlock none).map fun mu => { s with mu, cleaner := .idle } else none
  | .exit survives => some (s.exit survives)

end CacheSystem

end JudgeSelf.Engine
