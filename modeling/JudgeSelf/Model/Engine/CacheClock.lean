import JudgeSelf.Machine.Run
import JudgeSelf.Model.Engine.Cache

/-! # The caches over a clock

Jobs in `Cache.GetOrLoad`, updates of `polygon_version` and runs of `cleanCache`, over a clock in
nanoseconds. A job is in one of the two write locks over several steps, all other critical sections
are single steps. The message of a job and the row of its problem spell the id alike.
-/

namespace JudgeSelf.Engine

/-- Of the data that is kept with an expiry only the version is read here. -/
structure CacheDbItem where
  problemVersion : ℤ
  expiresAt : ℤ
deriving DecidableEq

/-- How far a job is. -/
inductive JobStage
  /-- At the first lookup of `DbCache.GetOrLoad`. -/
  | called
  /-- Waiting for the lock of the database cache. -/
  | missed
  /-- With that lock, and the version of the row. -/
  | querying (problemVersion : ℤ)
  /-- `DbCache.GetOrLoad` has returned. -/
  | looked (problemVersion : ℤ)
  /-- Downloading, with the lock of the archive cache. -/
  | downloading (problemVersion : ℤ)
  /-- `Cache.GetOrLoad` has returned the directory, where the job reads until it ends. -/
  | running (problemVersion : ℤ) (localProblemDir : String)
deriving DecidableEq

structure ClockJob where
  problemId : String
  start : ℤ
  stage : JobStage
deriving DecidableEq

structure CacheClock where
  now : ℤ
  /-- The column `polygon_version` of the table of problems. -/
  polygonVersion : String → ℤ
  dbMu : Option ℕ
  dbStore : Record String CacheDbItem
  s3Mu : Option ℕ
  /-- The paths of the stored items. -/
  s3Store : Record String String
  directories : String → Bool
  jobs : Record ℕ ClockJob
  /-- The time at which a run of `cleanCache` began that waits for the locks. -/
  cleaning : Option ℤ

inductive ClockEvent
  | tick (duration : ℕ)
  | setVersion (problemId : String) (version : ℤ)
  | call (job : ℕ) (problemId : String)
  /-- The next step of a job in `Cache.GetOrLoad`. -/
  | advance (job : ℕ)
  /-- The job ends, also when its download or its query fails. -/
  | finish (job : ℕ)
  | cleanBegin
  | clean

namespace CacheClock

/-- The version of a problem in the database cache, as long as it has not expired. -/
def cached (s : CacheClock) (problemId : String) : Option ℤ :=
  match s.dbStore.get? problemId with
  | some item => if s.now < item.expiresAt then some item.problemVersion else none
  | none => none

def setStage (s : CacheClock) (i : ℕ) (job : ClockJob) (stage : JobStage) : CacheClock :=
  { s with jobs := s.jobs.set i { job with stage } }

/-- `DbCache.GetOrLoad` and `S3Cache.GetOrLoad`, one critical section after another. -/
def advance (s : CacheClock) (i : ℕ) (job : ClockJob) : JobStage → Option CacheClock
  | .called =>
    if s.dbMu = none then
      match s.cached job.problemId with
      | some problemVersion => some (s.setStage i job (.looked problemVersion))
      | none => some (s.setStage i job .missed)
    else none
  | .missed =>
    if s.dbMu = none then
      match s.cached job.problemId with
      | some problemVersion => some (s.setStage i job (.looked problemVersion))
      | none => some ({ s with dbMu := some i }.setStage i job (.querying (s.polygonVersion job.problemId)))
    else none
  | .querying problemVersion =>
    some ({ s with
      dbMu := none
      dbStore := s.dbStore.set job.problemId ⟨problemVersion, s.now + cacheTtl⟩ }.setStage i job
        (.looked problemVersion))
  | .looked problemVersion =>
    if s.s3Mu = none then
      match s.s3Store.get? (cacheKey job.problemId problemVersion) with
      | some path => some (s.setStage i job (.running problemVersion path))
      | none => some ({ s with s3Mu := some i }.setStage i job (.downloading problemVersion))
    else none
  | .downloading problemVersion =>
    let key := cacheKey job.problemId problemVersion
    let localProblemCachePath := tmpDir ++ key
    some ({ s with
      s3Mu := none
      s3Store := s.s3Store.set key localProblemCachePath
      directories := Function.update s.directories localProblemCachePath true }.setStage i job
        (.running problemVersion localProblemCachePath))
  | .running _ _ => none

/-- The lock that a job gives back when it fails. -/
def release (i : ℕ) (mu : Option ℕ) : Option ℕ := if mu = some i then none else mu

/-- The part of `cleanCache` under both locks. -/
def cleanCache (s : CacheClock) (now : ℤ) : CacheClock :=
  let dbStore := s.dbStore.filter fun (_, v) => ¬ v.expiresAt + cacheCleanupBuffer < now
  let stale (e : String × String) : Bool := IsStale dbStore.keys s.s3Store.keys e.1
  { s with
    dbStore
    s3Store := s.s3Store.filter (!stale ·)
    directories := fun path => s.directories path && !s.s3Store.entries.any fun e => stale e && e.2 = path
    cleaning := none }

/-- A version is an `INT`. -/
def IsInt (version : ℤ) : Prop := -2 ^ 31 ≤ version ∧ version < 2 ^ 31

instance (version : ℤ) : Decidable (IsInt version) := inferInstanceAs (Decidable (_ ∧ _))

def step (s : CacheClock) : ClockEvent → Option CacheClock
  | .tick duration => some { s with now := s.now + duration }
  | .setVersion problemId version =>
    if IsInt version then some { s with polygonVersion := Function.update s.polygonVersion problemId version }
    else none
  | .call i problemId =>
    match s.jobs.get? i with
    | some _ => none
    | none => some { s with jobs := s.jobs.set i ⟨problemId, s.now, .called⟩ }
  | .advance i =>
    match s.jobs.get? i with
    | some job => s.advance i job job.stage
    | none => none
  | .finish i =>
    some { s with
      jobs := s.jobs.erase i
      dbMu := release i s.dbMu
      s3Mu := release i s.s3Mu }
  | .cleanBegin =>
    if s.cleaning = none ∧ cacheCleanupThreshold < s.s3Store.entries.length then
      some { s with cleaning := some s.now }
    else none
  | .clean =>
    match s.cleaning with
    | some now => if s.dbMu = none ∧ s.s3Mu = none then some (s.cleanCache now) else none
    | none => none

/-- An engine that has just been started; the rows have their first version. -/
def start : CacheClock where
  now := 0
  polygonVersion _ := 1
  dbMu := none
  dbStore := Record.empty
  s3Mu := none
  s3Store := Record.empty
  directories _ := false
  jobs := Record.empty
  cleaning := none

end CacheClock

end JudgeSelf.Engine
