import JudgeSelf.Model.Engine.CacheClock

/-! # Problems in use and the cleaner

An entry of the database cache outlives the jobs that have read it: it expires after their start, and
the cleaner waits for the buffer on top. An archive is nevertheless deleted under a running job as soon
as a newer version of the problem is stored, since that reason knows no buffer.
-/

namespace JudgeSelf.Engine

/-- `DbCache.GetOrLoad` has returned. -/
def JobStage.Looked : JobStage → Prop
  | .looked _ | .downloading _ | .running _ _ => True
  | .called | .missed | .querying _ => False

/-- The version that the job has read. -/
def JobStage.version? : JobStage → Option ℤ
  | .querying v | .looked v | .downloading v | .running v _ => some v
  | .called | .missed => none

/-- A job in its time, if it runs, uses the newest stored version of its problem. -/
def ClockJob.Newest (s : CacheClock) (job : ClockJob) : Prop :=
  match job.stage with
  | .running version _ => s.now ≤ job.start + cacheCleanupBuffer →
    ∀ key ∈ s.s3Store.keys, keyId key = job.problemId → keyVersion key ≤ version
  | _ => True

/-- What the caches keep for a job in its time. -/
structure ClockJob.Sheltered (s : CacheClock) (job : ClockJob) : Prop where
  started : job.start ≤ s.now
  canonical : Canonical job.problemId
  versions : ∀ v, job.stage.version? = some v → CacheClock.IsInt v
  listed : job.stage.Looked → s.now ≤ job.start + cacheCleanupBuffer →
    ∃ item, s.dbStore.get? job.problemId = some item ∧ job.start < item.expiresAt
  kept : ∀ version path, job.stage = .running version path → s.now ≤ job.start + cacheCleanupBuffer →
    s.s3Store.get? (cacheKey job.problemId version) = some path

/-- Time passes, and the caches keep what a job needs. -/
theorem ClockJob.Sheltered.mono {s t : CacheClock} {job : ClockJob} (sheltered : job.Sheltered s)
    (later : s.now ≤ t.now)
    (db : ∀ item, s.dbStore.get? job.problemId = some item → job.start < item.expiresAt →
      ∃ item', t.dbStore.get? job.problemId = some item' ∧ job.start < item'.expiresAt)
    (s3 : ∀ key path, s.s3Store.get? key = some path → t.s3Store.get? key = some path) : job.Sheltered t := by
  refine ⟨sheltered.started.trans later, sheltered.canonical, sheltered.versions, fun looked inTime => ?_,
    fun version path at_ inTime => ?_⟩
  · obtain ⟨item, cached, lives⟩ := sheltered.listed looked (later.trans inTime)
    exact db item cached lives
  · exact s3 _ _ (sheltered.kept version path at_ (later.trans inTime))

namespace CacheClock

variable {s t : CacheClock} {i : ℕ} {job : ClockJob}

/-- Ids are canonical, and when the caches are cleaned every job uses the newest stored version. -/
def Undisturbed (s : CacheClock) : ClockEvent → Prop
  | .call _ problemId => Canonical problemId
  | .clean => ∀ e ∈ s.jobs.entries, e.2.Newest s
  | _ => True

structure Sheltered (s : CacheClock) : Prop where
  polygonVersion : ∀ id, IsInt (s.polygonVersion id)
  dbVersions : ∀ id item, s.dbStore.get? id = some item → IsInt item.problemVersion
  paths : ∀ key path, s.s3Store.get? key = some path → path = tmpDir ++ key ∧ s.directories path = true
  cleaning : ∀ now, s.cleaning = some now → now ≤ s.now
  jobs : ∀ i job, s.jobs.get? i = some job → job.Sheltered s

/-- A step that leaves the caches alone and gives one job a stage that they shelter. -/
theorem Sheltered.move (sheltered : s.Sheltered) {job' : ClockJob} (later : s.now ≤ t.now)
    (versions : t.polygonVersion = s.polygonVersion) (db : t.dbStore = s.dbStore) (s3 : t.s3Store = s.s3Store)
    (directories : t.directories = s.directories) (cleaning : t.cleaning = s.cleaning)
    (jobs : t.jobs = s.jobs.set i job') (moved : job'.Sheltered s) : t.Sheltered := by
  have kept {job : ClockJob} (before : job.Sheltered s) : job.Sheltered t :=
    before.mono later (fun item cached lives => ⟨item, db ▸ cached, lives⟩) fun key path stored => s3 ▸ stored
  refine ⟨versions ▸ sheltered.polygonVersion, db ▸ sheltered.dbVersions, fun key path stored => ?_,
    fun now began => (sheltered.cleaning now (cleaning ▸ began)).trans later, fun j job present => ?_⟩
  · rw [directories]
    exact sheltered.paths key path (s3 ▸ stored)
  · rw [jobs, Record.get?_set] at present
    split at present
    · exact Option.some.inj present ▸ kept moved
    · exact kept (sheltered.jobs j job present)

/-- A hit returns the version of an entry that expires after the job's start. -/
theorem Sheltered.hit (sheltered : s.Sheltered) (present : s.jobs.get? i = some job) {v : ℤ}
    (found : s.cached job.problemId = some v) : { job with stage := .looked v }.Sheltered s := by
  have before := sheltered.jobs i job present
  rw [cached] at found
  split at found
  · next item stored =>
    split at found
    · next fresh =>
      obtain rfl := Option.some.inj found
      refine ⟨before.started, before.canonical, fun w same => ?_,
        fun _ _ => ⟨item, stored, before.started.trans_lt fresh⟩, fun _ _ absurdity => JobStage.noConfusion absurdity⟩
      obtain rfl := Option.some.inj same
      exact sheltered.dbVersions _ item stored
    · contradiction
  · contradiction

/-- A job whose stage has no archive yet. -/
private theorem restaged (before : job.Sheltered s) {stage : JobStage}
    (versions : ∀ v, stage.version? = some v → IsInt v) (looked : stage.Looked → job.stage.Looked)
    (waits : ∀ version path, stage ≠ .running version path) : { job with stage }.Sheltered s :=
  ⟨before.started, before.canonical, versions, fun done => before.listed (looked done),
    fun version path same => absurd same (waits version path)⟩

/-- A load renews the entry of a problem. -/
theorem Sheltered.load (sheltered : s.Sheltered) {v : ℤ} (present : s.jobs.get? i = some job)
    (at_ : job.stage = .querying v) : ({ s with
      dbMu := none
      dbStore := s.dbStore.set job.problemId ⟨v, s.now + cacheTtl⟩ }.setStage i job (.looked v)).Sheltered := by
  have before := sheltered.jobs i job present
  have version : IsInt v := before.versions v (by rw [at_]; rfl)
  have renewed (id : String) : (s.dbStore.set job.problemId ⟨v, s.now + cacheTtl⟩).get? id =
      if id = job.problemId then some ⟨v, s.now + cacheTtl⟩ else s.dbStore.get? id := Record.get?_set ..
  have fresh {start : ℤ} (started : start ≤ s.now) : start < s.now + cacheTtl := by
    rw [cacheTtl]
    omega
  refine ⟨sheltered.polygonVersion, fun id item stored => ?_, sheltered.paths, sheltered.cleaning,
    fun j other at_ => ?_⟩
  · change (s.dbStore.set job.problemId _).get? id = some item at stored
    rw [renewed] at stored
    split at stored
    · exact Option.some.inj stored ▸ version
    · exact sheltered.dbVersions id item stored
  · change (s.jobs.set i _).get? j = some other at at_
    rw [Record.get?_set] at at_
    split at at_
    · obtain rfl := Option.some.inj at_
      refine ⟨before.started, before.canonical, fun w same => Option.some.inj same ▸ version, fun _ _ => ?_,
        fun _ _ absurdity => JobStage.noConfusion absurdity⟩
      exact ⟨_, Record.get?_set_self .., fresh before.started⟩
    · have kept := sheltered.jobs j other at_
      refine kept.mono le_rfl (fun item stored lives => ?_) fun _ _ stored => stored
      change ∃ item', (s.dbStore.set job.problemId _).get? other.problemId = some item' ∧ _
      rw [renewed]
      split
      · exact ⟨_, rfl, fresh kept.started⟩
      · exact ⟨item, stored, lives⟩

/-- A download stores the archive and returns its directory. -/
theorem Sheltered.download (sheltered : s.Sheltered) {v : ℤ} (present : s.jobs.get? i = some job)
    (at_ : job.stage = .downloading v) : ({ s with
      s3Mu := none
      s3Store := s.s3Store.set (cacheKey job.problemId v) (tmpDir ++ cacheKey job.problemId v)
      directories := Function.update s.directories (tmpDir ++ cacheKey job.problemId v) true }.setStage i job
        (.running v (tmpDir ++ cacheKey job.problemId v))).Sheltered := by
  have before := sheltered.jobs i job present
  have stored (key : String) :
      (s.s3Store.set (cacheKey job.problemId v) (tmpDir ++ cacheKey job.problemId v)).get? key =
        if key = cacheKey job.problemId v then some (tmpDir ++ cacheKey job.problemId v) else s.s3Store.get? key :=
    Record.get?_set ..
  refine ⟨sheltered.polygonVersion, sheltered.dbVersions, fun key path found => ?_, sheltered.cleaning,
    fun j other at_' => ?_⟩
  · change (s.s3Store.set _ _).get? key = some path at found
    change path = _ ∧ Function.update s.directories _ true path = true
    rw [stored] at found
    split at found
    · next same =>
      obtain rfl := Option.some.inj found
      rw [same, Function.update_self]
      exact ⟨rfl, rfl⟩
    · obtain ⟨located, exists_⟩ := sheltered.paths key path found
      refine ⟨located, ?_⟩
      rw [Function.update_apply]
      split
      · rfl
      · exact exists_
  · change (s.jobs.set i _).get? j = some other at at_'
    rw [Record.get?_set] at at_'
    split at at_'
    · obtain rfl := Option.some.inj at_'
      refine ⟨before.started, before.canonical, fun w same => before.versions w (by rw [at_]; exact same),
        fun _ => before.listed (by rw [at_]; trivial), fun version path same _ => ?_⟩
      obtain ⟨rfl, rfl⟩ := JobStage.running.inj same
      exact Record.get?_set_self ..
    · refine (sheltered.jobs j other at_').mono le_rfl (fun item found lives => ⟨item, found, lives⟩)
        fun key path found => ?_
      change (s.s3Store.set _ _).get? key = some path
      rw [stored]
      split
      · next same => rw [(sheltered.paths key path found).1, same]
      · exact found

theorem Sheltered.advance (sheltered : s.Sheltered) (present : s.jobs.get? i = some job)
    (taken : s.advance i job job.stage = some t) : t.Sheltered := by
  have before := sheltered.jobs i job present
  generalize at_ : job.stage = stage at taken
  cases stage with
  | called =>
    rw [CacheClock.advance] at taken
    split at taken
    · split at taken
      · next found =>
        obtain rfl := Option.some.inj taken
        exact sheltered.move le_rfl rfl rfl rfl rfl rfl rfl (sheltered.hit present found)
      · obtain rfl := Option.some.inj taken
        exact sheltered.move le_rfl rfl rfl rfl rfl rfl rfl
          (restaged before (fun _ absurdity => by contradiction) False.elim fun _ _ => JobStage.noConfusion)
    · contradiction
  | missed =>
    rw [CacheClock.advance] at taken
    split at taken
    · split at taken
      · next found =>
        obtain rfl := Option.some.inj taken
        exact sheltered.move le_rfl rfl rfl rfl rfl rfl rfl (sheltered.hit present found)
      · obtain rfl := Option.some.inj taken
        refine sheltered.move le_rfl rfl rfl rfl rfl rfl rfl
          (restaged before (fun v same => ?_) False.elim fun _ _ => JobStage.noConfusion)
        exact Option.some.inj same ▸ sheltered.polygonVersion job.problemId
    · contradiction
  | querying v =>
    obtain rfl := Option.some.inj taken
    exact sheltered.load present at_
  | looked v =>
    have versions (stage : JobStage) (same : stage.version? = some v) (w : ℤ) (read : stage.version? = some w) :
        IsInt w := before.versions w (by rw [at_, ← read, same]; rfl)
    rw [CacheClock.advance] at taken
    split at taken
    · split at taken
      · next path found =>
        obtain rfl := Option.some.inj taken
        refine sheltered.move le_rfl rfl rfl rfl rfl rfl rfl ⟨before.started, before.canonical, versions _ rfl,
          fun _ => before.listed (by rw [at_]; trivial), fun version path' same _ => ?_⟩
        obtain ⟨rfl, rfl⟩ := JobStage.running.inj same
        exact found
      · obtain rfl := Option.some.inj taken
        exact sheltered.move le_rfl rfl rfl rfl rfl rfl rfl
          (restaged before (versions _ rfl) (fun _ => by rw [at_]; trivial) fun _ _ => JobStage.noConfusion)
    · contradiction
  | downloading v =>
    obtain rfl := Option.some.inj taken
    exact sheltered.download present at_
  | running v path => contradiction

/-- An entry that a job in its time has read is not yet over the buffer. -/
private theorem unexpired (sheltered : job.Sheltered s) {now : ℤ} (began : now ≤ s.now)
    (looked : job.stage.Looked) (inTime : s.now ≤ job.start + cacheCleanupBuffer) :
    ∃ item, (s.cleanCache now).dbStore.get? job.problemId = some item ∧ job.start < item.expiresAt := by
  obtain ⟨item, cached, lives⟩ := sheltered.listed looked inTime
  have buffered : ¬ item.expiresAt + cacheCleanupBuffer < now := by omega
  exact ⟨item, Record.get?_filter.mpr ⟨cached, decide_eq_true buffered⟩, lives⟩

/-- The archive of a job in its time is not stale. -/
private theorem not_stale (sheltered : job.Sheltered s) {now : ℤ} (began : now ≤ s.now) {version : ℤ} {path : String}
    (at_ : job.stage = .running version path) (inTime : s.now ≤ job.start + cacheCleanupBuffer)
    (newest : job.Newest s) :
    ¬ IsStale (s.cleanCache now).dbStore.keys s.s3Store.keys (cacheKey job.problemId version) := by
  have stored := sheltered.kept version path at_ inTime
  rw [isStale_iff (Record.mem_keys_iff.mpr ⟨path, stored⟩), keyId_cacheKey sheltered.canonical]
  rintro (unlisted | ⟨key, present, same, newer⟩)
  · obtain ⟨item, listed, _⟩ := unexpired sheltered began (by rw [at_]; trivial) inTime
    exact unlisted (Record.mem_keys_iff.mpr ⟨item, listed⟩)
  · rw [ClockJob.Newest, at_] at newest
    have bounded := newest inTime key present same
    obtain ⟨lower, upper⟩ := sheltered.versions version (by rw [at_]; rfl)
    rw [keyVersion_cacheKey sheltered.canonical ⟨by omega, by omega⟩] at newer
    exact absurd newer (not_lt.mpr bounded)

/-- Under the condition on versions the cleaner keeps what jobs in their time need. -/
theorem Sheltered.clean (sheltered : s.Sheltered) {now : ℤ} (began : now ≤ s.now)
    (newest : ∀ e ∈ s.jobs.entries, e.2.Newest s) : (s.cleanCache now).Sheltered := by
  refine ⟨sheltered.polygonVersion, fun id item stored => ?_, fun key path stored => ?_,
    fun _ absurdity => by contradiction, fun i job present => ?_⟩
  · exact sheltered.dbVersions id item (Record.get?_filter.mp stored).1
  · obtain ⟨stored, fresh⟩ := Record.get?_filter.mp stored
    obtain ⟨rfl, exists_⟩ := sheltered.paths key path stored
    refine ⟨rfl, ?_⟩
    rw [CacheClock.cleanCache, Bool.and_eq_true, Bool.not_eq_true', List.any_eq_false]
    refine ⟨exists_, fun e member removed => ?_⟩
    -- directories of different keys differ
    obtain ⟨stale, same⟩ := Bool.and_eq_true_iff.mp removed
    have located := (sheltered.paths e.1 e.2 (Record.get?_eq_some_iff.mpr member)).1
    rw [decide_eq_true_eq, located, String.append_right_inj] at same
    dsimp only at stale fresh
    rw [same] at stale
    rw [stale] at fresh
    contradiction
  · have before := sheltered.jobs i job present
    have fits := newest (i, job) (Record.get?_eq_some_iff.mp present)
    refine ⟨before.started, before.canonical, before.versions,
      fun looked inTime => unexpired before began looked inTime,
      fun version path at_ inTime => Record.get?_filter.mpr ⟨before.kept version path at_ inTime, ?_⟩⟩
    rw [Bool.not_eq_true', decide_eq_false_iff_not]
    exact not_stale before began at_ inTime fits

theorem Sheltered.step (sheltered : s.Sheltered) {event : ClockEvent} (undisturbed : s.Undisturbed event)
    (taken : s.step event = some t) : t.Sheltered := by
  cases event with
  | tick duration =>
    obtain rfl := Option.some.inj taken
    have later : s.now ≤ s.now + duration := by omega
    exact ⟨sheltered.polygonVersion, sheltered.dbVersions, sheltered.paths,
      fun now began => (sheltered.cleaning now began).trans later,
      fun i job present => (sheltered.jobs i job present).mono later (fun item stored lives => ⟨item, stored, lives⟩)
        fun _ _ stored => stored⟩
  | setVersion id version =>
    rw [CacheClock.step] at taken
    split at taken
    · next inRange =>
      obtain rfl := Option.some.inj taken
      refine ⟨fun other => ?_, sheltered.dbVersions, sheltered.paths, sheltered.cleaning, fun i job present => ?_⟩
      · change IsInt (Function.update s.polygonVersion id version other)
        rw [Function.update_apply]
        split
        · exact inRange
        · exact sheltered.polygonVersion other
      · exact (sheltered.jobs i job present).mono le_rfl (fun item stored lives => ⟨item, stored, lives⟩)
          fun _ _ stored => stored
    · contradiction
  | call i id =>
    rw [CacheClock.step] at taken
    split at taken
    · contradiction
    · obtain rfl := Option.some.inj taken
      exact sheltered.move le_rfl rfl rfl rfl rfl rfl rfl ⟨le_rfl, undisturbed, fun _ absurdity => by contradiction,
        False.elim, fun _ _ absurdity => JobStage.noConfusion absurdity⟩
  | advance i =>
    rw [CacheClock.step] at taken
    split at taken
    · next present => exact sheltered.advance present taken
    · contradiction
  | finish i =>
    obtain rfl := Option.some.inj taken
    refine ⟨sheltered.polygonVersion, sheltered.dbVersions, sheltered.paths, sheltered.cleaning,
      fun j job present => ?_⟩
    change (s.jobs.erase i).get? j = some job at present
    rw [Record.get?_erase] at present
    split at present
    · contradiction
    · exact (sheltered.jobs j job present).mono le_rfl (fun item stored lives => ⟨item, stored, lives⟩)
        fun _ _ stored => stored
  | cleanBegin =>
    rw [CacheClock.step] at taken
    split at taken
    · obtain rfl := Option.some.inj taken
      refine ⟨sheltered.polygonVersion, sheltered.dbVersions, sheltered.paths,
        fun now began => (Option.some.inj began).ge, fun j job present => ?_⟩
      exact (sheltered.jobs j job present).mono le_rfl (fun item stored lives => ⟨item, stored, lives⟩)
        fun _ _ stored => stored
    · contradiction
  | clean =>
    rw [CacheClock.step] at taken
    split at taken
    · next now began =>
      split at taken
      · obtain rfl := Option.some.inj taken
        exact sheltered.clean (sheltered.cleaning now began) undisturbed
      · contradiction
    · contradiction

private theorem sheltered_start : start.Sheltered := by
  refine ⟨fun _ => (by decide : IsInt 1), fun _ _ absurdity => ?_, fun _ _ absurdity => ?_,
    fun _ absurdity => by contradiction, fun _ _ absurdity => ?_⟩
  all_goals
    rw [start, Record.get?_empty] at absurdity
    contradiction

end CacheClock

/-- In every run in which the caches are cleaned only while every job uses the newest stored version of its
problem, the directory that a running job was given exists until the end of the job's time. -/
theorem problem_in_use_kept {events : List ClockEvent} {s : CacheClock}
    (run : Machine.Run (Machine.Guarded (Machine.Steps CacheClock.step) CacheClock.Undisturbed) .start events s)
    {i : ℕ} {job : ClockJob} (present : s.jobs.get? i = some job) {version : ℤ} {localProblemDir : String}
    (running : job.stage = .running version localProblemDir) (inTime : s.now ≤ job.start + cacheCleanupBuffer) :
    s.directories localProblemDir = true := by
  have sheltered : s.Sheltered := run.invariant
    (fun _ _ _ sheltered ⟨undisturbed, taken⟩ => sheltered.step undisturbed taken) CacheClock.sheltered_start
  exact (sheltered.paths _ _ ((sheltered.jobs i job present).kept version localProblemDir running inTime)).2

instance (s : CacheClock) (job : ClockJob) : Decidable (job.Newest s) :=
  match at_ : job.stage with
  | .running version _ =>
    decidable_of_iff (s.now ≤ job.start + cacheCleanupBuffer →
      ∀ key ∈ s.s3Store.keys, keyId key = job.problemId → keyVersion key ≤ version) (by rw [ClockJob.Newest, at_])
  | .called | .missed | .querying _ | .looked _ | .downloading _ => isTrue (by rw [ClockJob.Newest, at_]; trivial)

instance (s : CacheClock) (event : ClockEvent) : Decidable (s.Undisturbed event) :=
  match event with
  | .call _ problemId => inferInstanceAs (Decidable ('_' ∉ problemId.toList))
  | .clean => inferInstanceAs (Decidable (∀ e ∈ s.jobs.entries, e.2.Newest s))
  | .tick _ | .setVersion _ _ | .advance _ | .finish _ | .cleanBegin => isTrue trivial

/-- Job `i` on a problem that is in neither cache, up to the directory. -/
def firstJob (i : ℕ) (problemId : String) : List ClockEvent := .call i problemId :: List.replicate 5 (.advance i)

/-- Jobs on 31 problems, one after another. -/
def filled : List ClockEvent := (List.range 31).flatMap fun i => firstJob i (toString i) ++ [.finish i]

/-- A job on the first problem one nanosecond before its entry expires. -/
def inUse : List ClockEvent := filled ++ [.tick (5 * 60 * 10 ^ 9 - 1), .call 40 "0", .advance 40, .advance 40]

def runningJob : ClockJob := ⟨"0", cacheTtl - 1, .running 1 (tmpDir ++ "0_1")⟩

/-- A clean-up under the job, with one version of every problem. -/
def cleanedInUse : List ClockEvent := inUse ++ [.tick 1, .cleanBegin, .clean]

/-- Another job stores a newer version of the problem before the clean-up. -/
def updatedInUse : List ClockEvent :=
  inUse ++ [.setVersion "0" 2, .tick 1] ++ firstJob 41 "0" ++ [.cleanBegin, .clean]

theorem same_version_kept : ∃ final,
    cleanedInUse.foldlM (Machine.guardedStep CacheClock.step CacheClock.Undisturbed) .start = some final ∧
      final.jobs.get? 40 = some runningJob ∧ final.directories (tmpDir ++ "0_1") = true := by
  have ended : (cleanedInUse.foldlM (Machine.guardedStep CacheClock.step CacheClock.Undisturbed) .start).map
      (fun final => (final.jobs.get? 40, final.now)) = some (some runningJob, cacheTtl) := by
    decide +kernel
  obtain ⟨final, executed, state⟩ := Option.map_eq_some_iff.mp ended
  obtain ⟨present, now⟩ := Prod.mk.inj state
  exact ⟨final, executed, present,
    problem_in_use_kept (.of_foldlM_guarded executed) present rfl (by rw [now]; decide)⟩

/-- A job on version 1 has been running for one nanosecond when another one stores version 2 and the cleaner
deletes version 1. -/
theorem newer_version_deletes_in_use : ∃ final,
    updatedInUse.foldlM CacheClock.step .start = some final ∧
      final.jobs.get? 40 = some runningJob ∧ final.now = runningJob.start + 1 ∧
      final.directories (tmpDir ++ "0_1") = false := by
  have ended : (updatedInUse.foldlM CacheClock.step .start).map
      (fun final => (final.jobs.get? 40, final.now, final.directories (tmpDir ++ "0_1"))) =
        some (some runningJob, cacheTtl, false) := by
    decide +kernel
  obtain ⟨final, executed, state⟩ := Option.map_eq_some_iff.mp ended
  simp only [Prod.mk.injEq] at state
  obtain ⟨present, now, deleted⟩ := state
  exact ⟨final, executed, present, by rw [now]; rfl, deleted⟩

end JudgeSelf.Engine
