import JudgeSelf.Model.Engine.WorkerLoop
import JudgeSelf.Soundness.JudgingLoop
import JudgeSelf.ToMathlib.Except

/-! # The loop of a worker survives

A round of the loop comes back to the `select` if the directory is created, the problem is loaded
twice, and the lock of its checker is free. The log line at the end of a round reads the verdict of
the job, which only `PostExecute` sets: without one it ends the process after the `Nack`.
-/

namespace JudgeSelf.Engine

/-- Every job received is settled once, by `Ack` if its `RunWorker` has returned nil and by `Nack`
otherwise, and the loop is back at the `select`. -/
structure WorkerLoop.Survives (s : WorkerLoop) : Prop where
  running : s.halted = none
  returned : s.returned.map Prod.fst = s.received
  settled : s.settlements = s.returned.map fun job => (job.1, if job.2 = none then .ack else .nack)

/-- The test count is not negative, or one of the compilations yields no binary. -/
def Delivery.Judges (delivery : Delivery) (problemData : ProblemData) (item : CheckerItem) : Prop :=
  let job : Job := ⟨delivery.submissionData, problemData⟩
  let (checkerBin, _, w) := compileCheckerCode delivery.env job (delivery.worldWith item)
  0 ≤ problemData.testCount ∨ checkerBin = none ∨ (compileUserCode delivery.env job w).1 = none

/-- The directory is created, both lookups of the problem succeed, and the checker of the problem is
not left locked. -/
def LoopEvent.Smooth (s : WorkerLoop) : LoopEvent → Prop
  | .round delivery => delivery.mkdirAll = none ∧ ∃ problemData cacheItem, delivery.preExecute = .ok problemData ∧
      delivery.cacheItem = .ok cacheItem ∧ (s.items cacheItem).held = false ∧
      delivery.Judges problemData (s.items cacheItem)
  | .others _ _ => True

variable {delivery : Delivery} {problemData : ProblemData} {items : ℕ → CheckerItem} {s t : WorkerLoop}

private theorem isSome_returnedResults_iff {item : CheckerItem} :
    (returnedResults delivery.env ⟨delivery.submissionData, problemData⟩ (delivery.worldWith item)).isSome ↔
      delivery.Judges problemData item := by
  rw [returnedResults, Delivery.Judges]
  rcases compileCheckerCode delivery.env ⟨delivery.submissionData, problemData⟩ (delivery.worldWith item) with
    ⟨checkerBin, _, w⟩
  rcases compiled : compileUserCode delivery.env ⟨delivery.submissionData, problemData⟩ w with ⟨userCodeBin, _, _⟩
  cases checkerBin with
  | none => simp [compiled]
  | some checkerBin =>
    cases userCodeBin with
    | none => simp [compiled]
    | some userCodeBin => simp [compiled]

/-- `ExecuteWorker` returns if the item is there, unlocked, and the test count is not negative. -/
theorem executeWorker_of_free {cacheItem : ℕ} (found : delivery.cacheItem = .ok cacheItem)
    (free : (items cacheItem).held = false) (judges : delivery.Judges problemData (items cacheItem)) :
    ∃ results after, delivery.executeWorker problemData items = .ok (results, after) ∧ results ≠ [] := by
  obtain ⟨results, returned⟩ := Option.isSome_iff_exists.mp (isSome_returnedResults_iff.mpr judges)
  have ran : ∃ after, delivery.executeWorker problemData items = .ok (results, after) := by
    simp only [Delivery.executeWorker, found, free, returned]
    exact ⟨_, rfl⟩
  obtain ⟨after, ran⟩ := ran
  exact ⟨results, after, ran, returnedResults_ne_nil returned⟩

private theorem of_executeWorker_eq_ok {results : List Models.Result} {after : ℕ → CheckerItem}
    (ran : delivery.executeWorker problemData items = .ok (results, after)) :
    ∃ cacheItem, delivery.cacheItem = .ok cacheItem ∧ (items cacheItem).held = false ∧
      delivery.Judges problemData (items cacheItem) := by
  rw [Delivery.executeWorker] at ran
  cases found : delivery.cacheItem with
  | error err => rw [found] at ran; contradiction
  | ok cacheItem =>
    simp only [found] at ran
    split at ran
    · contradiction
    · next free =>
      split at ran
      · contradiction
      · next returned =>
        refine ⟨cacheItem, rfl, by simpa using free, ?_⟩
        exact isSome_returnedResults_iff.mp (by rw [returned]; rfl)

/-- The log line has its arguments exactly behind a `PostExecute` with results. -/
theorem exists_logVerdict_eq_ok_iff {job : RunningJob} :
    (∃ entry, job.logVerdict = .ok entry) ↔ ∃ verdict, job.verdict = some verdict ∧ verdict.results ≠ [] := by
  rw [RunningJob.logVerdict]
  cases job.verdict with
  | none => simp
  | some verdict =>
    cases ending : verdict.results.getLast? with
    | none => simp [List.getLast?_eq_none_iff.mp ending]
    | some last =>
      have some : verdict.results ≠ [] := by
        intro none
        rw [none] at ending
        contradiction
      simp [ending, some]

/-- A round that is smooth in the state before it ends with a log line that has its arguments. -/
theorem runWorker_of_smooth (smooth : (LoopEvent.round delivery).Smooth s) :
    ∃ err job after, delivery.runWorker s.items = .ok (err, job, after) ∧ ∃ entry, job.logVerdict = .ok entry := by
  obtain ⟨created, problemData, cacheItem, loaded, found, free, judges⟩ := smooth
  obtain ⟨results, after, executed, last⟩ := executeWorker_of_free found free judges
  obtain ⟨post, posted, verdict⟩ := @postExecute_verdict (fun _ => delivery.updateSubmission)
    ⟨delivery.submissionData, problemData⟩ _ _ (List.getLast?_eq_getLast_of_ne_nil last)
  refine ⟨post.error, ⟨delivery.submissionData, some problemData, some post.verdict⟩, after, ?_,
    exists_logVerdict_eq_ok_iff.mpr ⟨post.verdict, rfl, by rwa [verdict]⟩⟩
  simp only [Delivery.runWorker, created, loaded, executed, bind, Except.bind, posted]

/-- Only a smooth round ends so. -/
theorem smooth_of_runWorker {err : Option String} {job : RunningJob} {after : ℕ → CheckerItem}
    {entry : ℤ × ℤ × String × String} (ran : delivery.runWorker s.items = .ok (err, job, after))
    (logged : job.logVerdict = .ok entry) : (LoopEvent.round delivery).Smooth s := by
  obtain ⟨verdict, set, _⟩ := exists_logVerdict_eq_ok_iff.mp ⟨entry, logged⟩
  rw [Delivery.runWorker] at ran
  cases created : delivery.mkdirAll with
  | some err =>
    simp only [created, Except.ok.injEq, Prod.mk.injEq] at ran
    rw [← ran.2.1] at set
    contradiction
  | none =>
    cases loaded : delivery.preExecute with
    | error err =>
      simp only [created, loaded, Except.ok.injEq, Prod.mk.injEq] at ran
      rw [← ran.2.1] at set
      contradiction
    | ok problemData =>
      simp only [created, loaded] at ran
      obtain ⟨executed, ran, _⟩ := Except.bind_eq_ok_iff.mp ran
      obtain ⟨cacheItem, found, free, judges⟩ := of_executeWorker_eq_ok ran
      exact ⟨created, problemData, cacheItem, loaded, found, free, judges⟩

/-- A round keeps the loop going exactly if it is smooth. -/
theorem survives_round_iff (survives : s.Survives) :
    (s.round delivery).Survives ↔ (LoopEvent.round delivery).Smooth s := by
  constructor
  · intro after
    have running := after.running
    rw [WorkerLoop.round] at running
    cases ran : delivery.runWorker s.items with
    | error halt => simp only [ran] at running; contradiction
    | ok reply =>
      obtain ⟨err, job, items⟩ := reply
      cases logged : job.logVerdict with
      | error halt => simp only [ran, logged] at running; contradiction
      | ok entry => exact smooth_of_runWorker ran logged
  · intro smooth
    obtain ⟨err, job, items, ran, entry, logged⟩ := runWorker_of_smooth smooth
    rw [WorkerLoop.round]
    simp only [ran, logged]
    refine ⟨survives.running, ?_, ?_⟩
    · simp [survives.returned]
    · rw [List.map_append, survives.settled]
      by_cases nil : err = none
      · simp [nil, WorkerLoop.settlement]
      · simp [nil, WorkerLoop.settlement]

private theorem survives_step_iff (s : WorkerLoop) (event : LoopEvent) (t : WorkerLoop) (survives : s.Survives)
    (taken : s.step event = some t) : t.Survives ↔ event.Smooth s := by
  cases event with
  | round delivery =>
    rw [WorkerLoop.step, if_pos survives.running] at taken
    obtain rfl := Option.some_inj.mp taken
    exact survives_round_iff survives
  | others cacheItem item =>
    rw [WorkerLoop.step, if_pos survives.running] at taken
    split at taken
    · contradiction
    · obtain rfl := Option.some_inj.mp taken
      exact iff_of_true ⟨survives.running, survives.returned, survives.settled⟩ trivial

/-- All along a run of the loop every job received is settled once, by `Ack` exactly if its `RunWorker` has
returned nil, and the loop comes back to the `select`, exactly if every round is smooth. -/
theorem loop_survives_iff {events : List LoopEvent} {final : WorkerLoop}
    (run : Machine.Run (Machine.Steps WorkerLoop.step) .start events final) :
    (∀ done mid, done <+: events → Machine.Run (Machine.Steps WorkerLoop.step) .start done mid → mid.Survives) ↔
      Machine.Run (Machine.Guarded (Machine.Steps WorkerLoop.step) fun s event => event.Smooth s)
        .start events final :=
  Machine.Run.always_iff_guarded survives_step_iff ⟨rfl, rfl, rfl⟩ run

/-- A job that is judged if its checker is in the cache, and whose checker does not compile otherwise. -/
def judgedDelivery (tag : ℕ) : Delivery where
  tag := tag
  submissionData := pythonJob.submissionData
  mkdirAll := none
  preExecute := .ok pythonJob.problemData
  cacheItem := .ok 0
  env := steadyIsolate none ""
  world := idleWorker
  updateSubmission := none

/-- The same with a verdict that is not stored. -/
def unstoredDelivery (tag : ℕ) : Delivery :=
  { judgedDelivery tag with updateSubmission := some "connection reset" }

/-- A worker at the start; another one has compiled the checker. -/
def compiledLoop : WorkerLoop :=
  { WorkerLoop.start with items := Function.update WorkerLoop.start.items 0 ⟨some "checker", false⟩ }

/-- Both jobs are settled, though the verdict of the second one is not stored. -/
theorem judged_rounds_survive :
    ∃ final, Machine.Run (Machine.Steps WorkerLoop.step) .start
        [.others 0 ⟨some "checker", false⟩, .round (judgedDelivery 1), .round (unstoredDelivery 2)] final ∧
      final.Survives ∧ final.settlements = [(1, .ack), (2, .nack)] := by
  have compiled : WorkerLoop.start.step (.others 0 ⟨some "checker", false⟩) = some compiledLoop := by
    rw [WorkerLoop.step, if_pos (show WorkerLoop.start.halted = none from rfl)]
    exact if_neg (by decide)
  have first : compiledLoop.step (.round (judgedDelivery 1)) = some (compiledLoop.round (judgedDelivery 1)) :=
    if_pos rfl
  have second : (compiledLoop.round (judgedDelivery 1)).step (.round (unstoredDelivery 2)) =
      some ((compiledLoop.round (judgedDelivery 1)).round (unstoredDelivery 2)) := if_pos (by decide +kernel)
  have guarded : Machine.Run (Machine.Guarded (Machine.Steps WorkerLoop.step) fun s event => event.Smooth s) .start
      [.others 0 ⟨some "checker", false⟩, .round (judgedDelivery 1), .round (unstoredDelivery 2)]
      ((compiledLoop.round (judgedDelivery 1)).round (unstoredDelivery 2)) := by
    refine ⟨_, ⟨trivial, compiled⟩, _, ⟨⟨rfl, pythonJob.problemData, 0, rfl, rfl, rfl, ?_⟩, first⟩, _,
      ⟨⟨rfl, pythonJob.problemData, 0, rfl, rfl, by decide +kernel, ?_⟩, second⟩, rfl⟩
    · exact .inl (by decide)
    · exact .inl (by decide)
  have run := guarded.mono fun _ _ _ step => step.2
  exact ⟨_, run, (loop_survives_iff run).mpr guarded _ _ (List.prefix_refl _) run, by decide +kernel⟩

/-- The problem cannot be loaded. -/
def unloadedRound : WorkerLoop :=
  WorkerLoop.start.round { judgedDelivery 1 with preExecute := .error "connection refused" }

/-- The archive is gone from the cache, and cannot be downloaded. -/
def evictedRound : WorkerLoop :=
  WorkerLoop.start.round { judgedDelivery 1 with cacheItem := .error "connection refused" }

/-- Two jobs of a problem whose checker does not compile. -/
def uncompiledRound : WorkerLoop := WorkerLoop.start.round (judgedDelivery 1)

def waitingRound : WorkerLoop := uncompiledRound.round (judgedDelivery 2)

/-- A delivery is rejected, and the log line behind that panics; a worker panics with its delivery unsettled;
the second job of a problem waits for ever. -/
theorem rounds_that_do_not_come_back :
    (unloadedRound.settlements = [(1, .nack)] ∧ unloadedRound.halted = some .nilVerdict ∧ ¬ unloadedRound.Survives) ∧
    (evictedRound.settlements = [] ∧ evictedRound.halted = some .nilCacheItem ∧ ¬ evictedRound.Survives) ∧
    uncompiledRound.Survives ∧ waitingRound.settlements = [(1, .ack)] ∧ waitingRound.halted = some .lockHeld ∧
      ¬ waitingRound.Survives := by
  have stops {s : WorkerLoop} (halted : s.halted ≠ none) : ¬ s.Survives := fun survives => halted survives.running
  refine ⟨⟨by decide +kernel, by decide +kernel, stops (by decide +kernel)⟩,
    ⟨by decide +kernel, by decide +kernel, stops (by decide +kernel)⟩, ?_⟩
  exact ⟨⟨by decide +kernel, by decide +kernel, by decide +kernel⟩, by decide +kernel, by decide +kernel,
    stops (by decide +kernel)⟩

end JudgeSelf.Engine
