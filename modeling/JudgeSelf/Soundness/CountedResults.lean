import JudgeSelf.Model.Submission.Auth
import JudgeSelf.Soundness.LiveStatus

/-! # Where the results on the live board come from

Every result that the live board counts goes back to a request of its user at a time of the contest, and to an
execution of the program of that request, whatever fails, is delivered again or is started again on the way.
-/

namespace JudgeSelf

namespace Engine

variable {s t : System} {event : Event}

/-- What is said of every stage survives a step if the stages that a worker enters satisfy it. -/
theorem workers_step {P Q : Stage → Prop} (all : ∀ worker, P (s.pool.workers worker))
    (weaken : ∀ stage, P stage → Q stage)
    (idle : Q .idle) (started : ∀ job, Q (.started job))
    (returned : ∀ job error verdict, Q (.returned job error verdict))
    (called : ∀ worker call stage, event = .call worker call →
      (s.pool.workers worker).call call = some stage → Q stage)
    (taken : s.step event = some t) (worker : ℕ) : Q (t.pool.workers worker) := by
  have kept := fun worker => weaken _ (all worker)
  have set {here : ℕ} {stage : Stage} (entered : Q stage) : Q ((s.pool.setWorker here stage).workers worker) := by
    rw [Pool.setWorker]
    dsimp only
    rcases eq_or_ne worker here with rfl | differs
    · rw [Function.update_self]
      exact entered
    · rw [Function.update_of_ne differs]
      exact kept worker
  cases System.effect_of_step taken with
  | @consume sent delivery deliveries _ =>
    have same : (s.consume sent delivery deliveries).pool.workers = s.pool.workers := by
      rw [System.consume]
      split <;> rfl
    exact same ▸ kept worker
  | receive => exact set (started _)
  | call stepped => exact set (called _ _ _ rfl stepped)
  | @postExecute _ _ job problemData results _ =>
    rw [System.postExecute]
    split
    · exact idle
    · exact set (returned _ _ _)
  | @settle _ _ _ _ verdict _ =>
    cases verdict with
    | none => exact idle
    | some verdict => exact set idle
  | exit => exact idle
  | _ => exact kept worker

end Engine

open Engine (System Event Stage SubmissionData ProblemData executeWorker)
open SubmissionService (Calls SubmissionRequest unix)
open LeaderboardService (QueueMessage Delivery ProblemProblemState firstVerdicts)

/-- `HandleSubmit` makes the submission of a request; a RATED one is in time for the contest of its problem. -/
structure SubmissionService.Calls.Accepts (calls : Calls) (req : SubmissionRequest)
    (problemData : SubmissionService.ProblemData) (data : SubmissionData) : Prop where
  problem : calls.problem = .ok problemData
  newId : calls.newId = .ok data.submissionId
  problemId : data.problemId = problemData.problemId
  sourceCode : data.sourceCode = req.code
  sourceLanguage : data.sourceLanguage = req.language
  inTime : data.type = "RATED" → problemData.contestInfo.startTime ≤ calls.now 0 ∧
    calls.now 1 ≤ problemData.contestInfo.endTime
  relativeTime : data.type = "RATED" →
    data.relativeSubmissionTime = unix (calls.now 2) - unix problemData.contestInfo.startTime

theorem SubmissionService.accepts_of_beginSubmit {calls : Calls} {userId : String} {body : Option SubmissionRequest}
    {stores after : Stores} {message : QueueMessage}
    (begun : beginSubmit calls userId body stores = (.ok message, after))
    {data : SubmissionData} (decoded : Engine.decode (.submission message) = some data) :
    ∃ req problemData, body = some req ∧ data.userId = userId ∧ calls.Accepts req problemData data := by
  obtain rfl := Option.some.inj decoded
  cases body with
  | none => cases begun
  | some req =>
    rw [beginSubmit] at begun
    dsimp only at begun
    split at begun
    · cases begun
    · cases begun
    · next problemData found =>
      split at begun
      · cases begun
      · next id created =>
        obtain ⟨same, -⟩ := Prod.mk.inj begun
        obtain rfl := Except.ok.inj same
        have practice : "PRACTICE" ≠ "RATED" := by decide
        refine ⟨req, problemData, rfl, userId_classify _ _ _ _, found, created, rfl, ?_, ?_, ?_, ?_⟩
        all_goals
          dsimp only [queueMessage]
          rw [classify]
          split
        · rfl
        · rfl
        · rfl
        · rfl
        · exact fun rated => absurd rated practice
        · next inTime =>
          rw [not_or, not_lt, not_lt] at inTime
          exact fun _ => inTime
        · exact fun rated => absurd rated practice
        · exact fun _ => rfl

/-- Among the events is the request of a submission, for a problem of the contest that the table has. -/
def Requested (contestOf : String → String) (events : List PipelineEvent) (data : SubmissionData) : Prop :=
  ∃ calls req problemData, .engine (.beginSubmit calls data.userId (some req)) ∈ events ∧
    calls.Accepts req problemData data ∧ problemData.contestInfo.contestId = contestOf data.problemId

/-- Among the events is an execution of the submission after its request, by a worker that had loaded it, with these
results. -/
def Executed (contestOf : String → String) (events : List PipelineEvent) (data : SubmissionData)
    (problemData : ProblemData) (results : List Engine.Models.Result) : Prop :=
  problemData.problemId = data.problemId ∧ problemData.contestId = contestOf data.problemId ∧
    ∃ done mid worker tag env w, done ++ [.engine (.call worker (.executeWorker env w))] <+: events ∧
      Machine.Run (Machine.Steps Pipeline.step) .start done mid ∧
      mid.engine.pool.workers worker = .loaded ⟨tag, data⟩ problemData ∧
      Requested contestOf done data ∧ results = (executeWorker env ⟨data, problemData⟩ w).1

/-- The verdict is that of an execution of a RATED submission. -/
def Judged (contestOf : String → String) (events : List PipelineEvent) (verdict : QueueMessage) : Prop :=
  ∃ data problemData results last, Executed contestOf events data problemData results ∧ data.type = "RATED" ∧
    results.getLast? = some last ∧
    verdict = ⟨data.submissionId, problemData.contestId, data.userId, problemData.problemId, last.status,
      data.relativeSubmissionTime⟩

variable {contestOf : String → String} {done : List PipelineEvent} {data : SubmissionData}
  {problemData : ProblemData}

theorem Requested.later (requested : Requested contestOf done data) (more : List PipelineEvent) :
    Requested contestOf (done ++ more) data := by
  obtain ⟨calls, req, problem, member, rest⟩ := requested
  exact ⟨calls, req, problem, List.mem_append_left _ member, rest⟩

theorem Executed.later {results : List Engine.Models.Result}
    (executed : Executed contestOf done data problemData results)
    (more : List PipelineEvent) : Executed contestOf (done ++ more) data problemData results := by
  obtain ⟨problem, contest, before, mid, worker, tag, env, w, front, rest⟩ := executed
  exact ⟨problem, contest, before, mid, worker, tag, env, w, front.trans (List.prefix_append _ _), rest⟩

theorem Judged.later {verdict : QueueMessage} (judged : Judged contestOf done verdict) (more : List PipelineEvent) :
    Judged contestOf (done ++ more) verdict := by
  obtain ⟨data, problemData, results, last, executed, rest⟩ := judged
  exact ⟨data, problemData, results, last, executed.later more, rest⟩

namespace Pipeline

variable {s t : Pipeline} {verdict : QueueMessage}

/-- Both services read the problems table, in which no problem changes its contest. -/
def ReadsTable (contestOf : String → String) (s : Pipeline) : PipelineEvent → Prop
  | .engine (.beginSubmit calls _ _) => ∀ problemData ∈ calls.problem.toOption,
      problemData.contestInfo.contestId = contestOf problemData.problemId
  | .engine (.call worker (.preExecute loaded)) => ∀ job, s.engine.pool.workers worker = .prepared job →
      ∀ problemData ∈ loaded.toOption, problemData.problemId = job.data.problemId ∧
        problemData.contestId = contestOf job.data.problemId
  | _ => True

/-- What a worker has loaded and executed. -/
def StageTraced (contestOf : String → String) (done : List PipelineEvent) : Stage → Prop
  | .loaded job problemData =>
    problemData.problemId = job.data.problemId ∧ problemData.contestId = contestOf job.data.problemId
  | .executed job problemData results => Executed contestOf done job.data problemData results
  | _ => True

structure Traced (contestOf : String → String) (done : List PipelineEvent) (s : Pipeline) : Prop where
  requested : s.engine.All (Requested contestOf done)
  workers : ∀ worker, StageTraced contestOf done (s.engine.pool.workers worker)
  outbox : ∀ worker verdict, s.outbox worker = some verdict → Judged contestOf done verdict
  verdicts : ∀ verdict ∈ s.verdicts, Judged contestOf done verdict
  handled : ∀ delivery ∈ s.handled, Judged contestOf done delivery.verdict

private theorem traced_start : Traced contestOf [] start where
  requested := System.all_start
  workers _ := trivial
  outbox := nofun
  verdicts := List.forall_mem_nil _
  handled := List.forall_mem_nil _

theorem StageTraced.later {stage : Stage} (traced : StageTraced contestOf done stage) (more : List PipelineEvent) :
    StageTraced contestOf (done ++ more) stage := by
  cases stage with
  | executed job problemData results => exact Executed.later traced more
  | _ => exact traced

/-- A call leads from a known stage to a known stage. -/
theorem stageTraced_call (run : Machine.Run (Machine.Steps step) start done s) {worker : ℕ} {call : Engine.Call}
    {stage : Stage} (traced : Traced contestOf done s)
    (reads : s.ReadsTable contestOf (.engine (.call worker call)))
    (called : (s.engine.pool.workers worker).call call = some stage) :
    StageTraced contestOf (done ++ [.engine (.call worker call)]) stage := by
  have known := traced.workers worker
  cases Engine.Stage.called_of_call called with
  | prepared | undirected | unloaded => trivial
  | @loaded job problemData at_ => exact reads job at_ problemData rfl
  | @executed job problemData env w at_ =>
    rw [at_] at known
    have requested := traced.requested.workers worker job (by rw [at_]; rfl)
    exact ⟨known.1, known.2, done, s, worker, job.tag, env, w, List.prefix_refl _, run, at_, requested, rfl⟩

/-- What `PostExecute` publishes is the verdict of the results of its worker. -/
theorem judged_of_published {event : Event} (traced : Traced contestOf done s) {worker : ℕ}
    {ended : Engine.PostExecution} (ran : s.engine.postExecution? event = some (worker, ended))
    (published : ended.published = some verdict) : Judged contestOf done verdict := by
  cases event with
  | postExecute here error =>
    rw [System.postExecution?] at ran
    split at ran
    · next job problemData results stage =>
      have executed := traced.workers here
      rw [stage] at executed
      obtain ⟨after, finished, same⟩ := Option.map_eq_some_iff.mp ran
      obtain ⟨rfl, rfl⟩ := Prod.mk.inj same
      obtain ⟨stored, last, rfl⟩ := Option.map_eq_some_iff.mp finished
      obtain ⟨final, isLast, rfl⟩ := Option.map_eq_some_iff.mp last
      cases error with
      | some err => cases published
      | none =>
        dsimp only at published
        split at published
        · next rated =>
          obtain rfl := Option.some.inj published
          exact ⟨job.data, problemData, results, final, executed, rated, isLast, rfl⟩
        · contradiction
    · contradiction
  | _ => cases ran

theorem Traced.engine (run : Machine.Run (Machine.Steps step) start done s) {event : Event} {engine : System}
    (traced : Traced contestOf done s)
    (reads : s.ReadsTable contestOf (.engine event)) (stepped : s.engine.step event = some engine) :
    Traced contestOf (done ++ [.engine event]) { s with engine, outbox := s.outboxAfter event engine } where
  requested := by
    refine (traced.requested.imp fun data requested => requested.later [.engine event]).step ?_ stepped
    rintro calls userId body message stores rfl begun data decoded
    obtain ⟨req, problemData, rfl, rfl, accepts⟩ := SubmissionService.accepts_of_beginSubmit begun decoded
    refine ⟨calls, req, problemData, List.mem_append_right _ (List.mem_singleton_self _), accepts, ?_⟩
    rw [accepts.problemId]
    exact reads problemData (by rw [accepts.problem]; rfl)
  workers := by
    refine Engine.workers_step traced.workers (fun stage known => known.later _) trivial (fun _ => trivial)
      (fun _ _ _ => trivial) ?_ stepped
    rintro worker call stage rfl called
    exact stageTraced_call run traced reads called
  outbox worker verdict outstanding := by
    have before (kept : s.outbox worker = some verdict) : Judged contestOf (done ++ [.engine event]) verdict :=
      (traced.outbox worker verdict kept).later _
    dsimp only [outboxAfter] at outstanding
    split at outstanding
    · split at outstanding
      · next ran =>
        split at outstanding
        · exact (judged_of_published traced ran outstanding).later _
        · exact before outstanding
      · exact before outstanding
    · contradiction
  verdicts verdict member := (traced.verdicts verdict member).later _
  handled delivery member := (traced.handled delivery member).later _

theorem Traced.step (run : Machine.Run (Machine.Steps step) start done s) {event : PipelineEvent}
    (traced : Traced contestOf done s) (reads : s.ReadsTable contestOf event) (taken : s.step event = some t) :
    Traced contestOf (done ++ [event]) t := by
  have requested := traced.requested.imp fun data requested => requested.later [event]
  have workers := fun worker => (traced.workers worker).later [event]
  have verdicts := fun verdict member => (traced.verdicts verdict member).later [event]
  have handled := fun delivery member => (traced.handled delivery member).later [event]
  cases event with
  | engine event =>
    obtain ⟨-, engine, stepped, rfl⟩ := engine_of_step taken
    exact traced.engine run reads stepped
  | publish worker accepted =>
    obtain ⟨verdict, outstanding, rfl⟩ := Option.map_eq_some_iff.mp taken
    have here := (traced.outbox worker verdict outstanding).later [.publish worker accepted]
    refine ⟨requested, workers, fun other message waiting => ?_, ?_, handled⟩
    · dsimp only at waiting
      rcases eq_or_ne other worker with rfl | differs
      · rw [Function.update_self] at waiting
        contradiction
      · rw [Function.update_of_ne differs] at waiting
        exact (traced.outbox other message waiting).later _
    · dsimp only
      split
      · exact List.forall_mem_append.mpr ⟨verdicts, List.forall_mem_singleton.mpr here⟩
      · exact verdicts
  | handle delivery =>
    rw [Pipeline.step] at taken
    split at taken
    · next queued =>
      obtain rfl := Option.some.inj taken
      refine ⟨requested, workers, fun worker verdict waiting => (traced.outbox worker verdict waiting).later _,
        fun verdict member => ?_, ?_⟩
      · dsimp only at member
        split at member
        · exact verdicts verdict member
        · exact verdicts verdict (List.mem_of_mem_erase member)
      · exact List.forall_mem_append.mpr ⟨handled, List.forall_mem_singleton.mpr (verdicts _ queued)⟩
    · contradiction

end Pipeline

/-- The result of a user on a problem of a contest comes from a request of the user at a time of the contest, whose
program a worker that had loaded it has executed on the problem afterwards. -/
def Counted (events : List PipelineEvent) (contestId userId problemId : String) (sub : ProblemProblemState) : Prop :=
  ∃ done mid worker tag env w data problemData calls req table last,
    done ++ [.engine (.call worker (.executeWorker env w))] <+: events ∧
    Machine.Run (Machine.Steps Pipeline.step) .start done mid ∧
    mid.engine.pool.workers worker = .loaded ⟨tag, data⟩ problemData ∧
    .engine (.beginSubmit calls userId (some req)) ∈ done ∧ SubmissionService.Calls.Accepts calls req table data ∧
    table.contestInfo.contestId = contestId ∧ data.submissionId = sub.submissionId ∧ data.problemId = problemId ∧
    data.type = "RATED" ∧ data.relativeSubmissionTime = sub.relativeSubmittedAt ∧
    problemData.problemId = problemId ∧ problemData.contestId = contestId ∧
    (executeWorker env ⟨data, problemData⟩ w).1.getLast? = some last ∧ last.status = sub.status

theorem Judged.counted {events : List PipelineEvent} {verdict : QueueMessage}
    (judged : Judged contestOf events verdict) :
    Counted events verdict.contestId verdict.userId verdict.problemId verdict.state := by
  obtain ⟨data, problemData, results, last, executed, rated, isLast, rfl⟩ := judged
  obtain ⟨problem, contest, done, mid, worker, tag, env, w, front, run, loaded, requested, rfl⟩ := executed
  obtain ⟨calls, req, table, member, accepts, ofContest⟩ := requested
  exact ⟨done, mid, worker, tag, env, w, data, problemData, calls, req, table, last, front, run, loaded, member,
    accepts, ofContest.trans contest.symm, rfl, problem.symm, rated, rfl, rfl, rfl, isLast, rfl⟩

/-- In every run in which both services read the problems table, every result that the live board counts for a user
and a problem of a contest comes from a request of that user at a time of that contest, and has the status of an
execution of that program. -/
theorem live_results_counted {events : List PipelineEvent} {final : Pipeline}
    (run : Machine.Run (Machine.Guarded (Machine.Steps Pipeline.step) (Pipeline.ReadsTable contestOf)) .start events
      final)
    {contestId userId problemId : String} {metadata : LeaderboardService.UserContestMetadata}
    (recorded : final.redis.metadata contestId userId = some metadata) {track : List ProblemProblemState}
    (onProblem : metadata.problems.get? problemId = some track) :
    ∀ sub ∈ track, Counted events contestId userId problemId sub := by
  have traced : Pipeline.Traced contestOf events final := run.history Pipeline.traced_start
    fun done mid event next before traced ⟨reads, taken⟩ =>
      traced.step (before.mono fun _ _ _ step => step.2) reads taken
  intro sub member
  rw [Pipeline.redis, LeaderboardService.metadata_handleDeliveries] at recorded
  split at recorded
  · contradiction
  · obtain rfl := Option.some.inj recorded
    rw [LeaderboardService.UserContestMetadata.ofVerdicts_get?] at onProblem
    split at onProblem
    · contradiction
    · obtain rfl := Option.some.inj onProblem
      obtain ⟨verdict, listed, rfl⟩ := List.mem_map.mp member
      obtain ⟨first, ofProblem⟩ := List.mem_filter.mp listed
      obtain ⟨delivery, present, rfl⟩ := List.mem_map.mp (Machine.mem_of_mem_keepFirst first)
      obtain ⟨handled, concerns⟩ := List.mem_filter.mp present
      obtain ⟨rfl, rfl⟩ := of_decide_eq_true concerns
      obtain rfl := of_decide_eq_true ofProblem
      exact (traced.handled delivery handled).counted

instance (contestOf : String → String) (s : Pipeline) (event : PipelineEvent) :
    Decidable (s.ReadsTable contestOf event) :=
  match event with
  | .engine (.beginSubmit calls _ _) => inferInstanceAs (Decidable (∀ problemData ∈ calls.problem.toOption,
      problemData.contestInfo.contestId = contestOf problemData.problemId))
  | .engine (.call worker (.preExecute loaded)) =>
    match stage : s.engine.pool.workers worker with
    | .prepared job =>
      decidable_of_iff (∀ problemData ∈ loaded.toOption, problemData.problemId = job.data.problemId ∧
        problemData.contestId = contestOf job.data.problemId) (by simp [Pipeline.ReadsTable, stage])
    | .idle | .started _ | .loaded _ _ | .executed _ _ _ | .returned _ _ _ =>
      isTrue (by simp [Pipeline.ReadsTable, stage])
  | .engine (.call _ (.mkdirAll _)) | .engine (.call _ (.executeWorker _ _)) | .engine (.take _)
  | .engine (.concludeSubmit _ _ _) | .engine (.inject _) | .engine .deliver | .engine (.consume _)
  | .engine (.receive _) | .engine (.postExecute _ _) | .engine (.settle _ _) | .engine .connectionLost
  | .engine .exit | .publish _ _ | .handle _ => isTrue trivial

/-- The board counts the result of the first execution. -/
theorem overtaken_result_counted : Counted overtaken "c" "u" "p" ⟨"s", 60, "TLE"⟩ := by
  have ended : (overtaken.foldlM (Machine.guardedStep Pipeline.step (Pipeline.ReadsTable fun _ => "c")) .start).bind
      (fun final => (final.redis.metadata "c" "u").bind fun metadata => metadata.problems.get? "p") =
      some [⟨"s", 60, "TLE"⟩] := by
    decide +kernel
  obtain ⟨final, executed, found⟩ := Option.bind_eq_some_iff.mp ended
  obtain ⟨metadata, recorded, onProblem⟩ := Option.bind_eq_some_iff.mp found
  exact live_results_counted (Machine.Run.of_foldlM_guarded executed) recorded onProblem _ (List.mem_singleton_self _)

end JudgeSelf
