import JudgeSelf.Soundness.EngineSteps

/-! # One status on the board and in the table

The table has the status that was stored last, the board the one that was recorded first. They agree in every
run in which no status is stored next to another that the board has already, and in which the verdict that is
recorded first has the status of the row.
-/

namespace JudgeSelf

open Engine (System Event Received Stage Verdict Genuine Progress withVerdict)
open LeaderboardService (QueueMessage Delivery UserContestMetadata firstVerdicts deliveriesFor)

namespace Pipeline

variable {s t : Pipeline} {c u id : String}

private theorem mem_liveStatuses {status : String} : status ∈ s.liveStatuses c u id ↔
    ∃ verdict ∈ firstVerdicts c u s.handled, verdict.submissionId = id ∧ verdict.status = status := by
  rw [liveStatuses, redis, LeaderboardService.metadata_handleDeliveries]
  split
  · next none => simp [firstVerdicts, none]
  · have submissions : (UserContestMetadata.ofVerdicts (firstVerdicts c u s.handled)).submissions.Perm
        ((firstVerdicts c u s.handled).map QueueMessage.state) := UserContestMetadata.ofVerdicts_flatMap_perm _
    simp [UserContestMetadata.statusesOf, submissions.mem_iff, QueueMessage.state, and_assoc]

private theorem mem_firstVerdicts {verdict : QueueMessage} (member : verdict ∈ firstVerdicts c u s.handled) :
    ∃ delivery ∈ s.handled, delivery.verdict.Concerns c u ∧ delivery.verdict.submissionId = verdict.submissionId := by
  have listed := Machine.mem_map_keepFirst.mp (List.mem_map_of_mem (f := QueueMessage.submissionId) member)
  obtain ⟨_, delivered, same⟩ := List.mem_map.mp listed
  obtain ⟨delivery, present, rfl⟩ := List.mem_map.mp delivered
  obtain ⟨handled, concerns⟩ := List.mem_filter.mp present
  exact ⟨delivery, handled, of_decide_eq_true concerns, same⟩

/-- A handled delivery has left some status. -/
theorem liveStatuses_of_handled {delivery : Delivery} (member : delivery ∈ s.handled) :
    ∃ status, status ∈ s.liveStatuses delivery.verdict.contestId delivery.verdict.userId
      delivery.verdict.submissionId := by
  have delivered : delivery.verdict ∈ (deliveriesFor delivery.verdict.contestId delivery.verdict.userId s.handled).map
      Delivery.verdict :=
    List.mem_map_of_mem (List.mem_filter.mpr ⟨member, decide_eq_true ⟨rfl, rfl⟩⟩)
  have listed := Machine.mem_map_keepFirst.mpr (List.mem_map_of_mem (f := QueueMessage.submissionId) delivered)
  obtain ⟨verdict, first, same⟩ := List.mem_map.mp listed
  exact ⟨verdict.status, mem_liveStatuses.mpr ⟨verdict, first, same, rfl⟩⟩

/-- A delivery adds its status where none is recorded. -/
theorem mem_liveStatuses_handle {delivery : Delivery} (handled : t.handled = s.handled ++ [delivery]) {status : String}
    (recorded : status ∈ t.liveStatuses c u id) : status ∈ s.liveStatuses c u id ∨
      delivery.verdict.Concerns c u ∧ delivery.verdict.submissionId = id ∧ delivery.verdict.status = status ∧
        s.liveStatuses c u id = [] := by
  obtain ⟨verdict, first, ofId, rfl⟩ := mem_liveStatuses.mp recorded
  have before (present : verdict ∈ firstVerdicts c u s.handled) : verdict.status ∈ s.liveStatuses c u id :=
    mem_liveStatuses.mpr ⟨verdict, present, ofId, rfl⟩
  rw [handled, firstVerdicts, LeaderboardService.deliveriesFor_concat] at first
  split at first
  · next here =>
    rw [List.map_append, List.map_singleton, Machine.keepFirst_concat] at first
    split at first
    · exact .inl (before first)
    · next fresh =>
      rcases List.mem_append.mp first with present | last
      · exact .inl (before present)
      · obtain rfl := List.mem_singleton.mp last
        refine .inr ⟨here, ofId, rfl, List.eq_nil_iff_forall_not_mem.mpr fun other recorded => fresh ?_⟩
        obtain ⟨verdict, present, same, _⟩ := mem_liveStatuses.mp recorded
        rw [ofId, ← same]
        exact Machine.mem_map_keepFirst.mp (List.mem_map_of_mem present)
  · exact .inl (before first)

private theorem liveStatuses_of_fresh {delivery : Delivery} (handled : t.handled = s.handled ++ [delivery])
    (fresh : s.liveStatuses delivery.verdict.contestId delivery.verdict.userId delivery.verdict.submissionId = []) :
    delivery.verdict.status ∈
      t.liveStatuses delivery.verdict.contestId delivery.verdict.userId delivery.verdict.submissionId := by
  refine mem_liveStatuses.mpr ⟨delivery.verdict, ?_, rfl, rfl⟩
  rw [handled, firstVerdicts, LeaderboardService.deliveriesFor_concat, if_pos ⟨rfl, rfl⟩, List.map_append,
    List.map_singleton, Machine.keepFirst_concat, if_neg]
  · exact List.mem_append_right _ (List.mem_singleton_self _)
  · intro seen
    obtain ⟨verdict, first, same⟩ := List.mem_map.mp (Machine.mem_map_keepFirst.mpr seen)
    exact absurd (mem_liveStatuses.mpr ⟨verdict, first, same, rfl⟩) (List.eq_nil_iff_forall_not_mem.mp fresh _)

/-- A verdict of the submission is in the queue or has been handled. -/
def Published (s : Pipeline) (submissionId userId : String) : Prop :=
  (∃ delivery ∈ s.handled, delivery.verdict.submissionId = submissionId ∧ delivery.verdict.userId = userId) ∨
    ∃ verdict ∈ s.verdicts, verdict.submissionId = submissionId ∧ verdict.userId = userId

instance (s : Pipeline) (submissionId userId : String) : Decidable (s.Published submissionId userId) :=
  inferInstanceAs (Decidable ((∃ delivery ∈ s.handled, _) ∨ ∃ verdict ∈ s.verdicts, _))

/-- The step rejects a failed job, and with it a RATED submission that has no verdict. -/
def DropsUnpublished (s : Pipeline) : Event → Prop
  | .settle worker true =>
    match s.engine.pool.workers worker with
    | .returned job (some _) _ =>
      (∃ delivery ∈ s.engine.stores.broker.unacked, delivery.1 = job.tag) ∧ job.data.type = "RATED" ∧
        ¬ s.Published job.data.submissionId job.data.userId
    | _ => False
  | _ => False

/-- A call fails, and a submission or a verdict is lost with it. -/
def Loses (s : Pipeline) : PipelineEvent → Prop
  | .engine event => s.engine.DropsWaiting event ∨ s.DropsUnpublished event
  | .publish _ taken => taken = false
  | .handle _ => False

/-- A status is stored only next to the same status on the board, and recorded first only next to the same
status in the table. -/
def Steady (s : Pipeline) : PipelineEvent → Prop
  | .engine event => ∀ verdict ∈ s.engine.stored? event,
      (∃ row ∈ s.engine.stores.rows, row.id = verdict.submissionId) → ∀ delivery ∈ s.handled,
        ∀ status ∈ s.liveStatuses delivery.verdict.contestId delivery.verdict.userId verdict.submissionId,
          status = verdict.status
  | .publish _ _ => True
  | .handle delivery =>
    s.liveStatuses delivery.verdict.contestId delivery.verdict.userId delivery.verdict.submissionId = [] →
      ∀ row ∈ s.engine.stores.rows, row.id = delivery.verdict.submissionId → row.status = delivery.verdict.status

/-- Whatever is recorded of a submission is the status of its row. -/
def Agrees (s : Pipeline) : Prop :=
  ∀ row ∈ s.engine.stores.rows, ∀ c u, ∀ status ∈ s.liveStatuses c u row.id, status = row.status

structure Agreed (s : Pipeline) : Prop where
  engine : s.engine.Sound
  issued : s.engine.stores.Issued
  genuine : s.engine.All (Genuine s.engine.stores)
  pending : ∀ worker verdict, s.outbox worker = some verdict → ∃ job error ended,
    s.engine.pool.workers worker = .returned job error ended ∧
      verdict.submissionId = job.data.submissionId ∧ verdict.userId = job.data.userId
  done : ∀ worker job ended, s.engine.pool.workers worker = .returned job none ended → job.data.type = "RATED" →
    s.outbox worker = none → s.Published job.data.submissionId job.data.userId
  known : ∀ verdict, verdict ∈ s.verdicts ∨ verdict ∈ s.handled.map Delivery.verdict →
    verdict.submissionId ∈ s.engine.stores.issued
  held : ∀ row ∈ s.engine.stores.rows, s.engine.Owed row.id → row.type = "RATED" → s.Published row.id row.userId ∨
    ∃ message, message.submissionId = row.id ∧ s.engine.stores.broker.Holds (.submission message)
  agrees : s.Agrees

private theorem agreed_start : start.Agreed where
  engine := System.sound_start
  issued := List.forall_mem_nil _
  genuine := System.all_start
  pending := nofun
  done := nofun
  known := nofun
  held := List.forall_mem_nil _
  agrees := List.forall_mem_nil _

theorem engine_of_step {event : Event} (taken : s.step (.engine event) = some t) :
    s.early event = false ∧ ∃ engine, s.engine.step event = some engine ∧
      t = { s with engine, outbox := s.outboxAfter event engine } := by
  rw [step] at taken
  split at taken
  · contradiction
  · next early =>
    obtain ⟨engine, stepped, rfl⟩ := Option.map_eq_some_iff.mp taken
    exact ⟨Bool.eq_false_iff.mpr early, engine, stepped, rfl⟩

variable {event : Event} {engine : System}

/-- The outbox of a worker whose step is not `PostExecute`. -/
theorem outboxAfter_of_other {worker : ℕ} {job : Received} {error : Option String} {ended : Option Verdict}
    (after : engine.pool.workers worker = .returned job error ended)
    (other : ∀ here execution, s.engine.postExecution? event = some (here, execution) → here ≠ worker) :
    s.outboxAfter event engine worker = s.outbox worker := by
  rw [outboxAfter, after]
  dsimp only
  split
  · next here _ found => rw [if_neg (other here _ found).symm]
  · rfl

private theorem outboxAfter_of_stored {worker : ℕ} {job : Received} {error : Option String} {ended : Option Verdict}
    (after : engine.pool.workers worker = .returned job error ended) {execution : Engine.PostExecution}
    (stored : s.engine.postExecution? event = some (worker, execution)) :
    s.outboxAfter event engine worker = execution.published := by
  rw [outboxAfter, after, stored]
  exact if_pos rfl

theorem Agreed.pending_engine (agreed : s.Agreed) (stepped : s.engine.step event = some engine) (worker : ℕ)
    (verdict : QueueMessage) (outstanding : s.outboxAfter event engine worker = some verdict) :
    ∃ job error ended, engine.pool.workers worker = .returned job error ended ∧
      verdict.submissionId = job.data.submissionId ∧ verdict.userId = job.data.userId := by
  cases after : engine.pool.workers worker with
  | returned job error ended =>
    refine ⟨job, error, ended, rfl, ?_⟩
    cases Engine.returned_step stepped after with
    | before stage other =>
      rw [outboxAfter_of_other after other] at outstanding
      obtain ⟨job', error', ended', stage', ofJob⟩ := agreed.pending worker verdict outstanding
      obtain ⟨rfl, _, _⟩ := Stage.returned.inj (stage'.symm.trans stage)
      exact ofJob
    | stored execution here ofJob _ =>
      rw [outboxAfter_of_stored after here] at outstanding
      exact ofJob verdict outstanding
    | failed _ silent working =>
      rw [outboxAfter_of_other after fun here execution found => by rw [silent] at found; contradiction] at outstanding
      obtain ⟨job', error', ended', stage', _⟩ := agreed.pending worker verdict outstanding
      exact absurd stage' (working job' error' ended')
  | _ =>
    rw [outboxAfter, after] at outstanding
    contradiction

theorem Agreed.done_engine (agreed : s.Agreed) (stepped : s.engine.step event = some engine) (worker : ℕ)
    (job : Received) (ended : Option Verdict) (after : engine.pool.workers worker = .returned job none ended)
    (rated : job.data.type = "RATED") (empty : s.outboxAfter event engine worker = none) :
    s.Published job.data.submissionId job.data.userId := by
  cases Engine.returned_step stepped after with
  | before stage other =>
    rw [outboxAfter_of_other after other] at empty
    exact agreed.done worker job ended stage rated empty
  | stored execution here _ publishes =>
    rw [outboxAfter_of_stored after here] at empty
    exact absurd empty (publishes rfl rated)
  | failed failed _ _ => exact absurd rfl failed

/-- A message that a worker settles has a verdict. -/
theorem Agreed.published_of_settles (agreed : s.Agreed) (keeps : ¬ s.Loses (.engine event))
    (inTime : s.early event = false) {message : SubmissionService.QueueMessage}
    (settles : s.engine.Settles message event) {row : SubmissionService.SubmissionRow}
    (member : row ∈ s.engine.stores.rows) (ofRow : message.submissionId = row.id) (rated : row.type = "RATED") :
    s.Published row.id row.userId := by
  cases event with
  | settle worker sent =>
    cases sent with
    | false => exact settles.elim
    | true =>
      obtain ⟨job, error, ended, stage, unacked⟩ := settles
      have sound := agreed.engine.pool.workers worker
      rw [stage] at sound
      have decoded : Engine.decode (.submission message) = some job.data := sound.1.delivered.2 _ unacked
      have ofJob : message.submissionId = job.data.submissionId :=
        congrArg Engine.SubmissionData.submissionId (Option.some.inj decoded)
      have genuine : Genuine s.engine.stores job.data := agreed.genuine.workers worker job (by rw [stage]; rfl)
      obtain ⟨user, type⟩ := genuine.row row member (ofRow.symm.trans ofJob)
      rw [← ofRow, ofJob, user]
      rw [type] at rated
      cases error with
      | none =>
        refine agreed.done worker job ended stage rated ?_
        rwa [early, Option.isSome_eq_false_iff, Option.isNone_iff_eq_none] at inTime
      | some err =>
        by_contra unpublished
        refine keeps (.inr ?_)
        rw [DropsUnpublished, stage]
        exact ⟨⟨_, unacked, rfl⟩, rated, unpublished⟩
  | _ => exact settles.elim

theorem Agreed.held_engine (agreed : s.Agreed) (keeps : ¬ s.Loses (.engine event)) (inTime : s.early event = false)
    (stepped : s.engine.step event = some engine) {row : SubmissionService.SubmissionRow}
    (member : row ∈ engine.stores.rows) (owed : engine.Owed row.id) (rated : row.type = "RATED") :
    s.Published row.id row.userId ∨
      ∃ message, message.submissionId = row.id ∧ engine.stores.broker.Holds (.submission message) := by
  have progress := Engine.progress_step agreed.engine stepped
  rcases progress.owed row.id owed with due | held
  · rcases Engine.mem_rows_step stepped member with ⟨before, present, rfl⟩ | ⟨new, _⟩
    · obtain ⟨user, type⟩ := Engine.withVerdict_user (s.engine.stored? event) before
      rw [type] at rated
      rw [Engine.withVerdict_id] at due ⊢
      rw [user]
      rcases agreed.held before present due rated with published | ⟨message, ofRow, held⟩
      · exact .inl published
      · rcases progress.holds message held with still | settles
        · exact .inr ⟨message, ofRow, still⟩
        · exact .inl (agreed.published_of_settles keeps inTime settles present ofRow rated)
    · exact absurd (agreed.engine.owed row.id due).1 new
  · exact .inr held

/-- The stored status is the recorded one. -/
theorem Agreed.agrees_engine (agreed : s.Agreed) (steady : s.Steady (.engine event))
    (stepped : s.engine.step event = some engine) {row : SubmissionService.SubmissionRow}
    (member : row ∈ engine.stores.rows) {status : String} (recorded : status ∈ s.liveStatuses c u row.id) :
    status = row.status := by
  obtain ⟨first, isFirst, ofRow, _⟩ := mem_liveStatuses.mp recorded
  obtain ⟨delivery, handled, ⟨rfl, rfl⟩, same⟩ := mem_firstVerdicts isFirst
  rcases Engine.mem_rows_step stepped member with ⟨before, present, rfl⟩ | ⟨new, _⟩
  · rw [Engine.withVerdict_id] at recorded
    cases stored : s.engine.stored? event with
    | none => exact agreed.agrees before present _ _ status recorded
    | some verdict =>
      rw [withVerdict]
      split
      · next ofVerdict =>
        rw [ofVerdict] at recorded
        exact steady verdict stored ⟨before, present, ofVerdict⟩ delivery handled status recorded
      · exact agreed.agrees before present _ _ status recorded
  · have known := agreed.known delivery.verdict (.inr (List.mem_map_of_mem handled))
    rw [same, ofRow] at known
    exact absurd known new

theorem Agreed.engineStep (agreed : s.Agreed) (keeps : ¬ s.Loses (.engine event)) (steady : s.Steady (.engine event))
    (taken : s.step (.engine event) = some t) : t.Agreed := by
  obtain ⟨inTime, engine, stepped, rfl⟩ := engine_of_step taken
  have progress := Engine.progress_step agreed.engine stepped
  exact
    { engine := agreed.engine.step (fun drops => keeps (.inl drops)) stepped
      issued := Engine.issued_step agreed.issued progress stepped
      genuine := Engine.genuine_step agreed.genuine agreed.issued progress stepped
      pending := agreed.pending_engine stepped
      done := agreed.done_engine stepped
      known := fun verdict present => progress.issued _ (agreed.known verdict present)
      held := fun row member owed rated => agreed.held_engine keeps inTime stepped member owed rated
      agrees := fun row member c u status recorded => agreed.agrees_engine steady stepped member recorded }

theorem Agreed.publish (agreed : s.Agreed) {worker : ℕ} {taken : Bool} (keeps : ¬ s.Loses (.publish worker taken))
    (stepped : s.step (.publish worker taken) = some t) : t.Agreed := by
  obtain ⟨verdict, outstanding, rfl⟩ := Option.map_eq_some_iff.mp stepped
  obtain rfl : taken = true := by
    cases taken with
    | false => exact absurd rfl keeps
    | true => rfl
  obtain ⟨job, error, ended, stage, ofJob⟩ := agreed.pending worker verdict outstanding
  have published {id user : String} (before : s.Published id user) :
      Published { s with
        outbox := Function.update s.outbox worker none
        verdicts := s.verdicts ++ [verdict] } id user :=
    before.imp_right fun ⟨other, queued, same⟩ => ⟨other, List.mem_append_left _ queued, same⟩
  refine ⟨agreed.engine, agreed.issued, agreed.genuine, fun other message waiting => ?_,
    fun other job' ended' stage' rated empty => ?_, fun other present => ?_, fun row member owed rated => ?_,
    agreed.agrees⟩
  · dsimp only at waiting
    rcases eq_or_ne other worker with rfl | differs
    · rw [Function.update_self] at waiting
      contradiction
    · rw [Function.update_of_ne differs] at waiting
      exact agreed.pending other message waiting
  · dsimp only at empty
    rcases eq_or_ne other worker with rfl | differs
    · obtain ⟨rfl, _, _⟩ := Stage.returned.inj (stage.symm.trans stage')
      exact .inr ⟨verdict, List.mem_append_right _ (List.mem_singleton_self _), ofJob⟩
    · rw [Function.update_of_ne differs] at empty
      exact published (agreed.done other job' ended' stage' rated empty)
  · rcases present with queued | handled
    · rcases List.mem_append.mp queued with before | here
      · exact agreed.known other (.inl before)
      · rw [List.mem_singleton.mp here, ofJob.1]
        have genuine : Genuine s.engine.stores job.data := agreed.genuine.workers worker job (by rw [stage]; rfl)
        exact genuine.issued
    · exact agreed.known other (.inr handled)
  · exact (agreed.held row member owed rated).imp_left published

theorem Agreed.handle (agreed : s.Agreed) {delivery : Delivery} (steady : s.Steady (.handle delivery))
    (stepped : s.step (.handle delivery) = some t) : t.Agreed := by
  rw [step] at stepped
  split at stepped
  · next queued =>
    obtain rfl := Option.some.inj stepped
    have remaining {verdict : QueueMessage} (member : verdict ∈ if delivery.crashed then s.verdicts
        else s.verdicts.erase delivery.verdict) : verdict ∈ s.verdicts := by
      split at member
      · exact member
      · exact List.mem_of_mem_erase member
    have published {id user : String} (before : s.Published id user) :
        Published { s with
          verdicts := if delivery.crashed then s.verdicts else s.verdicts.erase delivery.verdict
          handled := s.handled ++ [delivery] } id user := by
      rcases before with ⟨other, handled, same⟩ | ⟨verdict, waiting, same⟩
      · exact .inl ⟨other, List.mem_append_left _ handled, same⟩
      · by_cases here : verdict = delivery.verdict
        · exact .inl ⟨delivery, List.mem_append_right _ (List.mem_singleton_self _), here ▸ same⟩
        · refine .inr ⟨verdict, ?_, same⟩
          dsimp only
          split
          · exact waiting
          · exact (List.mem_erase_of_ne here).mpr waiting
    refine ⟨agreed.engine, agreed.issued, agreed.genuine, agreed.pending,
      fun worker job ended stage rated empty => published (agreed.done worker job ended stage rated empty),
      fun verdict present => ?_,
      fun row member owed rated => (agreed.held row member owed rated).imp_left published,
      fun row member c u status recorded => ?_⟩
    · rcases present with waiting | handled
      · exact agreed.known verdict (.inl (remaining waiting))
      · rw [List.map_append, List.map_singleton] at handled
        rcases List.mem_append.mp handled with before | here
        · exact agreed.known verdict (.inr before)
        · rw [List.mem_singleton.mp here]
          exact agreed.known delivery.verdict (.inl queued)
    · rcases mem_liveStatuses_handle rfl recorded with before | ⟨⟨rfl, rfl⟩, ofRow, rfl, fresh⟩
      · exact agreed.agrees row member c u status before
      · rw [← ofRow] at fresh
        exact (steady fresh row member ofRow.symm).symm
  · contradiction

theorem Agreed.step (agreed : s.Agreed) {event : PipelineEvent} (keeps : ¬ s.Loses event) (steady : s.Steady event)
    (taken : s.step event = some t) : t.Agreed := by
  cases event with
  | engine event => exact agreed.engineStep keeps steady taken
  | publish worker sent => exact agreed.publish keeps taken
  | handle delivery => exact agreed.handle steady taken

/-- A step that is not steady makes board and table differ at once. -/
theorem Agreed.agrees_iff_steady (agreed : s.Agreed) {event : PipelineEvent} (keeps : ¬ s.Loses event)
    (taken : s.step event = some t) : t.Agrees ↔ s.Steady event := by
  refine ⟨fun agrees => ?_, fun steady => (agreed.step keeps steady taken).agrees⟩
  cases event with
  | engine event =>
    obtain ⟨_, engine, stepped, rfl⟩ := engine_of_step taken
    rintro verdict stored ⟨row, member, ofRow⟩ delivery _ status recorded
    have after : withVerdict (some verdict) row ∈ engine.stores.rows := by
      rw [Engine.rows_of_stored stepped stored]
      exact List.mem_map_of_mem member
    have same := agrees _ after delivery.verdict.contestId delivery.verdict.userId status
    rw [Engine.withVerdict_id, ofRow, withVerdict, if_pos ofRow] at same
    exact same recorded
  | publish worker sent => trivial
  | handle delivery =>
    intro fresh row member ofRow
    rw [Pipeline.step] at taken
    split at taken
    · obtain rfl := Option.some.inj taken
      refine (agrees row member delivery.verdict.contestId delivery.verdict.userId delivery.verdict.status ?_).symm
      rw [ofRow]
      exact liveStatuses_of_fresh rfl fresh
    · contradiction

/-- A quiescent pipeline has handled a verdict of every submission that it owes one. -/
theorem Agreed.recorded_of_quiescent (agreed : s.Agreed) (quiescent : s.Quiescent)
    {row : SubmissionService.SubmissionRow} (member : row ∈ s.engine.stores.rows) (owed : s.engine.Owed row.id)
    (rated : row.type = "RATED") : ∃ contestId, row.status ∈ s.liveStatuses contestId row.userId row.id := by
  rcases agreed.held row member owed rated with (⟨delivery, handled, ofRow, user⟩ | ⟨verdict, queued, _⟩) |
      ⟨message, _, ready | ⟨tag, unacked⟩⟩
  · obtain ⟨status, recorded⟩ := liveStatuses_of_handled handled
    rw [ofRow, user] at recorded
    refine ⟨delivery.verdict.contestId, ?_⟩
    rwa [← agreed.agrees row member _ _ status recorded]
  · rw [quiescent.verdicts] at queued
    exact absurd queued List.not_mem_nil
  · rw [quiescent.ready] at ready
    exact absurd ready List.not_mem_nil
  · rw [quiescent.unacked] at unacked
    exact absurd unacked List.not_mem_nil

end Pipeline

/-- In every run in which no submission or verdict is lost with a failing call, and whose steps are steady: when the
queues are empty and nothing is running, the live metadata of the user records the status of the row of every
RATED submission that was accepted, and no other status. -/
theorem live_status_agrees {events : List PipelineEvent} {final : Pipeline}
    (run : Machine.Run (Machine.Guarded (Machine.Steps Pipeline.step) fun s event => ¬ s.Loses event ∧ s.Steady event)
      .start events final) (quiescent : final.Quiescent) {row : SubmissionService.SubmissionRow}
    (member : row ∈ final.engine.stores.rows) (owed : final.engine.Owed row.id) (rated : row.type = "RATED") :
    (∃ contestId, row.status ∈ final.liveStatuses contestId row.userId row.id) ∧
      ∀ contestId userId, ∀ status ∈ final.liveStatuses contestId userId row.id, status = row.status := by
  have preserved : ∀ s event t, s.Agreed →
      Machine.Guarded (Machine.Steps Pipeline.step) (fun s event => ¬ s.Loses event ∧ s.Steady event) s event t →
        t.Agreed := fun _ _ _ agreed ⟨⟨keeps, steady⟩, taken⟩ => agreed.step keeps steady taken
  have agreed : final.Agreed := run.invariant preserved Pipeline.agreed_start
  exact ⟨agreed.recorded_of_quiescent quiescent member owed rated, agreed.agrees row member⟩

namespace Pipeline

instance (s : Pipeline) (event : Event) : Decidable (s.DropsUnpublished event) :=
  match event with
  | .settle worker true =>
    match stage : s.engine.pool.workers worker with
    | .returned job (some _) _ =>
      decidable_of_iff ((∃ delivery ∈ s.engine.stores.broker.unacked, delivery.1 = job.tag) ∧
        job.data.type = "RATED" ∧ ¬ s.Published job.data.submissionId job.data.userId) (by
          rw [DropsUnpublished, stage])
    | .returned _ none _ | .idle | .started _ | .prepared _ | .loaded _ _ | .executed _ _ _ =>
      isFalse (by rw [DropsUnpublished, stage]; exact id)
  | .settle _ false | .beginSubmit _ _ _ | .take _ | .concludeSubmit _ _ _ | .inject _ | .deliver | .consume _
  | .receive _ | .call _ _ | .postExecute _ _ | .connectionLost | .exit => isFalse id

instance (s : Pipeline) (event : PipelineEvent) : Decidable (s.Loses event) :=
  match event with
  | .engine event => inferInstanceAs (Decidable (s.engine.DropsWaiting event ∨ s.DropsUnpublished event))
  | .publish _ taken => inferInstanceAs (Decidable (taken = false))
  | .handle _ => isFalse id

instance (s : Pipeline) (event : PipelineEvent) : Decidable (s.Steady event) :=
  match event with
  | .engine event => inferInstanceAs (Decidable (∀ verdict ∈ s.engine.stored? event,
      (∃ row ∈ s.engine.stores.rows, row.id = verdict.submissionId) → ∀ delivery ∈ s.handled,
        ∀ status ∈ s.liveStatuses delivery.verdict.contestId delivery.verdict.userId verdict.submissionId,
          status = verdict.status))
  | .publish _ _ => isTrue trivial
  | .handle delivery => inferInstanceAs (Decidable
      (s.liveStatuses delivery.verdict.contestId delivery.verdict.userId delivery.verdict.submissionId = [] →
        ∀ row ∈ s.engine.stores.rows, row.id = delivery.verdict.submissionId →
          row.status = delivery.verdict.status))

/-- The engine is shut down. -/
def shutDown (s : Pipeline) : Pipeline :=
  { s with
    engine := s.engine.exit
    outbox := s.outboxAfter .exit s.engine.exit }

private theorem step_exit (s : Pipeline) : s.step (.engine .exit) = some s.shutDown := rfl

private theorem quiescent_shutDown {s : Pipeline} (ready : s.engine.stores.broker.ready = [])
    (unacked : s.engine.stores.broker.unacked = []) (verdicts : s.verdicts = []) : s.shutDown.Quiescent where
  ready := by
    change s.engine.stores.broker.unacked.map Prod.snd ++ s.engine.stores.broker.ready = []
    rw [ready, unacked]
    rfl
  unacked := rfl
  deliveries := rfl
  jobQueue := rfl
  workers _ := rfl
  verdicts := verdicts

end Pipeline

/-- The rest of the job, up to the stored verdict. -/
def judged (error : Option String) (metadata : String) : List Event :=
  [.call 1 (.preExecute (.ok Engine.pythonJob.problemData)),
    .call 1 (.executeWorker (Engine.steadyIsolate error metadata) Engine.idleWorker), .postExecute 1 none]

def redelivered : List Event := [.exit, .deliver, .consume true, .receive 1, .call 1 (.mkdirAll none)]

def sampleVerdict (status : String) : QueueMessage := ⟨"s", "c", "u", "p", status, 60⟩

/-- The first execution exceeds the time limit, and the process ends before the acknowledgement. -/
def judgedTwice (published : Bool) : List PipelineEvent :=
  (Engine.startedJob ++ judged "exit status 1" "status:TO\n").map .engine ++
    (if published then [.publish 1 true] else []) ++ (redelivered ++ judged none "").map .engine ++
    [.publish 1 true, .engine (.settle 1 true)]

/-- Without the first verdict, the submission is accepted everywhere. -/
def republished : List PipelineEvent := judgedTwice false ++ [.handle ⟨sampleVerdict "AC", false⟩]

def overtaken : List PipelineEvent :=
  judgedTwice true ++ [.handle ⟨sampleVerdict "TLE", false⟩, .handle ⟨sampleVerdict "AC", false⟩]

/-- The submission has the status in its row, and both queues are empty. -/
def JudgedAs (s : Pipeline) (status : String) : Prop :=
  (s.engine.stores.rows.map fun row => (row.id, row.userId, row.type, row.status)) = [("s", "u", "RATED", status)] ∧
    s.engine.accepted = ["s"] ∧ s.engine.stores.broker.ready = [] ∧ s.engine.stores.broker.unacked = [] ∧
    s.verdicts = []

instance (s : Pipeline) (status : String) : Decidable (JudgedAs s status) := inferInstanceAs (Decidable (_ ∧ _))

theorem Pipeline.not_loses_exit (s : Pipeline) : ¬ s.Loses (.engine .exit) := by
  rintro (waiting | unpublished)
  · exact waiting
  · exact unpublished

/-- The verdict that was lost between storing and publishing does not reach the board. -/
theorem republished_status_agrees : ∃ final,
    Machine.Run (Machine.Guarded (Machine.Steps Pipeline.step) fun s event => ¬ s.Loses event ∧ s.Steady event) .start
      (republished ++ [.engine .exit]) final ∧ ∃ row ∈ final.engine.stores.rows, row.id = "s" ∧ row.status = "AC" ∧
      ∃ contestId, row.status ∈ final.liveStatuses contestId row.userId row.id := by
  have ended : (republished.foldlM (Machine.guardedStep Pipeline.step fun s event => ¬ s.Loses event ∧ s.Steady event)
      .start).any (fun s => JudgedAs s "AC") = true := by
    decide +kernel
  obtain ⟨before, executed, judged⟩ := (Option.any_eq_true _ _).mp ended
  obtain ⟨rows, accepted, ready, unacked, verdicts⟩ := of_decide_eq_true judged
  have run := (Machine.Run.of_foldlM_guarded executed).concat ⟨⟨before.not_loses_exit, nofun⟩, before.step_exit⟩
  obtain ⟨row, member, same⟩ := List.mem_map.mp (rows ▸ List.mem_singleton_self ("s", "u", "RATED", "AC"))
  simp only [Prod.mk.injEq] at same
  obtain ⟨ofId, -, rated, status⟩ := same
  have owed : before.shutDown.engine.Owed row.id := by
    refine .inl ?_
    change row.id ∈ before.engine.accepted
    rw [accepted, ofId]
    exact List.mem_singleton_self _
  exact ⟨_, run, row, member, ofId, status,
    (live_status_agrees run (Pipeline.quiescent_shutDown ready unacked verdicts) member owed rated).1⟩

/-- The first execution has published TLE before the process ended, the second one is accepted: the row says AC, and
the board stays with TLE. -/
theorem overtaken_status_stays : ∃ final,
    Machine.Run (Machine.Guarded (Machine.Steps Pipeline.step) fun s event => ¬ s.Loses event) .start
      (overtaken ++ [.engine .exit]) final ∧ final.Quiescent ∧ JudgedAs final "AC" ∧
      final.liveStatuses "c" "u" "s" = ["TLE"] := by
  have ended : (overtaken.foldlM (Machine.guardedStep Pipeline.step fun s event => ¬ s.Loses event) .start).any
      (fun s => JudgedAs s "AC" ∧ s.liveStatuses "c" "u" "s" = ["TLE"]) = true := by
    decide +kernel
  obtain ⟨before, executed, state⟩ := (Option.any_eq_true _ _).mp ended
  obtain ⟨⟨rows, accepted, ready, unacked, verdicts⟩, recorded⟩ := of_decide_eq_true state
  have quiescent := Pipeline.quiescent_shutDown ready unacked verdicts
  exact ⟨before.shutDown, (Machine.Run.of_foldlM_guarded executed).concat ⟨before.not_loses_exit, before.step_exit⟩,
    quiescent, ⟨rows, accepted, quiescent.ready, quiescent.unacked, verdicts⟩, recorded⟩

end JudgeSelf
