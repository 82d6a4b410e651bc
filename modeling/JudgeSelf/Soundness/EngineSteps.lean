import JudgeSelf.Model.Pipeline
import JudgeSelf.Soundness.SubmissionQueue

/-! # What the steps of the engine leave alone

What the engine is told of a submission is what its handler wrote. A row changes with a stored verdict only,
and a message leaves the broker only when a worker settles its delivery.
-/

namespace JudgeSelf.Engine

open SubmissionService (Payload Stores SubmissionRow)

variable {s t : System} {event : Event}

def Stage.job? : Stage → Option Received
  | .idle => none
  | .started job => some job
  | .prepared job => some job
  | .loaded job _ => some job
  | .executed job _ _ => some job
  | .returned job _ _ => some job

theorem Stage.job?_call {stage next : Stage} {call : Call} (called : stage.call call = some next) :
    next.job? = stage.job? := by
  cases Stage.called_of_call called with
  | prepared at_ | undirected at_ | loaded at_ | unloaded at_ | executed at_ =>
    rw [at_]
    rfl

/-- All messages, wherever they are, satisfy `P`. -/
structure System.All (P : SubmissionData → Prop) (s : System) : Prop where
  handlers : ∀ handler ∈ s.handlers, ∀ data, decode (.submission handler.message) = some data → P data
  queued : ∀ payload data, s.stores.broker.Holds payload → decode payload = some data → P data
  deliveries : ∀ delivery ∈ s.pool.deliveries, ∀ data, decode delivery.2 = some data → P data
  jobQueue : ∀ job ∈ s.pool.jobQueue, P job.data
  workers : ∀ worker job, (s.pool.workers worker).job? = some job → P job.data

variable {P Q : SubmissionData → Prop}

theorem System.All.imp (all : s.All P) (weaken : ∀ data, P data → Q data) : s.All Q where
  handlers handler member data decoded := weaken data (all.handlers handler member data decoded)
  queued payload data held decoded := weaken data (all.queued payload data held decoded)
  deliveries delivery member data decoded := weaken data (all.deliveries delivery member data decoded)
  jobQueue job member := weaken job.data (all.jobQueue job member)
  workers worker job busy := weaken job.data (all.workers worker job busy)

theorem System.all_start : System.start.All P where
  handlers := List.forall_mem_nil _
  queued := by
    rintro payload data (ready | ⟨tag, unacked⟩)
    · contradiction
    · contradiction
  deliveries := List.forall_mem_nil _
  jobQueue := List.forall_mem_nil _
  workers := nofun

/-- The broker and the handlers have nothing new. -/
theorem System.All.of_broker (all : s.All P)
    (known : ∀ handler ∈ t.handlers, ∃ before ∈ s.handlers, before.message = handler.message)
    (holds : ∀ payload, t.stores.broker.Holds payload → s.stores.broker.Holds payload) (pool : t.pool = s.pool) :
    t.All P where
  handlers handler member data decoded := by
    obtain ⟨before, present, same⟩ := known handler member
    exact all.handlers before present data (same ▸ decoded)
  queued payload data held := all.queued payload data (holds payload held)
  deliveries := by
    rw [pool]
    exact all.deliveries
  jobQueue := by
    rw [pool]
    exact all.jobQueue
  workers := by
    rw [pool]
    exact all.workers

theorem System.All.setBroker (all : s.All P) {broker : Machine.Broker Payload}
    (holds : ∀ payload, broker.Holds payload → s.stores.broker.Holds payload) : (s.setBroker broker).All P :=
  all.of_broker (fun handler member => ⟨handler, member, rfl⟩) holds rfl

theorem System.All.setWorker (all : s.All P) {worker : ℕ} {stage : Stage}
    (next : ∀ job, stage.job? = some job → P job.data) : { s with pool := s.pool.setWorker worker stage }.All P where
  handlers := all.handlers
  queued := all.queued
  deliveries := all.deliveries
  jobQueue := all.jobQueue
  workers other job busy := by
    rw [Pool.setWorker] at busy
    dsimp only at busy
    rcases eq_or_ne other worker with rfl | differs
    · rw [Function.update_self] at busy
      exact next job busy
    · rw [Function.update_of_ne differs] at busy
      exact all.workers other job busy

theorem System.All.exit (all : s.All P) : s.exit.All P where
  handlers := all.handlers
  queued payload data held := all.queued payload data (Machine.Broker.holds_requeue.mp held)
  deliveries := List.forall_mem_nil _
  jobQueue := List.forall_mem_nil _
  workers := nofun

theorem System.All.settleBroker (all : s.All P) (sent : Bool) (tag : ℕ) :
    (if sent then s.setBroker (s.stores.broker.settle tag) else s).All P := by
  split
  · exact all.setBroker fun _ held => held.of_settle
  · exact all

theorem System.All.deliver (all : s.All P) {delivery : ℕ × Payload} {broker : Machine.Broker Payload}
    (delivered : s.stores.broker.deliver = some (delivery, broker)) :
    { s.setBroker broker with pool := { s.pool with deliveries := s.pool.deliveries ++ [delivery] } }.All P := by
  have known := all.setBroker fun payload => (@Machine.Broker.holds_deliver _ _ _ payload _ _ delivered).mp
  refine ⟨known.handlers, known.queued, ?_, known.jobQueue, known.workers⟩
  refine List.forall_mem_append.mpr ⟨all.deliveries, List.forall_mem_singleton.mpr fun data => ?_⟩
  refine all.queued delivery.2 data (.inl ?_)
  rw [(Machine.Broker.deliver_eq_some delivered).1]
  exact List.mem_cons_self

theorem System.All.consume (all : s.All P) {sent : Bool} {delivery : ℕ × Payload} {deliveries : List (ℕ × Payload)}
    (head : s.pool.deliveries = delivery :: deliveries) : (s.consume sent delivery deliveries).All P := by
  have listed := all.deliveries
  rw [head, List.forall_mem_cons] at listed
  rw [System.consume]
  split
  · next data decoded =>
    refine ⟨all.handlers, all.queued, listed.2, ?_, all.workers⟩
    exact List.forall_mem_append.mpr ⟨all.jobQueue, List.forall_mem_singleton.mpr (listed.1 data decoded)⟩
  · have settled := all.settleBroker sent delivery.1
    have pool : (if sent then s.setBroker (s.stores.broker.settle delivery.1) else s).pool = s.pool := by
      split <;> rfl
    refine ⟨settled.handlers, settled.queued, listed.2, ?_, ?_⟩
    · exact all.jobQueue
    · exact all.workers

theorem System.All.settle (all : s.All P) {worker : ℕ} {sent : Bool} {job : Received} {verdict : Option Verdict} :
    (s.settle worker sent job verdict).All P := by
  have settled := all.settleBroker sent job.tag
  have pool : (if sent then s.setBroker (s.stores.broker.settle job.tag) else s).pool = s.pool := by
    split <;> rfl
  cases verdict with
  | none => exact settled.exit
  | some verdict =>
    rw [System.settle, ← pool]
    exact settled.setWorker fun _ busy => absurd busy (Option.some_ne_none _).symm

theorem System.All.postExecute (all : s.All P) {worker : ℕ} {error : Option String} {job : Received}
    {problemData : ProblemData} {results : List Models.Result}
    (stage : s.pool.workers worker = .executed job problemData results) :
    (s.postExecute worker error job problemData results).All P := by
  have here : P job.data := all.workers worker job (by rw [stage]; rfl)
  rw [System.postExecute]
  split
  · exact all.exit
  · next after _ =>
    have next := @System.All.setWorker s P all worker (.returned job after.error (some after.verdict))
      fun other busy => by
        obtain rfl := Option.some.inj busy
        exact here
    refine ⟨next.handlers, fun payload data held => ?_, next.deliveries, next.jobQueue, next.workers⟩
    refine all.queued payload data ?_
    dsimp only at held
    split at held
    · exact held
    · exact held

/-- Whatever the engine is told comes from the handler of a submission. -/
theorem System.All.step (all : s.All P) (created : ∀ calls userId body message stores,
      event = .beginSubmit calls userId body →
        SubmissionService.beginSubmit calls userId body s.stores = (.ok message, stores) →
          ∀ data, decode (.submission message) = some data → P data)
    (taken : s.step event = some t) : t.All P := by
  cases System.effect_of_step taken with
  | rejected => exact all
  | beginSubmit begun _ =>
    refine ⟨List.forall_mem_cons.mpr ⟨?_, all.handlers⟩, all.queued, all.deliveries, all.jobQueue, all.workers⟩
    exact created _ _ _ _ _ rfl begun
  | take waiting _ =>
    have here := all.handlers _ waiting
    refine ⟨List.forall_mem_cons.mpr ⟨here, fun other member => ?_⟩, fun payload data held decoded => ?_,
      all.deliveries, all.jobQueue, all.workers⟩
    · exact all.handlers other (List.mem_of_mem_erase member)
    · rcases Machine.Broker.holds_publish.mp held with before | rfl
      · exact all.queued payload data before decoded
      · exact here data decoded
  | concludeSubmit _ _ rows _ =>
    refine all.of_broker (fun other member => ⟨other, List.mem_of_mem_erase member, rfl⟩) ?_ rfl
    rcases rows with rfl | rfl
    · exact fun _ => id
    · exact fun _ => id
  | inject =>
    refine ⟨all.handlers, fun payload data held decoded => ?_, all.deliveries, all.jobQueue, all.workers⟩
    rcases Machine.Broker.holds_publish.mp held with before | rfl
    · exact all.queued payload data before decoded
    · contradiction
  | deliver _ delivered => exact all.deliver delivered
  | consume head => exact all.consume head
  | @receive worker job _ _ head =>
    have listed := all.jobQueue
    rw [head, List.forall_mem_cons] at listed
    have next := @System.All.setWorker s P all worker (.started job) fun other busy => by
      obtain rfl := Option.some.inj busy
      exact listed.1
    exact ⟨next.handlers, next.queued, next.deliveries, listed.2, next.workers⟩
  | @call worker _ _ called =>
    refine all.setWorker fun job busy => all.workers worker job ?_
    rwa [← Stage.job?_call called]
  | postExecute stage => exact all.postExecute stage
  | settle => exact all.settle
  | connectionLost =>
    have known := all.setBroker fun payload held => Machine.Broker.holds_requeue.mp held
    exact ⟨known.handlers, known.queued, known.deliveries, known.jobQueue, known.workers⟩
  | exit => exact all.exit

def withVerdict (stored : Option Verdict) (row : SubmissionRow) : SubmissionRow :=
  match stored with
  | some verdict => if row.id = verdict.submissionId then { row with status := verdict.status } else row
  | none => row

theorem postExecution?_postExecute {worker : ℕ} {error : Option String} {job : Received} {problemData : ProblemData}
    {results : List Models.Result} (stage : s.pool.workers worker = .executed job problemData results) :
    s.postExecution? (.postExecute worker error) =
      (postExecute (fun _ => error) ⟨job.data, problemData⟩ results).map (worker, ·) := by
  rw [System.postExecution?, stage]

private theorem rows_postExecute {worker : ℕ} {error : Option String} {job : Received} {problemData : ProblemData}
    {results : List Models.Result} (stage : s.pool.workers worker = .executed job problemData results) :
    (s.postExecute worker error job problemData results).stores.rows =
      s.stores.rows.map (withVerdict (s.stored? (.postExecute worker error))) := by
  have same : s.stores.rows = s.stores.rows.map (withVerdict none) := (List.map_id _).symm
  rw [System.postExecute, System.stored?, postExecution?_postExecute stage]
  cases ended : postExecute (fun _ => error) ⟨job.data, problemData⟩ results with
  | none => exact same
  | some after =>
    dsimp only [Option.map_some, Option.bind_some]
    split
    · rfl
    · exact same

/-- A stored verdict reaches all rows with its id. -/
theorem rows_of_stored (taken : s.step event = some t) {verdict : Verdict} (stored : s.stored? event = some verdict) :
    t.stores.rows = s.stores.rows.map (withVerdict (some verdict)) := by
  cases System.effect_of_step taken with
  | postExecute stage => rw [rows_postExecute stage, stored]
  | _ => contradiction

/-- A row was there before, up to the verdict that the step stores, or its id is new. -/
theorem mem_rows_step (taken : s.step event = some t) {row : SubmissionRow} (member : row ∈ t.stores.rows) :
    (∃ before ∈ s.stores.rows, row = withVerdict (s.stored? event) before) ∨
      row.id ∉ s.stores.issued ∧ row.id ∈ t.stores.issued := by
  cases System.effect_of_step taken with
  | beginSubmit _ fresh =>
    rcases List.mem_append.mp member with before | here
    · exact .inl ⟨row, before, rfl⟩
    · obtain rfl := List.mem_singleton.mp here
      exact .inr ⟨fresh, List.mem_append_right _ (List.mem_singleton_self _)⟩
  | concludeSubmit _ _ rows _ =>
    rcases rows with rfl | rfl
    · exact .inl ⟨row, member, rfl⟩
    · exact .inl ⟨row, List.mem_of_mem_filter member, rfl⟩
  | @consume sent delivery deliveries head =>
    have kept : (s.consume sent delivery deliveries).stores.rows = s.stores.rows := by
      rw [System.consume]
      split
      · rfl
      · cases sent <;> rfl
    exact .inl ⟨row, kept ▸ member, rfl⟩
  | postExecute stage =>
    rw [rows_postExecute stage] at member
    obtain ⟨before, present, same⟩ := List.mem_map.mp member
    exact .inl ⟨before, present, same.symm⟩
  | @settle worker sent job error verdict stage =>
    have kept : (s.settle worker sent job verdict).stores.rows = s.stores.rows := by
      cases sent <;> cases verdict <;> rfl
    exact .inl ⟨row, kept ▸ member, rfl⟩
  | _ => exact .inl ⟨row, member, rfl⟩

/-- The step settles the delivery of a message. -/
def System.Settles (s : System) (message : SubmissionService.QueueMessage) : Event → Prop
  | .settle worker true => ∃ job error verdict, s.pool.workers worker = .returned job error verdict ∧
      (job.tag, .submission message) ∈ s.stores.broker.unacked
  | _ => False

/-- Ids stay given out, messages stay with the broker until they are settled, and what is owed is in the queue. -/
structure Progress (s : System) (event : Event) (t : System) : Prop where
  issued : ∀ id ∈ s.stores.issued, id ∈ t.stores.issued
  holds : ∀ message, s.stores.broker.Holds (.submission message) →
    t.stores.broker.Holds (.submission message) ∨ s.Settles message event
  owed : ∀ id, t.Owed id → s.Owed id ∨
    ∃ message, message.submissionId = id ∧ t.stores.broker.Holds (.submission message)

/-- A step of the process alone. -/
theorem progress_of_engine (issued : t.stores.issued = s.stores.issued) (handlers : t.handlers = s.handlers)
    (accepted : t.accepted = s.accepted)
    (holds : ∀ message, s.stores.broker.Holds (.submission message) →
      t.stores.broker.Holds (.submission message) ∨ s.Settles message event) : Progress s event t where
  issued _ member := issued ▸ member
  holds := holds
  owed _ due := by
    rw [System.Owed, handlers, accepted] at due
    exact .inl due

private theorem progress_consume (sound : s.Sound) {sent : Bool} {delivery : ℕ × Payload}
    {deliveries : List (ℕ × Payload)}
    (head : s.pool.deliveries = delivery :: deliveries) :
    Progress s (.consume sent) (s.consume sent delivery deliveries) := by
  have known := (sound.pool.deliveries delivery (by rw [head]; exact List.mem_cons_self)).1
  rw [System.consume]
  split
  · exact progress_of_engine rfl rfl rfl fun _ => .inl
  · next undecoded =>
    cases sent with
    | false => exact progress_of_engine rfl rfl rfl fun _ => .inl
    | true =>
      refine progress_of_engine rfl rfl rfl fun message held => .inl (held.settle fun unacked => ?_)
      rw [← known.2 _ unacked] at undecoded
      contradiction

private theorem progress_exit (s : System) (event : Event) : Progress s event s.exit :=
  progress_of_engine rfl rfl rfl fun _ held => .inl (Machine.Broker.holds_requeue.mpr held)

private theorem progress_settle {worker : ℕ} {sent : Bool} {job : Received} {error : Option String}
    {verdict : Option Verdict}
    (stage : s.pool.workers worker = .returned job error verdict) :
    Progress s (.settle worker sent) (s.settle worker sent job verdict) := by
  have settled (message : SubmissionService.QueueMessage) (held : s.stores.broker.Holds (.submission message)) :
      (s.stores.broker.settle job.tag).Holds (.submission message) ∨ s.Settles message (.settle worker true) := by
    by_cases unacked : (job.tag, .submission message) ∈ s.stores.broker.unacked
    · exact .inr ⟨job, error, verdict, stage, unacked⟩
    · exact .inl (held.settle unacked)
  cases sent with
  | false =>
    cases verdict with
    | none => exact progress_exit s _
    | some verdict => exact progress_of_engine rfl rfl rfl fun _ => .inl
  | true =>
    cases verdict with
    | none =>
      refine progress_of_engine rfl rfl rfl fun message held => ?_
      exact (settled message held).imp_left Machine.Broker.holds_requeue.mpr
    | some verdict => exact progress_of_engine rfl rfl rfl settled

private theorem progress_postExecute {worker : ℕ} {error : Option String} {job : Received} {problemData : ProblemData}
    {results : List Models.Result} :
    Progress s (.postExecute worker error) (s.postExecute worker error job problemData results) := by
  rw [System.postExecute]
  split
  · exact progress_exit s _
  · next after _ =>
    by_cases stored : after.error = none
    · rw [if_pos stored]
      exact progress_of_engine rfl rfl rfl fun _ => .inl
    · rw [if_neg stored]
      exact progress_of_engine rfl rfl rfl fun _ => .inl

theorem progress_step (sound : s.Sound) (taken : s.step event = some t) : Progress s event t := by
  cases System.effect_of_step taken with
  | rejected => exact progress_of_engine rfl rfl rfl fun _ => .inl
  | beginSubmit =>
    refine ⟨fun id member => List.mem_append_left _ member, fun _ => .inl, ?_⟩
    rintro id (accepted | ⟨handler, member, took, ofId⟩)
    · exact .inl (.inl accepted)
    · rcases List.mem_cons.mp member with rfl | before
      · contradiction
      · exact .inl (.inr ⟨handler, before, took, ofId⟩)
  | @take handler =>
    refine ⟨fun _ member => member, fun _ held => .inl (Machine.Broker.holds_publish.mpr (.inl held)), ?_⟩
    rintro id (accepted | ⟨other, member, took, ofId⟩)
    · exact .inl (.inl accepted)
    · rcases List.mem_cons.mp member with rfl | before
      · exact .inr ⟨handler.message, ofId, Machine.Broker.holds_publish.mpr (.inr rfl)⟩
      · exact .inl (.inr ⟨other, List.mem_of_mem_erase before, took, ofId⟩)
  | @concludeSubmit handler _ _ _ _ waiting _ rows answered =>
    refine ⟨?_, fun message held => .inl ?_, ?_⟩
    · rcases rows with rfl | rfl
      · exact fun _ => id
      · exact fun _ => id
    · rcases rows with rfl | rfl
      · exact held
      · exact held
    · rintro id (accepted | ⟨other, member, took, ofId⟩)
      · rcases answered id accepted with before | ⟨rfl, took⟩
        · exact .inl (.inl before)
        · exact .inl (.inr ⟨handler, waiting, took, rfl⟩)
      · exact .inl (.inr ⟨other, List.mem_of_mem_erase member, took, ofId⟩)
  | inject => exact progress_of_engine rfl rfl rfl fun _ held => .inl (Machine.Broker.holds_publish.mpr (.inl held))
  | deliver _ delivered =>
    exact progress_of_engine rfl rfl rfl fun _ held => .inl ((Machine.Broker.holds_deliver delivered).mpr held)
  | consume head => exact progress_consume sound head
  | receive => exact progress_of_engine rfl rfl rfl fun _ => .inl
  | call => exact progress_of_engine rfl rfl rfl fun _ => .inl
  | postExecute => exact progress_postExecute
  | settle stage => exact progress_settle stage
  | connectionLost =>
    exact progress_of_engine rfl rfl rfl fun _ held => .inl (Machine.Broker.holds_requeue.mpr held)
  | exit => exact progress_exit s _

/-- The id of a message is given out, and its row has the user and the type of the message. -/
structure Genuine (stores : Stores) (data : SubmissionData) : Prop where
  issued : data.submissionId ∈ stores.issued
  row : ∀ row ∈ stores.rows, row.id = data.submissionId → row.userId = data.userId ∧ row.type = data.type

theorem withVerdict_id (stored : Option Verdict) (row : SubmissionRow) : (withVerdict stored row).id = row.id := by
  unfold withVerdict
  split
  · split <;> rfl
  · rfl

theorem withVerdict_user (stored : Option Verdict) (row : SubmissionRow) :
    (withVerdict stored row).userId = row.userId ∧ (withVerdict stored row).type = row.type := by
  unfold withVerdict
  split
  · split <;> exact ⟨rfl, rfl⟩
  · exact ⟨rfl, rfl⟩

theorem Genuine.step {data : SubmissionData} (genuine : Genuine s.stores data) (progress : Progress s event t)
    (taken : s.step event = some t) : Genuine t.stores data := by
  refine ⟨progress.issued _ genuine.issued, fun row member same => ?_⟩
  rcases mem_rows_step taken member with ⟨before, present, rfl⟩ | ⟨new, _⟩
  · rw [withVerdict_id] at same
    obtain ⟨user, type⟩ := withVerdict_user (s.stored? event) before
    rw [user, type]
    exact genuine.row before present same
  · rw [same] at new
    exact absurd genuine.issued new

theorem issued_step (issued : s.stores.Issued) (progress : Progress s event t) (taken : s.step event = some t) :
    t.stores.Issued := by
  intro row member
  rcases mem_rows_step taken member with ⟨before, present, rfl⟩ | ⟨_, new⟩
  · rw [withVerdict_id]
    exact progress.issued _ (issued before present)
  · exact new

/-- The message of a new row is about that row. -/
theorem genuine_beginSubmit (issued : s.stores.Issued) {calls : SubmissionService.Calls} {userId : String}
    {body : Option SubmissionService.SubmissionRequest} {message : SubmissionService.QueueMessage} {stores : Stores}
    (begun : SubmissionService.beginSubmit calls userId body s.stores = (.ok message, stores))
    (fresh : message.submissionId ∉ s.stores.issued) {data : SubmissionData}
    (decoded : decode (.submission message) = some data) : Genuine stores data := by
  obtain rfl := Option.some.inj decoded
  cases body with
  | none => cases begun
  | some req =>
    rw [SubmissionService.beginSubmit] at begun
    dsimp only at begun
    split at begun
    · cases begun
    · cases begun
    · split at begun
      · cases begun
      · obtain ⟨same, rfl⟩ := Prod.mk.inj begun
        obtain rfl := Except.ok.inj same
        refine ⟨List.mem_append_right _ (List.mem_singleton_self _), fun row member sameId => ?_⟩
        rcases List.mem_append.mp member with before | here
        · have known := issued row before
          rw [sameId] at known
          exact absurd known fresh
        · obtain rfl := List.mem_singleton.mp here
          exact ⟨rfl, rfl⟩

/-- All messages of the engine are about their rows. -/
theorem genuine_step (all : s.All (Genuine s.stores)) (issued : s.stores.Issued) (progress : Progress s event t)
    (taken : s.step event = some t) : t.All (Genuine t.stores) := by
  refine (all.imp fun data genuine => genuine.step progress taken).step ?_ taken
  rintro calls userId body message stores rfl begun data decoded
  cases System.effect_beginSubmit taken with
  | rejected rejected =>
    rw [begun] at rejected
    cases rejected
  | beginSubmit same fresh =>
    rw [begun] at same
    cases same
    exact genuine_beginSubmit issued begun fresh decoded

/-- How a worker has come to return: it had before, it has just run `PostExecute`, or it failed before that. -/
inductive Returns (s : System) (event : Event) (worker : ℕ) (job : Received) (error : Option String)
    (ended : Option Verdict) : Prop
  | before (stage : s.pool.workers worker = .returned job error ended)
      (other : ∀ here execution, s.postExecution? event = some (here, execution) → here ≠ worker)
  | stored (execution : PostExecution) (here : s.postExecution? event = some (worker, execution))
      (ofJob : ∀ verdict ∈ execution.published, verdict.submissionId = job.data.submissionId ∧
        verdict.userId = job.data.userId)
      (publishes : error = none → job.data.type = "RATED" → execution.published ≠ none)
  | failed (failed : error ≠ none) (silent : s.postExecution? event = none)
      (working : ∀ job error ended, s.pool.workers worker ≠ .returned job error ended)

variable {worker : ℕ} {job : Received} {error : Option String} {ended : Option Verdict}

/-- A step other than `PostExecute` ends no execution. -/
theorem Returns.of_silent (stage : s.pool.workers worker = .returned job error ended)
    (silent : s.postExecution? event = none) : Returns s event worker job error ended := by
  refine .before stage fun here execution found => ?_
  rw [silent] at found
  contradiction

/-- The message of a job is about its submission, and a RATED verdict that is stored has one. -/
theorem published_of_postExecute {problemData : ProblemData} {results : List Models.Result} {execution : PostExecution}
    (executed : postExecute (fun _ => error) ⟨job.data, problemData⟩ results = some execution) :
    (∀ verdict ∈ execution.published, verdict.submissionId = job.data.submissionId ∧
        verdict.userId = job.data.userId) ∧
      (execution.error = none → job.data.type = "RATED" → execution.published ≠ none) := by
  obtain ⟨verdict, _, rfl⟩ := Option.map_eq_some_iff.mp executed
  cases error with
  | some err => exact ⟨nofun, nofun⟩
  | none =>
    dsimp only
    split
    · refine ⟨fun message published => ?_, fun _ _ => nofun⟩
      obtain rfl := Option.some.inj published
      exact ⟨rfl, rfl⟩
    · next practice => exact ⟨nofun, fun _ rated => absurd rated practice⟩

private theorem returns_setWorker {stage : Stage} {here : ℕ}
    (after : (s.pool.setWorker here stage).workers worker = .returned job error ended) :
    worker = here ∧ stage = .returned job error ended ∨
      worker ≠ here ∧ s.pool.workers worker = .returned job error ended := by
  rw [Pool.setWorker] at after
  dsimp only at after
  rcases eq_or_ne worker here with rfl | differs
  · rw [Function.update_self] at after
    exact .inl ⟨rfl, after⟩
  · rw [Function.update_of_ne differs] at after
    exact .inr ⟨differs, after⟩

private theorem returns_postExecute {here : ℕ} {failure : Option String} {current : Received}
    {problemData : ProblemData}
    {results : List Models.Result} (stage : s.pool.workers here = .executed current problemData results)
    (after : (s.postExecute here failure current problemData results).pool.workers worker =
      .returned job error ended) : Returns s (.postExecute here failure) worker job error ended := by
  have execution := @postExecution?_postExecute s _ failure _ _ _ stage
  rw [System.postExecute] at after
  split at after
  · contradiction
  · next executed =>
    rw [executed, Option.map_some] at execution
    rcases returns_setWorker after with ⟨rfl, same⟩ | ⟨differs, before⟩
    · obtain ⟨rfl, rfl, _⟩ := Stage.returned.inj same
      obtain ⟨ofJob, publishes⟩ := published_of_postExecute executed
      exact .stored _ execution ofJob publishes
    · refine .before before fun other _ found => ?_
      rw [execution] at found
      rw [← (Prod.mk.inj (Option.some.inj found)).1]
      exact differs.symm

private theorem returns_call {here : ℕ} {call : Call} {stage : Stage}
    (called : (s.pool.workers here).call call = some stage)
    (after : (s.pool.setWorker here stage).workers worker = .returned job error ended) :
    Returns s (.call here call) worker job error ended := by
  rcases returns_setWorker after with ⟨rfl, rfl⟩ | ⟨_, before⟩
  · cases Stage.called_of_call called with
    | undirected at_ | unloaded at_ =>
      refine .failed nofun rfl ?_
      rw [at_]
      exact nofun
  · exact .of_silent before rfl

theorem returned_step (taken : s.step event = some t) (after : t.pool.workers worker = .returned job error ended) :
    Returns s event worker job error ended := by
  cases System.effect_of_step taken with
  | @consume sent delivery deliveries _ =>
    have kept : (s.consume sent delivery deliveries).pool.workers = s.pool.workers := by
      rw [System.consume]
      split <;> rfl
    exact .of_silent (kept ▸ after) rfl
  | receive =>
    rcases returns_setWorker after with ⟨_, same⟩ | ⟨_, before⟩
    · contradiction
    · exact .of_silent before rfl
  | call called => exact returns_call called after
  | postExecute stage => exact returns_postExecute stage after
  | @settle _ _ _ _ verdict _ =>
    cases verdict with
    | none => contradiction
    | some verdict =>
      rcases returns_setWorker after with ⟨_, same⟩ | ⟨_, before⟩
      · contradiction
      · exact .of_silent before rfl
  | exit => contradiction
  | _ => exact .of_silent after rfl

end JudgeSelf.Engine
