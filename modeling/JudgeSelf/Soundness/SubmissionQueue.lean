import JudgeSelf.Model.Engine.Pool

/-! # Accepted submissions and their messages

A submission that was answered with 202 is owed a verdict: as long as its row says 'QUEUE', the
broker must hold its message. The rejection of a failed job breaks this, because it does not requeue
the message. In every run without such a rejection the invariant holds in every state.
-/

namespace JudgeSelf.Engine

open SubmissionService (Stores Payload PublishOutcome)

/-- A row with the id waits for its verdict. -/
def Waiting (stores : Stores) (id : String) : Prop := ∃ row ∈ stores.rows, row.id = id ∧ row.status = "QUEUE"

instance (stores : Stores) (id : String) : Decidable (Waiting stores id) :=
  inferInstanceAs (Decidable (∃ row ∈ stores.rows, _))

/-- The broker holds the message of a row that waits for its verdict. -/
def Kept (stores : Stores) (id : String) : Prop :=
  Waiting stores id → ∃ message, message.submissionId = id ∧ stores.broker.Holds (.submission message)

/-- Rows do not start to wait again, ids stay given out, and old deliveries only go away. -/
structure Evolves (s t : Stores) : Prop where
  issued : ∀ id ∈ s.issued, id ∈ t.issued
  broker : s.broker.Ages t.broker
  waiting : ∀ id ∈ s.issued, Waiting t id → Waiting s id

theorem Evolves.refl (s : Stores) : Evolves s s := ⟨fun _ => id, .refl _, fun _ _ => id⟩

theorem Evolves.of_broker {s : Stores} {broker : Machine.Broker Payload} (ages : s.broker.Ages broker) :
    Evolves s { s with broker } := ⟨fun _ => id, ages, fun _ _ => id⟩

private theorem evolves_createSubmission {s : Stores} {id : String} (fresh : id ∉ s.issued)
    (req : SubmissionService.SubmissionRequest) : Evolves s (s.createSubmission id req) where
  issued _ member := List.mem_append_left _ member
  broker := .refl _
  waiting := by
    rintro other known ⟨row, member, rfl, queued⟩
    rcases List.mem_append.mp member with before | here
    · exact ⟨row, before, rfl, queued⟩
    · rw [List.mem_singleton.mp here] at known
      exact absurd known fresh

private theorem evolves_deleteSubmission (s : Stores) (id : String) : Evolves s (s.deleteSubmission id) :=
  ⟨fun _ known => known, .refl _, fun _ _ ⟨row, member, rest⟩ => ⟨row, List.mem_of_mem_filter member, rest⟩⟩

/-- Storing a verdict ends the waiting of its row and starts no other. -/
theorem waiting_updateSubmission {s : Stores} {verdict : Verdict} (final : verdict.status ≠ "QUEUE") {id : String} :
    Waiting (updateSubmission s verdict) id ↔ Waiting s id ∧ id ≠ verdict.submissionId := by
  simp only [Waiting, updateSubmission, List.mem_map]
  constructor
  · rintro ⟨_, ⟨row, member, rfl⟩, rfl, queued⟩
    split at queued
    · exact absurd queued final
    · next other =>
      rw [if_neg other]
      exact ⟨⟨row, member, rfl, queued⟩, other⟩
  · rintro ⟨⟨row, member, rfl, queued⟩, other⟩
    exact ⟨row, ⟨row, member, if_neg other⟩, rfl, queued⟩

private theorem evolves_updateSubmission (s : Stores) {verdict : Verdict} (final : verdict.status ≠ "QUEUE") :
    Evolves s (updateSubmission s verdict) :=
  ⟨fun _ => id, .refl _, fun _ _ waits => ((waiting_updateSubmission final).mp waits).1⟩

/-- A message that stays with the broker keeps its submission. -/
theorem Kept.evolves {s t : Stores} {id : String} (kept : Kept s id) (evolves : Evolves s t)
    (known : id ∈ s.issued)
    (holds : ∀ message, s.broker.Holds (.submission message) → t.broker.Holds (.submission message)) :
    Kept t id := by
  intro waits
  obtain ⟨message, ofId, held⟩ := kept (evolves.waiting id known waits)
  exact ⟨message, ofId, holds message held⟩

/-- The tag of a job is that of its message, and its id was given out. -/
structure Received.Known (job : Received) (stores : Stores) : Prop where
  delivered : stores.broker.Delivered job.tag fun payload => decode payload = some job.data
  issued : job.data.submissionId ∈ stores.issued

theorem Received.Known.evolves {job : Received} {s t : Stores} (known : job.Known s) (evolves : Evolves s t) :
    job.Known t := ⟨known.delivered.ages evolves.broker, evolves.issued _ known.issued⟩

/-- What holds of a worker at each stage. -/
def Stage.Sound (stores : Stores) : Stage → Prop
  | .idle => True
  | .started job => job.Known stores
  | .prepared job => job.Known stores
  | .loaded job _ => job.Known stores
  | .executed job _ results => job.Known stores ∧ ∀ result ∈ results, result.status ∈ statuses
  | .returned job error _ => job.Known stores ∧ (error = none → ¬ Waiting stores job.data.submissionId)

theorem Stage.Sound.evolves {stage : Stage} {s t : Stores} (sound : stage.Sound s) (evolves : Evolves s t) :
    stage.Sound t := by
  cases stage with
  | idle => trivial
  | started job => exact Received.Known.evolves sound evolves
  | prepared job => exact Received.Known.evolves sound evolves
  | loaded job _ => exact Received.Known.evolves sound evolves
  | executed job _ results => exact ⟨sound.1.evolves evolves, sound.2⟩
  | returned job error _ =>
    exact ⟨sound.1.evolves evolves, fun success waits =>
      sound.2 success (evolves.waiting _ sound.1.issued waits)⟩

/-- A call of `RunWorker` takes its worker from one sound stage to the next. -/
theorem Stage.Sound.call {stage next : Stage} {stores : Stores} (sound : stage.Sound stores) {call : Call}
    (called : stage.call call = some next) : next.Sound stores := by
  cases Stage.called_of_call called with
  | prepared at_ | loaded at_ =>
    rw [at_] at sound
    exact sound
  | undirected at_ | unloaded at_ =>
    rw [at_] at sound
    exact ⟨sound, nofun⟩
  | @executed _ _ env w at_ =>
    rw [at_] at sound
    exact ⟨sound, executeWorker_mem_statuses env _ w⟩

structure Pool.Sound (pool : Pool) (stores : Stores) : Prop where
  deliveries : ∀ delivery ∈ pool.deliveries, stores.broker.Delivered delivery.1 (· = delivery.2) ∧
    ∀ message, delivery.2 = .submission message → message.submissionId ∈ stores.issued
  jobQueue : ∀ job ∈ pool.jobQueue, job.Known stores
  workers : ∀ worker, (pool.workers worker).Sound stores

theorem Pool.sound_start (stores : Stores) : Pool.start.Sound stores :=
  ⟨List.forall_mem_nil _, List.forall_mem_nil _, fun _ => trivial⟩

theorem Pool.Sound.evolves {pool : Pool} {s t : Stores} (sound : pool.Sound s) (evolves : Evolves s t) :
    pool.Sound t where
  deliveries delivery member := by
    obtain ⟨delivered, issued⟩ := sound.deliveries delivery member
    exact ⟨delivered.ages evolves.broker, fun message same => evolves.issued _ (issued message same)⟩
  jobQueue job member := (sound.jobQueue job member).evolves evolves
  workers worker := (sound.workers worker).evolves evolves

theorem Pool.Sound.setWorker {pool : Pool} {stores : Stores} (sound : pool.Sound stores) {worker : ℕ}
    {stage : Stage} (next : stage.Sound stores) : (pool.setWorker worker stage).Sound stores where
  deliveries := sound.deliveries
  jobQueue := sound.jobQueue
  workers other := by
    rw [Pool.setWorker]
    dsimp only
    rcases eq_or_ne other worker with rfl | differs
    · rwa [Function.update_self]
    · rw [Function.update_of_ne differs]
      exact sound.workers other

namespace System

/-- The submission was answered with 202, or may still be because the broker has taken its message. -/
def Owed (s : System) (id : String) : Prop :=
  id ∈ s.accepted ∨ ∃ handler ∈ s.handlers, handler.taken = true ∧ handler.message.submissionId = id

structure Sound (s : System) : Prop where
  handlers : ∀ handler ∈ s.handlers, handler.message.submissionId ∈ s.stores.issued
  queued : ∀ message, s.stores.broker.Holds (.submission message) → message.submissionId ∈ s.stores.issued
  owed : ∀ id, s.Owed id → id ∈ s.stores.issued ∧ Kept s.stores id
  pool : s.pool.Sound s.stores

theorem sound_start : start.Sound where
  handlers := List.forall_mem_nil _
  queued := by
    rintro message (ready | ⟨tag, unacked⟩)
    · contradiction
    · contradiction
  owed := by
    rintro id (accepted | ⟨handler, member, -⟩)
    · contradiction
    · contradiction
  pool := Pool.sound_start _

variable {s t : System}

/-- A step that neither loses nor adds a message and owes nothing new. -/
theorem Sound.of_evolves (sound : s.Sound) (evolves : Evolves s.stores t.stores)
    (holds : ∀ message, t.stores.broker.Holds (.submission message) ↔ s.stores.broker.Holds (.submission message))
    (handlers : ∀ handler ∈ t.handlers, handler.message.submissionId ∈ t.stores.issued)
    (owed : ∀ id, t.Owed id → s.Owed id) (pool : t.pool.Sound t.stores) : t.Sound where
  handlers := handlers
  queued message held := evolves.issued _ (sound.queued message ((holds message).mp held))
  owed id due := by
    obtain ⟨known, kept⟩ := sound.owed id (owed id due)
    exact ⟨evolves.issued id known, kept.evolves evolves known fun message => (holds message).mpr⟩
  pool := pool

/-- A step of the engine alone: the handlers stay as they are. -/
theorem Sound.of_engine (sound : s.Sound) (evolves : Evolves s.stores t.stores)
    (holds : ∀ message, t.stores.broker.Holds (.submission message) ↔ s.stores.broker.Holds (.submission message))
    (handlers : t.handlers = s.handlers) (accepted : t.accepted = s.accepted) (pool : t.pool.Sound t.stores) :
    t.Sound := by
  refine sound.of_evolves evolves holds ?_ ?_ pool
  · rw [handlers]
    exact fun handler member => evolves.issued _ (sound.handlers handler member)
  · intro id
    rw [Owed, Owed, handlers, accepted]
    exact fun due => due

/-- A new message in the queue, known to a handler or to nobody. -/
theorem Sound.enqueue (sound : s.Sound) {payload : Payload}
    (known : ∀ message, payload = .submission message → message.submissionId ∈ s.stores.issued)
    (stores : t.stores = s.stores.enqueue payload) (pool : t.pool = s.pool)
    (handlers : ∀ handler ∈ t.handlers, handler.message.submissionId ∈ s.stores.issued)
    (owed : ∀ id, t.Owed id → s.Owed id ∨
      ∃ message, payload = .submission message ∧ message.submissionId = id) : t.Sound := by
  have evolves : Evolves s.stores (s.stores.enqueue payload) := .of_broker (Machine.Broker.ages_publish _ _)
  have holds (message : SubmissionService.QueueMessage) :
      (s.stores.enqueue payload).broker.Holds (.submission message) ↔
        s.stores.broker.Holds (.submission message) ∨ .submission message = payload :=
    Machine.Broker.holds_publish
  refine ⟨by rw [stores]; exact handlers, ?_, ?_, ?_⟩
  · intro message held
    rw [stores, holds] at held
    rw [stores]
    rcases held with before | here
    · exact sound.queued message before
    · exact known message here.symm
  · intro id due
    rw [stores]
    rcases owed id due with before | ⟨message, rfl, rfl⟩
    · obtain ⟨issued, kept⟩ := sound.owed id before
      exact ⟨issued, kept.evolves evolves issued fun message held => (holds message).mpr (.inl held)⟩
    · exact ⟨known message rfl, fun _ => ⟨message, rfl, (holds message).mpr (.inr rfl)⟩⟩
  · rw [stores, pool]
    exact sound.pool.evolves evolves

theorem Sound.exit (sound : s.Sound) : s.exit.Sound :=
  sound.of_engine (.of_broker (Machine.Broker.ages_requeue _)) (fun _ => Machine.Broker.holds_requeue) rfl rfl
    (Pool.sound_start _)

/-- Settling a delivery is sound if no submission waits for the settled message. -/
theorem Sound.settleBroker (sound : s.Sound) {tag : ℕ}
    (done : ∀ message, (tag, .submission message) ∈ s.stores.broker.unacked →
      ¬ Waiting s.stores message.submissionId) : (s.setBroker (s.stores.broker.settle tag)).Sound := by
  have evolves : Evolves s.stores (s.setBroker (s.stores.broker.settle tag)).stores :=
    .of_broker (Machine.Broker.ages_settle _ _)
  refine ⟨sound.handlers, fun message held => sound.queued message held.of_settle, fun id due => ?_,
    sound.pool.evolves evolves⟩
  obtain ⟨known, kept⟩ := sound.owed id due
  refine ⟨known, fun waits => ?_⟩
  obtain ⟨message, rfl, held⟩ := kept (evolves.waiting id known waits)
  refine ⟨message, rfl, held.settle fun unacked => ?_⟩
  exact done message unacked (evolves.waiting _ known waits)

theorem Sound.setWorker (sound : s.Sound) {worker : ℕ} {stage : Stage} (next : stage.Sound s.stores) :
    { s with pool := s.pool.setWorker worker stage }.Sound :=
  ⟨sound.handlers, sound.queued, sound.owed, sound.pool.setWorker next⟩

theorem Sound.beginSubmit (sound : s.Sound) {message : SubmissionService.QueueMessage}
    (fresh : message.submissionId ∉ s.stores.issued) (req : SubmissionService.SubmissionRequest) :
    { s with
      stores := s.stores.createSubmission message.submissionId req
      handlers := ⟨message, false⟩ :: s.handlers }.Sound := by
  have evolves := evolves_createSubmission fresh req
  refine sound.of_evolves evolves (fun _ => Iff.rfl) ?_ ?_ (sound.pool.evolves evolves)
  · refine List.forall_mem_cons.mpr ⟨List.mem_append_right _ (List.mem_singleton_self _), ?_⟩
    exact fun handler member => evolves.issued _ (sound.handlers handler member)
  · rintro id (accepted | ⟨handler, member, took, ofId⟩)
    · exact .inl accepted
    · rcases List.mem_cons.mp member with rfl | before
      · contradiction
      · exact .inr ⟨handler, before, took, ofId⟩

theorem Sound.take (sound : s.Sound) {handler : Handler} (waiting : handler ∈ s.handlers) :
    { s with
      stores := s.stores.enqueue (.submission handler.message)
      handlers := { handler with taken := true } :: s.handlers.erase handler }.Sound := by
  have known := sound.handlers handler waiting
  have others : ∀ other ∈ s.handlers.erase handler, other ∈ s.handlers := fun other => List.mem_of_mem_erase
  refine sound.enqueue ?_ rfl rfl ?_ ?_
  · intro message same
    obtain rfl := Payload.submission.inj same
    exact known
  · exact List.forall_mem_cons.mpr ⟨known, fun other member => sound.handlers other (others other member)⟩
  · rintro id (accepted | ⟨other, member, took, ofId⟩)
    · exact .inl (.inl accepted)
    · rcases List.mem_cons.mp member with rfl | before
      · exact .inr ⟨_, rfl, ofId⟩
      · exact .inl (.inr ⟨other, others other before, took, ofId⟩)

theorem Sound.concludeSubmit (sound : s.Sound) {handler : Handler} {stores : Stores} {accepted : List String}
    (waiting : handler ∈ s.handlers)
    (rows : stores = s.stores ∨ stores = s.stores.deleteSubmission handler.message.submissionId)
    (answered : ∀ id ∈ accepted, id ∈ s.accepted ∨ id = handler.message.submissionId ∧ handler.taken = true) :
    { s with stores, handlers := s.handlers.erase handler, accepted }.Sound := by
  have others : ∀ other ∈ s.handlers.erase handler, other ∈ s.handlers := fun other => List.mem_of_mem_erase
  obtain ⟨evolves, broker⟩ : Evolves s.stores stores ∧ stores.broker = s.stores.broker := by
    rcases rows with rfl | rfl
    · exact ⟨.refl _, rfl⟩
    · exact ⟨evolves_deleteSubmission _ _, rfl⟩
  refine sound.of_evolves evolves ?_ ?_ ?_ (sound.pool.evolves evolves)
  · intro message
    dsimp only
    rw [broker]
  · intro other member
    exact evolves.issued _ (sound.handlers other (others other member))
  · rintro id (member | ⟨other, member, took, ofId⟩)
    · rcases answered id member with before | ⟨rfl, took⟩
      · exact .inl before
      · exact .inr ⟨handler, waiting, took, rfl⟩
    · exact .inr ⟨other, others other member, took, ofId⟩

theorem Sound.consume (sound : s.Sound) {sent : Bool} {delivery : ℕ × Payload} {deliveries : List (ℕ × Payload)}
    (head : s.pool.deliveries = delivery :: deliveries) : (s.consume sent delivery deliveries).Sound := by
  have listed := sound.pool.deliveries
  rw [head, List.forall_mem_cons] at listed
  obtain ⟨⟨delivered, issued⟩, rest⟩ := listed
  rw [System.consume]
  split
  · next data decoded =>
    refine ⟨sound.handlers, sound.queued, sound.owed, rest, ?_, sound.pool.workers⟩
    refine List.forall_mem_append.mpr ⟨sound.pool.jobQueue, List.forall_mem_singleton.mpr ⟨?_, ?_⟩⟩
    · exact delivered.imp fun payload same => same ▸ decoded
    · cases found : delivery.2 with
      | submission message =>
        rw [found] at decoded
        obtain rfl := Option.some.inj decoded
        exact issued message found
      | malformed body => rw [found] at decoded; contradiction
  · next undecoded =>
    have others : ∀ other ∈ deliveries, other ∈ s.pool.deliveries := by
      rw [head]
      exact fun other member => List.mem_cons_of_mem _ member
    cases sent with
    | false => exact ⟨sound.handlers, sound.queued, sound.owed, rest, sound.pool.jobQueue, sound.pool.workers⟩
    | true =>
      have settled : (s.setBroker (s.stores.broker.settle delivery.1)).Sound := by
        apply sound.settleBroker
        intro message unacked
        rw [← delivered.2 _ unacked] at undecoded
        contradiction
      exact ⟨settled.handlers, settled.queued, settled.owed,
        fun other member => settled.pool.deliveries other (others other member), settled.pool.jobQueue,
        settled.pool.workers⟩

/-- Storing a verdict, or failing to. -/
theorem Sound.postExecute (sound : s.Sound) {worker : ℕ} {error : Option String} {job : Received}
    {problemData : ProblemData} {results : List Models.Result}
    (stage : s.pool.workers worker = .executed job problemData results) :
    (s.postExecute worker error job problemData results).Sound := by
  have here := sound.pool.workers worker
  rw [stage] at here
  obtain ⟨known, final⟩ := here
  rw [System.postExecute]
  split
  · exact sound.exit
  · next after ended =>
    rw [Engine.postExecute, Option.map_eq_some_iff] at ended
    obtain ⟨verdict, computed, rfl⟩ := ended
    cases error with
    | some err => exact sound.setWorker ⟨known, nofun⟩
    | none =>
      rw [Job.verdict, Option.map_eq_some_iff] at computed
      obtain ⟨last, ending, same⟩ := computed
      have ofJob : verdict.submissionId = job.data.submissionId := by rw [← same]
      have vocabulary : verdict.status ∈ statuses := by
        rw [← same]
        exact final last (List.mem_of_getLast? ending)
      have status : verdict.status ≠ "QUEUE" := by
        intro queued
        rw [queued] at vocabulary
        exact absurd vocabulary (by decide)
      have evolves := evolves_updateSubmission s.stores status
      refine sound.of_engine evolves (fun _ => Iff.rfl) rfl rfl ?_
      refine (sound.pool.evolves evolves).setWorker ⟨known.evolves evolves, fun _ waits => ?_⟩
      exact ((waiting_updateSubmission status).mp waits).2 ofJob.symm

/-- The settling of a delivery, unless it drops a submission that waits. -/
theorem Sound.settle (sound : s.Sound) {worker : ℕ} {sent : Bool} {job : Received} {error : Option String}
    {verdict : Option Verdict} (stage : s.pool.workers worker = .returned job error verdict)
    (allowed : sent = true → error ≠ none → (∃ delivery ∈ s.stores.broker.unacked, delivery.1 = job.tag) →
      ¬ Waiting s.stores job.data.submissionId) : (s.settle worker sent job verdict).Sound := by
  have here := sound.pool.workers worker
  rw [stage] at here
  obtain ⟨known, success⟩ := here
  have settled : (if sent then s.setBroker (s.stores.broker.settle job.tag) else s).Sound := by
    split
    · next reached =>
      apply sound.settleBroker
      intro message unacked waits
      have same : decode (.submission message) = some job.data := known.delivered.2 _ unacked
      have ofJob : message.submissionId = job.data.submissionId :=
        congrArg SubmissionData.submissionId (Option.some.inj same)
      rw [ofJob] at waits
      rcases eq_or_ne error none with finished | failed
      · exact success finished waits
      · exact allowed reached failed ⟨_, unacked, rfl⟩ waits
    · exact sound
  have kept : (if sent then s.setBroker (s.stores.broker.settle job.tag) else s).pool = s.pool := by
    split <;> rfl
  cases verdict with
  | none => exact settled.exit
  | some verdict =>
    rw [System.settle, ← kept]
    exact settled.setWorker trivial

theorem Sound.deliver (sound : s.Sound) {delivery : ℕ × Payload} {broker : Machine.Broker Payload}
    (delivered : s.stores.broker.deliver = some (delivery, broker)) :
    { s.setBroker broker with pool := { s.pool with deliveries := s.pool.deliveries ++ [delivery] } }.Sound := by
  have evolves : Evolves s.stores { s.stores with broker } := .of_broker (Machine.Broker.ages_deliver delivered)
  have holds (payload : Payload) : broker.Holds payload ↔ s.stores.broker.Holds payload :=
    Machine.Broker.holds_deliver delivered
  have pool := sound.pool.evolves evolves
  refine sound.of_engine evolves (fun message => holds _) rfl rfl ⟨?_, pool.jobQueue, pool.workers⟩
  refine List.forall_mem_append.mpr ⟨pool.deliveries, List.forall_mem_singleton.mpr ⟨?_, ?_⟩⟩
  · exact Machine.Broker.delivered_deliver delivered
  · intro message same
    apply sound.queued
    rw [← same, Machine.Broker.Holds, (Machine.Broker.deliver_eq_some delivered).1]
    exact .inl List.mem_cons_self

theorem Sound.receive (sound : s.Sound) {worker : ℕ} {job : Received} {jobQueue : List Received}
    (head : s.pool.jobQueue = job :: jobQueue) :
    { s with pool := { s.pool.setWorker worker (.started job) with jobQueue } }.Sound := by
  have listed := sound.pool.jobQueue
  rw [head, List.forall_mem_cons] at listed
  have started : (Stage.started job).Sound s.stores := listed.1
  have pool : (s.pool.setWorker worker (.started job)).Sound s.stores := sound.pool.setWorker started
  exact ⟨sound.handlers, sound.queued, sound.owed, pool.deliveries, listed.2, pool.workers⟩

/-- The step rejects a failed job, and with it the only message of a row that waits. -/
def DropsWaiting (s : System) : Event → Prop
  | .settle worker true =>
    match s.pool.workers worker with
    | .returned job (some _) _ =>
      (∃ delivery ∈ s.stores.broker.unacked, delivery.1 = job.tag) ∧ Waiting s.stores job.data.submissionId
    | _ => False
  | _ => False

theorem Sound.step (sound : s.Sound) {event : Event} (allowed : ¬ s.DropsWaiting event)
    (taken : s.step event = some t) : t.Sound := by
  cases effect_of_step taken with
  | rejected => exact sound
  | beginSubmit _ fresh => exact sound.beginSubmit fresh _
  | take waiting _ => exact sound.take waiting
  | concludeSubmit waiting _ rows answered => exact sound.concludeSubmit waiting rows answered
  | inject =>
    refine sound.enqueue (fun message same => ?_) rfl rfl sound.handlers fun _ => .inl
    contradiction
  | deliver _ delivered => exact sound.deliver delivered
  | consume head => exact sound.consume head
  | receive _ head => exact sound.receive head
  | @call worker _ _ called => exact sound.setWorker ((sound.pool.workers worker).call called)
  | postExecute stage => exact sound.postExecute stage
  | settle stage =>
    refine sound.settle stage fun reached failed unacked waits => allowed ?_
    obtain ⟨err, rfl⟩ := Option.ne_none_iff_exists'.mp failed
    rw [reached, DropsWaiting, stage]
    exact ⟨unacked, waits⟩
  | connectionLost =>
    have evolves : Evolves s.stores { s.stores with broker := s.stores.broker.requeue } :=
      .of_broker (Machine.Broker.ages_requeue _)
    have pool := sound.pool.evolves evolves
    exact sound.of_engine evolves (fun _ => Machine.Broker.holds_requeue) rfl rfl
      ⟨pool.deliveries, pool.jobQueue, pool.workers⟩
  | exit => exact sound.exit

/-- What holds of the whole system in every run that rejects no job whose submission waits. -/
theorem sound_of_run {events : List Event} {final : System}
    (run : Machine.Run (Machine.Guarded (Machine.Steps System.step) fun s event => ¬ s.DropsWaiting event)
      .start events final) : final.Sound :=
  run.invariant (fun _ _ _ sound ⟨allowed, taken⟩ => sound.step allowed taken) sound_start

end System

/-- In every run that rejects no job whose submission waits, an accepted submission that waits has its
message ready or unacknowledged. -/
theorem accepted_submissions_kept {events : List Event} {final : System}
    (run : Machine.Run (Machine.Guarded (Machine.Steps System.step) fun s event => ¬ s.DropsWaiting event)
      .start events final) {id : String} (accepted : id ∈ final.accepted) : Kept final.stores id :=
  ((System.sound_of_run run).owed id (.inl accepted)).2

instance (s : System) (event : Event) : Decidable (s.DropsWaiting event) :=
  match event with
  | .settle worker true =>
    match stage : s.pool.workers worker with
    | .returned job (some _) _ =>
      decidable_of_iff ((∃ delivery ∈ s.stores.broker.unacked, delivery.1 = job.tag) ∧
        Waiting s.stores job.data.submissionId) (by rw [System.DropsWaiting, stage])
    | .returned _ none _ | .idle | .started _ | .prepared _ | .loaded _ _ | .executed _ _ _ =>
      isFalse (by rw [System.DropsWaiting, stage]; exact id)
  | .settle _ false | .beginSubmit _ _ _ | .take _ | .concludeSubmit _ _ _ | .inject _ | .deliver | .consume _
  | .receive _ | .call _ _ | .postExecute _ _ | .connectionLost | .exit => isFalse id

/-- A request is accepted, its message is delivered, and a worker starts the job. -/
def startedJob : List Event :=
  let message := SubmissionService.queueMessage "s" ⟨"p", 1, ⟨"c", 0, 7200 * 10 ^ 9⟩⟩
    { SubmissionService.pythonRequest with userId := "u", type := "RATED", relativeSubmissionTime := 60 }
  [.beginSubmit (SubmissionService.firstMinute .confirmed) "u" (some SubmissionService.pythonRequest),
    .take ⟨message, false⟩, .concludeSubmit ⟨message, true⟩ .confirmed none, .deliver, .consume true, .receive 1,
    .call 1 (.mkdirAll none)]

def interruptedJob : List Event := startedJob ++ [.exit]

def unloadableJob : List Event :=
  startedJob ++ [.call 1 (.preExecute (.error "Failed to download problem zip from S3: connection refused")),
    .settle 1 true]

/-- When the process ends during the job, the message of the submission is in the queue again. -/
theorem interrupted_submission_kept : ∃ final,
    interruptedJob.foldlM (Machine.guardedStep System.step fun s event => ¬ s.DropsWaiting event) .start = some final ∧
      "s" ∈ final.accepted ∧ Waiting final.stores "s" ∧ Kept final.stores "s" := by
  have ended : (interruptedJob.foldlM
      (Machine.guardedStep System.step fun s event => ¬ s.DropsWaiting event) .start).map
        (fun final => (final.accepted, decide (Waiting final.stores "s"))) = some (["s"], true) := by
    decide +kernel
  obtain ⟨final, executed, state⟩ := Option.map_eq_some_iff.mp ended
  obtain ⟨accepted, waits⟩ := Prod.mk.inj state
  have member : "s" ∈ final.accepted := accepted ▸ List.mem_singleton_self "s"
  exact ⟨final, executed, member, of_decide_eq_true waits,
    accepted_submissions_kept (.of_foldlM_guarded executed) member⟩

/-- When the archive of the problem cannot be downloaded, the row waits and no message is left. -/
theorem failed_load_drops_submission : ∃ final, unloadableJob.foldlM System.step .start = some final ∧
    "s" ∈ final.accepted ∧ Waiting final.stores "s" ∧ ¬ Kept final.stores "s" := by
  have ended : (unloadableJob.foldlM System.step .start).map (fun final =>
      (final.accepted, decide (Waiting final.stores "s"), final.stores.broker.ready, final.stores.broker.unacked)) =
        some (["s"], true, [], []) := by
    decide +kernel
  obtain ⟨final, executed, state⟩ := Option.map_eq_some_iff.mp ended
  obtain ⟨accepted, rest⟩ := Prod.mk.inj state
  obtain ⟨waits, rest⟩ := Prod.mk.inj rest
  obtain ⟨ready, unacked⟩ := Prod.mk.inj rest
  refine ⟨final, executed, accepted ▸ List.mem_singleton_self "s", of_decide_eq_true waits, fun kept => ?_⟩
  obtain ⟨message, -, inReady | ⟨tag, inUnacked⟩⟩ := kept (of_decide_eq_true waits)
  · exact absurd (ready ▸ inReady) List.not_mem_nil
  · exact absurd (unacked ▸ inUnacked) List.not_mem_nil

end JudgeSelf.Engine
