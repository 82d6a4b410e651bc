import JudgeSelf.Machine.Run
import JudgeSelf.Model.Engine.Logged
import JudgeSelf.Model.Submission.Submit
import Mathlib.Logic.Function.Basic

/-! # Submissions on their way to a verdict

The submission service, the submissions queue, its consumer and the pool of workers as one machine.
A step is one call on a store or one hand-over, and every call may fail. A cancelled context shows
as failing calls. The process may end at any time, in an orderly shutdown, a panic or a crash, and
is then started again; its connection to the broker may also be lost while it goes on.
-/

namespace JudgeSelf.Engine

open SubmissionService (Stores Payload Calls SubmissionRequest PublishOutcome Response beginSubmit concludeSubmit
  publishSubmission)

/-- `decode`; the fields of the two message types have the same JSON names. -/
def decode : Payload → Option SubmissionData
  | .submission message =>
    some
      { submissionId := message.submissionId
        sourceCode := message.code
        sourceLanguage := message.language
        problemId := message.problemId
        type := message.type
        userId := message.userId
        relativeSubmissionTime := message.relativeSubmissionTime }
  | .malformed _ => none

/-- A job with the delivery that its `Ack` and `Nack` settle. -/
structure Received where
  tag : ℕ
  data : SubmissionData

/-- Where a worker is in `Start` and `RunWorker`. -/
inductive Stage
  | idle
  /-- `MkdirAll` is next. -/
  | started (job : Received)
  /-- `PreExecute` is next. -/
  | prepared (job : Received)
  /-- `ExecuteWorker` is next. -/
  | loaded (job : Received) (problemData : ProblemData)
  /-- `PostExecute` is next. -/
  | executed (job : Received) (problemData : ProblemData) (results : List Models.Result)
  /-- `RunWorker` has returned; `Ack` or `Nack` is next. -/
  | returned (job : Received) (error : Option String) (verdict : Option Verdict)

/-- The calls of `RunWorker` before `PostExecute`, with what they come to. -/
inductive Call
  | mkdirAll (error : Option String)
  | preExecute (loaded : Except String ProblemData)
  | executeWorker (env : Environment) (w : World)

def Stage.call : Call → Stage → Option Stage
  | .mkdirAll none, .started job => some (.prepared job)
  | .mkdirAll (some err), .started job =>
    some (.returned job (some ("Failed to create localDir directory: " ++ err)) none)
  | .preExecute (.ok problemData), .prepared job => some (.loaded job problemData)
  | .preExecute (.error err), .prepared job =>
    some (.returned job (some ("Failed to get or load problem data: " ++ err)) none)
  | .executeWorker env w, .loaded job problemData =>
    some (.executed job problemData (executeWorker env ⟨job.data, problemData⟩ w).1)
  | _, _ => none

/-- The calls that can return, each with the stage before it and the stage after it. -/
inductive Stage.Called (stage : Stage) : Call → Stage → Prop
  | prepared {job : Received} (at_ : stage = .started job) : Called stage (.mkdirAll none) (.prepared job)
  | undirected {job : Received} {err : String} (at_ : stage = .started job) :
    Called stage (.mkdirAll (some err)) (.returned job (some ("Failed to create localDir directory: " ++ err)) none)
  | loaded {job : Received} {problemData : ProblemData} (at_ : stage = .prepared job) :
    Called stage (.preExecute (.ok problemData)) (.loaded job problemData)
  | unloaded {job : Received} {err : String} (at_ : stage = .prepared job) :
    Called stage (.preExecute (.error err))
      (.returned job (some ("Failed to get or load problem data: " ++ err)) none)
  | executed {job : Received} {problemData : ProblemData} {env : Environment} {w : World}
      (at_ : stage = .loaded job problemData) :
    Called stage (.executeWorker env w)
      (.executed job problemData (executeWorker env ⟨job.data, problemData⟩ w).1)

theorem Stage.called_of_call {stage next : Stage} {call : Call} (called : stage.call call = some next) :
    stage.Called call next := by
  unfold Stage.call at called
  split at called
  · obtain rfl := Option.some.inj called
    exact .prepared rfl
  · obtain rfl := Option.some.inj called
    exact .undirected rfl
  · obtain rfl := Option.some.inj called
    exact .loaded rfl
  · obtain rfl := Option.some.inj called
    exact .unloaded rfl
  · obtain rfl := Option.some.inj called
    exact .executed rfl
  · contradiction

/-- The memory of the engine process; the workers are numbered. -/
structure Pool where
  consuming : Bool
  deliveries : List (ℕ × Payload)
  jobQueue : List Received
  workers : ℕ → Stage

def Pool.start : Pool := ⟨true, [], [], fun _ => .idle⟩

def Pool.setWorker (pool : Pool) (worker : ℕ) (stage : Stage) : Pool :=
  { pool with workers := Function.update pool.workers worker stage }

/-- A request whose row is inserted; `taken` when the broker has its message. -/
structure Handler where
  message : SubmissionService.QueueMessage
  taken : Bool
deriving DecidableEq

/-- `accepted` lists the ids that were answered with 202. -/
structure System where
  stores : Stores
  handlers : List Handler
  accepted : List String
  pool : Pool

inductive Event
  | beginSubmit (calls : Calls) (userId : String) (body : Option SubmissionRequest)
  | take (handler : Handler)
  | concludeSubmit (handler : Handler) (outcome : PublishOutcome) (deleteError : Option String)
  /-- A body that does not parse gets into the queue. -/
  | inject (body : String)
  | deliver
  /-- The consumer reads a delivery; `sent` tells whether a rejection reaches the broker. -/
  | consume (sent : Bool)
  | receive (worker : ℕ)
  | call (worker : ℕ) (call : Call)
  | postExecute (worker : ℕ) (error : Option String)
  /-- The worker settles its delivery; `sent` tells whether that reaches the broker. -/
  | settle (worker : ℕ) (sent : Bool)
  | connectionLost
  | exit

/-- `UpdateSubmission`, as far as the status is concerned. -/
def updateSubmission (stores : Stores) (verdict : Verdict) : Stores :=
  { stores with rows := stores.rows.map fun row =>
      if row.id = verdict.submissionId then { row with status := verdict.status } else row }

namespace System

def start : System := ⟨⟨[], [], .empty⟩, [], [], .start⟩

def setBroker (s : System) (broker : Machine.Broker Payload) : System := { s with stores := { s.stores with broker } }

/-- The process ends and is started again. -/
def exit (s : System) : System := { s.setBroker s.stores.broker.requeue with pool := .start }

/-- The end of a job in `Start`. The log line at its end panics without a verdict. -/
def settle (s : System) (worker : ℕ) (sent : Bool) (job : Received) (verdict : Option Verdict) : System :=
  let settled := if sent then s.setBroker (s.stores.broker.settle job.tag) else s
  match verdict with
  | some _ => { settled with pool := s.pool.setWorker worker .idle }
  | none => settled.exit

/-- One reading of the `deliveries` channel in `Consume`. -/
def consume (s : System) (sent : Bool) (delivery : ℕ × Payload) (deliveries : List (ℕ × Payload)) : System :=
  match decode delivery.2 with
  | some data =>
    { s with pool := { s.pool with deliveries, jobQueue := s.pool.jobQueue ++ [⟨delivery.1, data⟩] } }
  | none =>
    { (if sent then s.setBroker (s.stores.broker.settle delivery.1) else s) with
      pool := { s.pool with deliveries } }

/-- The end of `RunWorker` for a job with results; without results `PostExecute` panics. -/
def postExecute (s : System) (worker : ℕ) (error : Option String) (job : Received) (problemData : ProblemData)
    (results : List Models.Result) : System :=
  match Engine.postExecute (fun _ => error) ⟨job.data, problemData⟩ results with
  | none => s.exit
  | some after =>
    { s with
      stores := if after.error = none then updateSubmission s.stores after.verdict else s.stores
      pool := s.pool.setWorker worker (.returned job after.error (some after.verdict)) }

def step (s : System) : Event → Option System
  | .beginSubmit calls userId body =>
    if ∀ id ∈ calls.newId.toOption, id ∉ s.stores.issued then
      match beginSubmit calls userId body s.stores with
      | (.error _, stores) => some { s with stores }
      | (.ok message, stores) => some { s with stores, handlers := ⟨message, false⟩ :: s.handlers }
    else none
  | .take handler =>
    if handler ∈ s.handlers ∧ handler.taken = false then
      some { s with
        stores := s.stores.enqueue (.submission handler.message)
        handlers := { handler with taken := true } :: s.handlers.erase handler }
    else none
  | .concludeSubmit handler outcome deleteError =>
    if handler ∈ s.handlers ∧ outcome.taken = handler.taken then
      let (response, stores) :=
        concludeSubmit (publishSubmission outcome) deleteError handler.message.submissionId s.stores
      some { s with
        stores
        handlers := s.handlers.erase handler
        accepted := match response with
          | .accepted id => s.accepted ++ [id]
          | _ => s.accepted }
    else none
  | .inject body => some { s with stores := s.stores.enqueue (.malformed body) }
  | .deliver =>
    if s.pool.consuming then
      s.stores.broker.deliver.map fun (delivery, broker) =>
        { s.setBroker broker with pool := { s.pool with deliveries := s.pool.deliveries ++ [delivery] } }
    else none
  | .consume sent =>
    match s.pool.deliveries with
    | [] => none
    | delivery :: deliveries => some (s.consume sent delivery deliveries)
  | .receive worker =>
    match s.pool.workers worker, s.pool.jobQueue with
    | .idle, job :: jobQueue =>
      some { s with pool := { s.pool.setWorker worker (.started job) with jobQueue } }
    | _, _ => none
  | .call worker call =>
    ((s.pool.workers worker).call call).map fun stage => { s with pool := s.pool.setWorker worker stage }
  | .postExecute worker error =>
    match s.pool.workers worker with
    | .executed job problemData results => some (s.postExecute worker error job problemData results)
    | _ => none
  | .settle worker sent =>
    match s.pool.workers worker with
    | .returned job _ verdict => some (s.settle worker sent job verdict)
    | _ => none
  | .connectionLost =>
    some { s.setBroker s.stores.broker.requeue with pool := { s.pool with consuming := false } }
  | .exit => some s.exit

/-- The steps that can be taken, each with its guard and the state after it. -/
inductive Effect (s : System) : Event → System → Prop
  | rejected {calls : Calls} {userId : String} {body : Option SubmissionRequest} {response : Response}
      (rejected : beginSubmit calls userId body s.stores = (.error response, s.stores)) :
    Effect s (.beginSubmit calls userId body) s
  | beginSubmit {calls : Calls} {userId : String} {body : Option SubmissionRequest}
      {message : SubmissionService.QueueMessage} {req : SubmissionRequest}
      (begun : beginSubmit calls userId body s.stores =
        (.ok message, s.stores.createSubmission message.submissionId req))
      (fresh : message.submissionId ∉ s.stores.issued) :
    Effect s (.beginSubmit calls userId body)
      { s with
        stores := s.stores.createSubmission message.submissionId req
        handlers := ⟨message, false⟩ :: s.handlers }
  | take {handler : Handler} (waiting : handler ∈ s.handlers) (untaken : handler.taken = false) :
    Effect s (.take handler)
      { s with
        stores := s.stores.enqueue (.submission handler.message)
        handlers := { handler with taken := true } :: s.handlers.erase handler }
  /-- The row stays or is deleted, and only a message that was taken is answered with 202. -/
  | concludeSubmit {handler : Handler} {outcome : PublishOutcome} {deleteError : Option String} {stores : Stores}
      {accepted : List String} (waiting : handler ∈ s.handlers) (same : outcome.taken = handler.taken)
      (rows : stores = s.stores ∨ stores = s.stores.deleteSubmission handler.message.submissionId)
      (answered : ∀ id ∈ accepted, id ∈ s.accepted ∨ id = handler.message.submissionId ∧ handler.taken = true) :
    Effect s (.concludeSubmit handler outcome deleteError)
      { s with stores, handlers := s.handlers.erase handler, accepted }
  | inject {body : String} : Effect s (.inject body) { s with stores := s.stores.enqueue (.malformed body) }
  | deliver {delivery : ℕ × Payload} {broker : Machine.Broker Payload} (consuming : s.pool.consuming = true)
      (delivered : s.stores.broker.deliver = some (delivery, broker)) :
    Effect s .deliver
      { s.setBroker broker with pool := { s.pool with deliveries := s.pool.deliveries ++ [delivery] } }
  | consume {sent : Bool} {delivery : ℕ × Payload} {deliveries : List (ℕ × Payload)}
      (head : s.pool.deliveries = delivery :: deliveries) :
    Effect s (.consume sent) (s.consume sent delivery deliveries)
  | receive {worker : ℕ} {job : Received} {jobQueue : List Received} (idle : s.pool.workers worker = .idle)
      (head : s.pool.jobQueue = job :: jobQueue) :
    Effect s (.receive worker) { s with pool := { s.pool.setWorker worker (.started job) with jobQueue } }
  | call {worker : ℕ} {call : Call} {stage : Stage} (called : (s.pool.workers worker).call call = some stage) :
    Effect s (.call worker call) { s with pool := s.pool.setWorker worker stage }
  | postExecute {worker : ℕ} {error : Option String} {job : Received} {problemData : ProblemData}
      {results : List Models.Result} (stage : s.pool.workers worker = .executed job problemData results) :
    Effect s (.postExecute worker error) (s.postExecute worker error job problemData results)
  | settle {worker : ℕ} {sent : Bool} {job : Received} {error : Option String} {verdict : Option Verdict}
      (stage : s.pool.workers worker = .returned job error verdict) :
    Effect s (.settle worker sent) (s.settle worker sent job verdict)
  | connectionLost :
    Effect s .connectionLost
      { s.setBroker s.stores.broker.requeue with pool := { s.pool with consuming := false } }
  | exit : Effect s .exit s.exit

variable {s t : System}

theorem effect_beginSubmit {calls : Calls} {userId : String} {body : Option SubmissionRequest}
    (taken : s.step (.beginSubmit calls userId body) = some t) : s.Effect (.beginSubmit calls userId body) t := by
  have spec := SubmissionService.beginSubmit_spec calls userId body s.stores
  rw [step] at taken
  split at taken
  · next fresh =>
    split at taken
    · next response stores begun =>
      rw [begun] at spec
      obtain rfl : stores = s.stores := spec
      obtain rfl := Option.some.inj taken
      exact .rejected begun
    · next message stores begun =>
      rw [begun] at spec
      obtain ⟨newId, req, rfl⟩ : _ ∧ ∃ req, stores = _ := spec
      obtain rfl := Option.some.inj taken
      exact .beginSubmit begun (fresh _ (by rw [newId]; rfl))
  · contradiction

private theorem effect_concludeSubmit {handler : Handler} {outcome : PublishOutcome} {deleteError : Option String}
    (taken : s.step (.concludeSubmit handler outcome deleteError) = some t) :
    s.Effect (.concludeSubmit handler outcome deleteError) t := by
  rw [step] at taken
  split at taken
  · next waiting =>
    have spec := SubmissionService.concludeSubmit_spec outcome deleteError handler.message.submissionId s.stores
    rcases concluded : concludeSubmit (publishSubmission outcome) deleteError handler.message.submissionId s.stores
      with ⟨response, stores⟩
    rw [concluded] at spec taken
    obtain rfl := Option.some.inj taken
    refine .concludeSubmit waiting.1 waiting.2 spec.1 fun id member => ?_
    cases response with
    | accepted subId =>
      rcases List.mem_append.mp member with before | here
      · exact .inl before
      · obtain ⟨rfl, rfl⟩ := spec.2 subId rfl
        exact .inr ⟨List.mem_singleton.mp here, waiting.2.symm⟩
    | error code text => exact .inl member
    | aborted => exact .inl member
  · contradiction

theorem effect_of_step {event : Event} (taken : s.step event = some t) : s.Effect event t := by
  cases event with
  | beginSubmit calls userId body => exact effect_beginSubmit taken
  | take handler =>
    rw [step] at taken
    split at taken
    · next waiting =>
      obtain rfl := Option.some.inj taken
      exact .take waiting.1 waiting.2
    · contradiction
  | concludeSubmit handler outcome deleteError => exact effect_concludeSubmit taken
  | inject body =>
    obtain rfl := Option.some.inj taken
    exact .inject
  | deliver =>
    rw [step] at taken
    split at taken
    · next consuming =>
      obtain ⟨_, delivered, rfl⟩ := Option.map_eq_some_iff.mp taken
      exact .deliver consuming delivered
    · contradiction
  | consume sent =>
    rw [step] at taken
    split at taken
    · contradiction
    · next head =>
      obtain rfl := Option.some.inj taken
      exact .consume head
  | receive worker =>
    rw [step] at taken
    split at taken
    · next idle head =>
      obtain rfl := Option.some.inj taken
      exact .receive idle head
    · contradiction
  | call worker call =>
    obtain ⟨_, called, rfl⟩ := Option.map_eq_some_iff.mp taken
    exact .call called
  | postExecute worker error =>
    rw [step] at taken
    split at taken
    · next stage =>
      obtain rfl := Option.some.inj taken
      exact .postExecute stage
    · contradiction
  | settle worker sent =>
    rw [step] at taken
    split at taken
    · next stage =>
      obtain rfl := Option.some.inj taken
      exact .settle stage
    · contradiction
  | connectionLost =>
    obtain rfl := Option.some.inj taken
    exact .connectionLost
  | exit =>
    obtain rfl := Option.some.inj taken
    exact .exit

end System

/-- The steps that `WorkerCount` leaves: `Qos` bounds the deliveries that are not settled, where 0 is no bound,
and the workers of `StartPool` are numbered from 1. -/
def System.Offered (workerCount : ℕ) (s : System) : Event → Prop
  | .deliver => workerCount = 0 ∨ s.stores.broker.unacked.length < workerCount
  | .receive worker => 1 ≤ worker ∧ worker ≤ workerCount
  | _ => True

def Stage.tag? : Stage → Option ℕ
  | .idle => none
  | .started job => some job.tag
  | .prepared job => some job.tag
  | .loaded job _ => some job.tag
  | .executed job _ _ => some job.tag
  | .returned job _ _ => some job.tag

def Pool.stages (workerCount : ℕ) (pool : Pool) : List Stage := (List.range' 1 workerCount).map pool.workers

/-- The deliveries that the process holds, by their tags. -/
def Pool.heldTags (workerCount : ℕ) (pool : Pool) : List ℕ :=
  pool.deliveries.map Prod.fst ++ pool.jobQueue.map Received.tag ++ (pool.stages workerCount).filterMap Stage.tag?

section Stages

variable {workerCount worker : ℕ} {pool : Pool}

/-- The stage of one worker, and those of the others. -/
theorem Pool.exists_stages_perm (counted : 1 ≤ worker ∧ worker ≤ workerCount) :
    ∃ others, (pool.stages workerCount).Perm (pool.workers worker :: others) ∧
      ∀ stage, ((pool.setWorker worker stage).stages workerCount).Perm (stage :: others) := by
  have member : worker ∈ List.range' 1 workerCount := by
    rw [List.mem_range'_1]
    omega
  have front := List.perm_cons_erase member
  refine ⟨((List.range' 1 workerCount).erase worker).map pool.workers, front.map pool.workers, fun stage => ?_⟩
  refine (front.map _).trans (List.Perm.of_eq ?_)
  rw [List.map_cons, Pool.setWorker]
  dsimp only
  rw [Function.update_self]
  refine congrArg _ (List.map_congr_left fun other rest => Function.update_of_ne ?_ _ _)
  rintro rfl
  exact (List.Nodup.mem_erase_iff (List.nodup_range' 1)).mp rest |>.1 rfl

theorem Pool.heldTags_perm (counted : 1 ≤ worker ∧ worker ≤ workerCount) :
    ∃ others, (pool.heldTags workerCount).Perm ((pool.workers worker).tag?.toList ++ others) ∧
      ∀ stage, ((pool.setWorker worker stage).heldTags workerCount).Perm (stage.tag?.toList ++ others) := by
  obtain ⟨others, before, after⟩ := pool.exists_stages_perm counted
  have split (stages : List Stage) (stage : Stage) (perm : stages.Perm (stage :: others)) :
      (pool.deliveries.map Prod.fst ++ pool.jobQueue.map Received.tag ++ stages.filterMap Stage.tag?).Perm
        (stage.tag?.toList ++
          (pool.deliveries.map Prod.fst ++ pool.jobQueue.map Received.tag ++ others.filterMap Stage.tag?)) := by
    have inner : (stages.filterMap Stage.tag?).Perm (stage.tag?.toList ++ others.filterMap Stage.tag?) := by
      refine (perm.filterMap _).trans (List.Perm.of_eq ?_)
      cases tag : stage.tag? with
      | none => rw [List.filterMap_cons_none tag, Option.toList_none, List.nil_append]
      | some tag => rw [List.filterMap_cons_some tag, Option.toList_some, List.singleton_append]
    refine (inner.append_left _).trans ?_
    rw [← List.append_assoc, ← List.append_assoc stage.tag?.toList]
    exact List.perm_append_comm.append_right _
  exact ⟨_, split _ _ before, fun stage => split _ _ (after stage)⟩

end Stages

end JudgeSelf.Engine
