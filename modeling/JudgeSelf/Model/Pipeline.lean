import JudgeSelf.Model.Engine.Pool
import JudgeSelf.Model.Leaderboard.Consumer

/-! # From a submission to the live board

The engine with the verdicts queue and its consumer in the leaderboard service. `PostExecute` stores a
verdict and publishes it afterwards, so that the process may end in between. The messages of the queue are
handled in any order; a handling that is interrupted after the script leaves its message in the queue.
-/

namespace JudgeSelf

open Engine (System Event PostExecution Verdict)
open LeaderboardService (QueueMessage Delivery Redis UserContestMetadata handleDeliveries)

structure Pipeline where
  engine : System
  /-- What a worker in `PostExecute` has stored and not yet published. -/
  outbox : ℕ → Option QueueMessage
  /-- The verdicts queue. -/
  verdicts : List QueueMessage
  /-- The deliveries that the leaderboard service has handled, in order. -/
  handled : List Delivery

inductive PipelineEvent
  | engine (event : Event)
  /-- `PublishSubmissionResult`; its error is not looked at. -/
  | publish (worker : ℕ) (taken : Bool)
  | handle (delivery : Delivery)

/-- What `PostExecute` comes to, for a worker with results. -/
def Engine.System.postExecution? (s : System) : Event → Option (ℕ × PostExecution)
  | .postExecute worker error =>
    match s.pool.workers worker with
    | .executed job problemData results =>
      (Engine.postExecute (fun _ => error) ⟨job.data, problemData⟩ results).map (worker, ·)
    | _ => none
  | _ => none

/-- The verdict that a step of the engine stores. -/
def Engine.System.stored? (s : System) (event : Event) : Option Verdict :=
  (s.postExecution? event).bind fun (_, ended) => if ended.error = none then some ended.verdict else none

/-- All that is recorded of a submission. -/
def LeaderboardService.UserContestMetadata.statusesOf (metadata : UserContestMetadata) (submissionId : String) :
    List String :=
  (metadata.submissions.filter fun sub => sub.submissionId = submissionId).map (·.status)

namespace Pipeline

def start : Pipeline := ⟨.start, fun _ => none, [], []⟩

/-- Redis, empty at the start. -/
def redis (s : Pipeline) : Redis := handleDeliveries s.handled

/-- A worker that has stored a verdict publishes it next, unless the process ends. -/
def outboxAfter (s : Pipeline) (event : Event) (after : System) (worker : ℕ) : Option QueueMessage :=
  match after.pool.workers worker with
  | .returned _ _ _ =>
    match s.engine.postExecution? event with
    | some (here, ended) => if worker = here then ended.published else s.outbox worker
    | none => s.outbox worker
  | _ => none

/-- A worker settles its delivery after `PostExecute`. -/
def early (s : Pipeline) : Event → Bool
  | .settle worker _ => (s.outbox worker).isSome
  | _ => false

def step (s : Pipeline) : PipelineEvent → Option Pipeline
  | .engine event =>
    if s.early event then none
    else (s.engine.step event).map fun engine => { s with engine, outbox := s.outboxAfter event engine }
  | .publish worker taken =>
    (s.outbox worker).map fun verdict =>
      { s with
        outbox := Function.update s.outbox worker none
        verdicts := if taken then s.verdicts ++ [verdict] else s.verdicts }
  | .handle delivery =>
    if delivery.verdict ∈ s.verdicts then
      some { s with
        verdicts := if delivery.crashed then s.verdicts else s.verdicts.erase delivery.verdict
        handled := s.handled ++ [delivery] }
    else none

/-- What the live metadata of a user records of a submission. -/
def liveStatuses (s : Pipeline) (contestId userId submissionId : String) : List String :=
  ((s.redis.metadata contestId userId).map (·.statusesOf submissionId)).getD []

/-- Both queues are empty, and no worker has a job. -/
structure Quiescent (s : Pipeline) : Prop where
  ready : s.engine.stores.broker.ready = []
  unacked : s.engine.stores.broker.unacked = []
  deliveries : s.engine.pool.deliveries = []
  jobQueue : s.engine.pool.jobQueue = []
  workers : ∀ worker, s.engine.pool.workers worker = .idle
  verdicts : s.verdicts = []

end Pipeline

end JudgeSelf
