import JudgeSelf.Machine.Channel
import JudgeSelf.Model.Engine.Pool

/-! # The shutdown of the engine

Model of `main.go`, of the loop of `Consume` and of the loop of `Worker.Start`: the main goroutine,
the consumer and the workers over one context and one `JobQueue`. A step is one channel operation, one
choice of a `select`, or one cancellation. A `select` takes any of its cases that is ready, so that
the consumer may take a delivery after the cancellation. Jobs run in one step that may come at any
time; their panics and the settling of deliveries are not part of this machine.
-/

namespace JudgeSelf.Engine.Shutdown

open SubmissionService (Payload)

/-- Where `main` is after it has started the other goroutines. -/
inductive Main
  /-- `<-ctx.Done()` is next. -/
  | awaiting
  /-- `close(engine.JobQueue)` is next. -/
  | woken
  /-- `engine.Wg.Wait()` is next. -/
  | waiting
  | returned
deriving DecidableEq, Repr

inductive Consumer
  /-- `c.ch.Consume` is next. -/
  | subscribing
  | selecting
  /-- `decode` is next. -/
  | decoding (body : Payload)
  /-- `jobQueue <- job` is next. -/
  | sending (job : SubmissionData)
  | returned

inductive Worker
  | selecting
  | running (job : SubmissionData)
  | returned

/-- The process; workers are numbered from 0 and `workerCount` of them are started. -/
structure Process where
  workerCount : ℕ
  cancelled : Bool
  jobQueue : Machine.Channel SubmissionData
  deliveries : Machine.Channel Payload
  main : Main
  consumer : Consumer
  workers : ℕ → Worker
  /-- Some goroutine has sent on the closed `JobQueue`. -/
  panicked : Bool

inductive Event
  /-- SIGINT or SIGTERM. -/
  | signal
  /-- The connection hands over a delivery, or closes the channel of deliveries. -/
  | arrive (body : Payload)
  | disconnect
  | subscribe (error : Option String)
  /-- The two cases of the consumer's `select`. -/
  | consumerDone
  | consumerTake
  | decode
  | send
  /-- A worker that waits at its `select` takes the job from the consumer's send. -/
  | handOver (worker : ℕ)
  | wake
  | close
  | finish
  /-- The two cases of a worker's `select`. -/
  | workerDone (worker : ℕ)
  | workerTake (worker : ℕ)
  | complete (worker : ℕ)

namespace Process

/-- After `StartPool`, with the consumer started. At most `prefetch` deliveries wait for the consumer. -/
def start (workerCount prefetch : ℕ) : Process where
  workerCount := workerCount
  cancelled := false
  jobQueue := .make workerCount
  deliveries := .make prefetch
  main := .awaiting
  consumer := .subscribing
  workers worker := if worker < workerCount then .selecting else .returned
  panicked := false

def setWorker (s : Process) (worker : ℕ) (stage : Worker) : Process :=
  { s with workers := Function.update s.workers worker stage }

/-- `Consume` has returned; its error cancels the context. -/
def consumerReturns (s : Process) (error : Bool) : Process :=
  { s with consumer := .returned, cancelled := s.cancelled || error }

/-- A step while the process lives. -/
def advance (s : Process) : Event → Option Process
  | .signal => some { s with cancelled := true }
  | .arrive body =>
    match s.deliveries.send body with
    | .sent deliveries => some { s with deliveries }
    | _ => none
  | .disconnect => s.deliveries.close.map fun deliveries => { s with deliveries }
  | .subscribe error =>
    match s.consumer with
    | .subscribing => some (if error.isSome then s.consumerReturns true else { s with consumer := .selecting })
    | _ => none
  | .consumerDone =>
    match s.consumer with
    | .selecting => if s.cancelled then some (s.consumerReturns true) else none
    | _ => none
  | .consumerTake =>
    match s.consumer, s.deliveries.receive with
    | .selecting, some (some body, deliveries) => some { s with deliveries, consumer := .decoding body }
    | .selecting, some (none, _) => some (s.consumerReturns false)
    | _, _ => none
  | .decode =>
    match s.consumer with
    | .decoding body => some { s with consumer := (Engine.decode body).elim .selecting .sending }
    | _ => none
  | .send =>
    match s.consumer with
    | .sending job =>
      match s.jobQueue.send job with
      | .panics => some { s with panicked := true }
      | .blocked => none
      | .sent jobQueue => some { s with jobQueue, consumer := .selecting }
    | _ => none
  | .handOver worker =>
    match s.consumer, s.workers worker with
    | .sending job, .selecting =>
      if s.jobQueue.closed = false ∧ s.jobQueue.buffer = [] then
        some { s.setWorker worker (.running job) with consumer := .selecting }
      else none
    | _, _ => none
  | .wake =>
    match s.main with
    | .awaiting => if s.cancelled then some { s with main := .woken } else none
    | _ => none
  | .close =>
    match s.main with
    | .woken => s.jobQueue.close.map fun jobQueue => { s with jobQueue, main := .waiting }
    | _ => none
  | .finish =>
    match s.main with
    | .waiting =>
      if ∀ worker < s.workerCount, s.workers worker matches .returned then some { s with main := .returned } else none
    | _ => none
  | .workerDone worker =>
    match s.workers worker with
    | .selecting => if s.cancelled then some (s.setWorker worker .returned) else none
    | _ => none
  | .workerTake worker =>
    match s.workers worker, s.jobQueue.receive with
    | .selecting, some (some job, jobQueue) => some { s.setWorker worker (.running job) with jobQueue }
    | .selecting, some (none, _) => some (s.setWorker worker .returned)
    | _, _ => none
  | .complete worker =>
    match s.workers worker with
    | .running _ => some (s.setWorker worker .selecting)
    | _ => none

/-- The process ends when `main` returns or a goroutine panics. -/
def step (s : Process) (event : Event) : Option Process :=
  if s.panicked ∨ s.main = .returned then none else s.advance event

end Process

end JudgeSelf.Engine.Shutdown
