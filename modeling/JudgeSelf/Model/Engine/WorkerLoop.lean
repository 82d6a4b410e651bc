import JudgeSelf.Machine.Run
import JudgeSelf.Model.Engine.Worker
import Mathlib.Logic.Function.Basic

/-! # The loop of a worker

Model of `Start` and `RunWorker` for one worker, with what every call of a job comes to. The fields of
a job are filled in stage by stage; a field that is read before ends the process. The cache items are
shared with the other workers, which may change them at any time. Errors of `Ack`, of `Nack` and of
publishing are dropped by the source.
-/

namespace JudgeSelf.Engine

/-- What keeps the loop from its next round: a panic, or a lock that is never given back. -/
inductive Halt
  | nilVerdict
  | nilCacheItem
  | negativeTestCount
  | emptyResults
  | lockHeld
deriving DecidableEq, Repr

inductive Settlement
  | ack
  | nack
deriving DecidableEq, Repr

/-- A cached problem; `held` tells that a worker has returned with the write lock. -/
structure CheckerItem where
  compiledBin : Option String
  held : Bool
deriving DecidableEq, Repr

/-- `models.Job`, as far as `RunWorker` has filled it in. -/
structure RunningJob where
  submissionData : SubmissionData
  problemData : Option ProblemData
  verdict : Option Verdict

/-- A delivery with what the calls of its job come to. -/
structure Delivery where
  tag : ℕ
  submissionData : SubmissionData
  mkdirAll : Option String
  preExecute : Except String ProblemData
  /-- `S3Cache.GetOrLoad` in `CompileCheckerCode`, which drops the error. -/
  cacheItem : Except String ℕ
  env : Environment
  world : World
  updateSubmission : Option String

namespace Delivery

/-- The world of `ExecuteWorker`, with the checker that the item has cached. -/
def worldWith (delivery : Delivery) (item : CheckerItem) : World :=
  { delivery.world with compiledBin := item.compiledBin }

/-- `ExecuteWorker`: its results, and the items after it. A checker that does not compile leaves its
item locked. -/
def executeWorker (delivery : Delivery) (problemData : ProblemData) (items : ℕ → CheckerItem) :
    Except Halt (List Models.Result × (ℕ → CheckerItem)) :=
  match delivery.cacheItem with
  | .error _ => .error .nilCacheItem
  | .ok cacheItem =>
    let item := items cacheItem
    if item.held then .error .lockHeld
    else
      let job : Job := ⟨delivery.submissionData, problemData⟩
      let (checkerBin, _, _) := compileCheckerCode delivery.env job (delivery.worldWith item)
      match returnedResults delivery.env job (delivery.worldWith item) with
      | none => .error .negativeTestCount
      | some results => .ok (results, Function.update items cacheItem ⟨checkerBin, checkerBin.isNone⟩)

/-- `RunWorker`: its error, the job after it and the items after it. -/
def runWorker (delivery : Delivery) (items : ℕ → CheckerItem) :
    Except Halt (Option String × RunningJob × (ℕ → CheckerItem)) :=
  let job : RunningJob := ⟨delivery.submissionData, none, none⟩
  match delivery.mkdirAll with
  | some err => .ok (some ("Failed to create localDir directory: " ++ err), job, items)
  | none =>
    match delivery.preExecute with
    | .error err => .ok (some ("Failed to get or load problem data: " ++ err), job, items)
    | .ok problemData => do
      let job := { job with problemData := some problemData }
      let (results, items) ← delivery.executeWorker problemData items
      match postExecute (fun _ => delivery.updateSubmission) ⟨delivery.submissionData, problemData⟩ results with
      | none => .error .emptyResults
      | some after => .ok (after.error, { job with verdict := some after.verdict }, items)

end Delivery

/-- The arguments of the log line at the end of a round. -/
def RunningJob.logVerdict (job : RunningJob) : Except Halt (ℤ × ℤ × String × String) :=
  match job.verdict with
  | none => .error .nilVerdict
  | some verdict =>
    match verdict.results.getLast? with
    | none => .error .emptyResults
    | some last => .ok (verdict.memory, verdict.time, verdict.status, last.message)

/-- A worker between two rounds. `returned` has the error of every `RunWorker` that has returned. -/
structure WorkerLoop where
  items : ℕ → CheckerItem
  received : List ℕ
  returned : List (ℕ × Option String)
  settlements : List (ℕ × Settlement)
  halted : Option Halt

inductive LoopEvent
  | round (delivery : Delivery)
  /-- Another worker changes an item. A lock that it has left held stays so. -/
  | others (cacheItem : ℕ) (item : CheckerItem)

namespace WorkerLoop

def start : WorkerLoop := ⟨fun _ => ⟨none, false⟩, [], [], [], none⟩

/-- How `Start` settles a job whose `RunWorker` has returned with the error. -/
def settlement (err : Option String) : Settlement := if err ≠ none then .nack else .ack

/-- A round of the loop. -/
def round (s : WorkerLoop) (delivery : Delivery) : WorkerLoop :=
  let s := { s with received := s.received ++ [delivery.tag] }
  match delivery.runWorker s.items with
  | .error halt => { s with halted := some halt }
  | .ok (err, job, items) =>
    let s := { s with
      items
      returned := s.returned ++ [(delivery.tag, err)]
      settlements := s.settlements ++ [(delivery.tag, settlement err)] }
    match job.logVerdict with
    | .error halt => { s with halted := some halt }
    | .ok _ => s

def step (s : WorkerLoop) (event : LoopEvent) : Option WorkerLoop :=
  if s.halted = none then
    match event with
    | .round delivery => some (s.round delivery)
    | .others cacheItem item =>
      if (s.items cacheItem).held ∧ item.held = false then none
      else some { s with items := Function.update s.items cacheItem item }
  else none

end WorkerLoop

end JudgeSelf.Engine
