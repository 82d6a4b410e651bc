import JudgeSelf.Model.Engine.CacheSteps
import JudgeSelf.Model.Engine.Pool

/-! # The pool beside the archive cache

The workers of the pool go through the archive cache in `PreExecute` and in `CompileCheckerCode`, and wait there for
its locks. `PreExecute` and `ExecuteWorker` return when the cache has answered. What the cache is asked for in the
database, and the lock of that part, is left out: a problem is found or not.
-/

namespace JudgeSelf.Engine

structure CachedSystem where
  system : System
  cache : CacheSystem

inductive CachedEvent
  /-- Where the process ends, `survives` tells which files `initCleanup` leaves behind. -/
  | pool (event : Event) (survives : String → String → Bool)
  | cache (event : CacheEvent)

/-- The process ends with the step: it exits, or it panics without results or without a verdict. -/
def System.ends (s : System) : Event → Bool
  | .exit => true
  | .postExecute worker error =>
    match s.pool.workers worker with
    | .executed job problemData results =>
      (Engine.postExecute (fun _ => error) ⟨job.data, problemData⟩ results).isNone
    | _ => false
  | .settle worker _ =>
    match s.pool.workers worker with
    | .returned _ _ verdict => verdict.isNone
    | _ => false
  | _ => false

namespace CachedSystem

def start : CachedSystem := ⟨.start, .start⟩

/-- The cache after a step of the pool. A call returns what the cache has answered: `PreExecute` fails without the
problem's row or archive, and `ExecuteWorker` has the result of `CompileCheckerCode`. -/
def answer (archives : String → ℤ → Directory) (s : CachedSystem) : Event → Option CacheSystem
  | .call worker (.preExecute (.ok problemData)) =>
    match s.cache.workers worker with
    | .loaded problem => if problem.data = problemData then some s.cache else none
    | _ => none
  | .call worker (.preExecute (.error _)) =>
    match s.cache.workers worker with
    | .idle => some s.cache
    | .loading .preExecute _ .download => s.cache.step archives (.downloadFailed worker)
    | _ => none
  | .call worker (.executeWorker env w) =>
    match s.system.pool.workers worker, s.cache.workers worker with
    | .loaded job problemData, .returned bin =>
      if (compileCheckerCode env ⟨job.data, problemData⟩ w).1 = bin then s.cache.step archives (.finish worker)
      else none
    | _, _ => none
  | _ => some s.cache

/-- The steps that the cache takes while a call is under way. After a failed download `CompileCheckerCode` panics,
which is an `exit` of the pool. -/
def Asks (s : CachedSystem) : CacheEvent → Prop
  | .preExecute worker problem => ∃ job, s.system.pool.workers worker = .prepared job ∧
      problem.data.problemId = job.data.problemId
  | .compileCheckerCode worker => ∃ job problemData, s.system.pool.workers worker = .loaded job problemData
  | .finish _ | .downloadFailed _ | .exit _ => False
  | _ => True

instance (s : CachedSystem) (event : CacheEvent) : Decidable (s.Asks event) :=
  match event with
  | .preExecute worker problem =>
    match at_ : s.system.pool.workers worker with
    | .prepared job => decidable_of_iff (problem.data.problemId = job.data.problemId) (by simp [Asks, at_])
    | .idle | .started _ | .loaded _ _ | .executed _ _ _ | .returned _ _ _ => isFalse (by simp [Asks, at_])
  | .compileCheckerCode worker =>
    match at_ : s.system.pool.workers worker with
    | .loaded job problemData => isTrue ⟨job, problemData, at_⟩
    | .idle | .started _ | .prepared _ | .executed _ _ _ | .returned _ _ _ => isFalse (by simp [Asks, at_])
  | .finish _ | .downloadFailed _ | .exit _ => isFalse id
  | .advance _ | .write _ _ _ | .downloaded _ | .compile _ _ _ | .cleanStart | .cleanLock _ | .cleanRemove _
  | .cleanEnd => isTrue trivial

def step (archives : String → ℤ → Directory) (s : CachedSystem) : CachedEvent → Option CachedSystem
  | .pool event survives => do
    let cache ← s.answer archives event
    let system ← s.system.step event
    some ⟨system, if s.system.ends event then cache.exit survives else cache⟩
  | .cache event => if s.Asks event then (s.cache.step archives event).map fun cache => { s with cache } else none

end CachedSystem

/-- The step of the pool, if it is one. -/
def CachedEvent.event? : CachedEvent → Option Event
  | .pool event _ => some event
  | .cache _ => none

end JudgeSelf.Engine
