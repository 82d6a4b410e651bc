import JudgeSelf.Machine.Run
import JudgeSelf.Model.Engine.CleanCache
import JudgeSelf.Model.Engine.Package

/-! # The database cache over a clock

Calls of `DbCache.GetOrLoad`, changes of the table of problems and runs of `cleanCache`, over a clock in
nanoseconds. A call waits for the lock and for the database; what it does between two waits is one step,
at the time that it reads from the clock there. A query sees the table at one moment before its answer.
-/

namespace JudgeSelf.Engine

/-- The columns that `GetProblemData` selects. -/
structure SelectedProblem extends PolygonService.ProblemRow where
  contestId : ℤ
deriving DecidableEq

/-- `GetProblemData` for the row. -/
def SelectedProblem.scan (row : SelectedProblem) : FetchedProblem where
  data := getProblemData row.toProblemRow (toString row.contestId) ""
  problemVersion := row.polygonVersion
  s3Hash := row.problemZipKey

/-- How far a call is. -/
inductive DbStage
  /-- At `RLock`. -/
  | called
  /-- At `Lock`. -/
  | missed
  /-- With the write lock, at the second look. -/
  | locked
  | querying
  /-- The database has read the row, and its answer is under way. -/
  | answered (row : SelectedProblem)
  /-- With the time of the return. -/
  | returned (problemData : FetchedProblem) (time : ℤ)
  | failed
deriving DecidableEq

structure DbCall where
  problemId : String
  stage : DbStage
deriving DecidableEq

/-- Who has the write lock. -/
inductive DbHolder
  | call (i : ℕ)
  | cleaner
deriving DecidableEq

structure DbClock where
  now : ℤ
  /-- The row that a query finds with its parameter. -/
  rows : String → Option SelectedProblem
  mu : Option DbHolder
  store : Record String CachedProblem
  calls : Record ℕ DbCall
  /-- The `now` of a run of `cleanCache`. -/
  cleaning : Option ℤ

inductive DbEvent
  | tick (duration : ℕ)
  | change (rows : String → Option SelectedProblem)
  | call (i : ℕ) (problemId : String)
  /-- The next step of the call itself. -/
  | advance (i : ℕ)
  /-- The database reads the row for the query. -/
  | read (i : ℕ)
  /-- The query fails, also when there is no row. -/
  | fail (i : ℕ)
  | cleanBegin
  | cleanLock
  | clean (order : List (String × CachedProblem))

namespace DbClock

/-- The data in the cache, as long as they have not expired. -/
def cached (s : DbClock) (problemId : String) : Option FetchedProblem :=
  match s.store.get? problemId with
  | some item => if s.now < item.expiresAt then some item.data else none
  | none => none

def setStage (s : DbClock) (i : ℕ) (problemId : String) (stage : DbStage) : DbClock :=
  { s with calls := s.calls.set i ⟨problemId, stage⟩ }

/-- `DbCache.GetOrLoad`, from one wait to the next. -/
def getOrLoad (s : DbClock) (i : ℕ) (problemId : String) : DbStage → Option DbClock
  | .called =>
    if s.mu = none then
      match s.cached problemId with
      | some problemData => some (s.setStage i problemId (.returned problemData s.now))
      | none => some (s.setStage i problemId .missed)
    else none
  | .missed =>
    if s.mu = none then some ({ s with mu := some (.call i) }.setStage i problemId .locked) else none
  | .locked =>
    match s.cached problemId with
    | some problemData => some ({ s with mu := none }.setStage i problemId (.returned problemData s.now))
    | none => some (s.setStage i problemId .querying)
  | .answered row =>
    some ({ s with
      mu := none
      store := s.store.set problemId ⟨row.scan, s.now + cacheTtl⟩ }.setStage i problemId (.returned row.scan s.now))
  | .querying | .returned _ _ | .failed => none

def step (s : DbClock) : DbEvent → Option DbClock
  | .tick duration => some { s with now := s.now + duration }
  | .change rows => some { s with rows }
  | .call i problemId =>
    match s.calls.get? i with
    | some _ => none
    | none => some (s.setStage i problemId .called)
  | .advance i =>
    match s.calls.get? i with
    | some call => s.getOrLoad i call.problemId call.stage
    | none => none
  | .read i =>
    match s.calls.get? i with
    | some ⟨problemId, .querying⟩ => (s.rows problemId).map fun row => s.setStage i problemId (.answered row)
    | _ => none
  | .fail i =>
    match s.calls.get? i with
    | some ⟨problemId, .querying⟩ | some ⟨problemId, .answered _⟩ =>
      some ({ s with mu := none }.setStage i problemId .failed)
    | _ => none
  | .cleanBegin => if s.cleaning = none then some { s with cleaning := some s.now } else none
  | .cleanLock =>
    if s.cleaning.isSome ∧ s.mu = none then some { s with mu := some .cleaner } else none
  | .clean order =>
    match s.cleaning with
    | some now =>
      if s.mu = some .cleaner ∧ order.Perm s.store.entries then
        some { s with mu := none, store := (order.foldl (evict now) (s.store, [])).1, cleaning := none }
      else none
    | none => none

/-- An engine that has just been started. -/
def start (rows : String → Option SelectedProblem) : DbClock where
  now := 0
  rows := rows
  mu := none
  store := Record.empty
  calls := Record.empty
  cleaning := none

end DbClock

end JudgeSelf.Engine
