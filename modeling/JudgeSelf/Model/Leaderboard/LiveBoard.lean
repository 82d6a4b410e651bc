import JudgeSelf.Model.Leaderboard.Handlers
import JudgeSelf.Model.Leaderboard.Sweep

/-! # Handlers next to freezes

The handlers of verdicts and recalculations together with freezes of contests, in any number. One
step is one command on Redis, or the statements of a freeze from one transaction boundary to the
next. A handler and a freeze may throw in front of each of their commands; one that throws when its
command has been executed, but the reply is lost, throws in front of the next.
-/

namespace JudgeSelf.LeaderboardService

/-- Where a freeze is. -/
inductive FreezeStage
  | selecting (contestId : String)
  /-- The submissions are read; the other statements up to the commit are next. -/
  | writing (contestId : String) (rows : List SubmissionRow)
  | unlinking (contestId : String)
deriving DecidableEq

structure LiveSystem where
  service : Service
  freezes : List FreezeStage

inductive LiveAction
  | service (action : Action)
  /-- The next command of a handler throws, which ends the handler. -/
  | throwHandler (handler : Handler)
  | freeze (contestId : String)
  | advanceFreeze (stage : FreezeStage)
  | throwFreeze (stage : FreezeStage)

namespace LiveSystem

def redis (s : LiveSystem) : Redis := s.service.redis

/-- The next statements of a freeze, the other freezes being `rest`. -/
def advanceFreeze (s : LiveSystem) (rest : List FreezeStage) : FreezeStage → LiveSystem
  | .selecting contestId =>
    { s with freezes := .writing contestId (s.service.database.ratedSubmissions contestId) :: rest }
  | .writing contestId rows =>
    { s with
      service := { s.service with database := s.service.database.commitFreeze contestId rows }
      freezes := .unlinking contestId :: rest }
  | .unlinking contestId =>
    { s with
      service := { s.service with
        redis := s.service.redis.unlink [getContestMetadataKey contestId, getContestLeaderboardKey contestId] }
      freezes := rest }

def step (s : LiveSystem) : LiveAction → Option LiveSystem
  | .service action => (s.service.step action).map fun service => { s with service }
  | .throwHandler handler =>
    if handler ∈ s.service.handlers then
      some { s with service := { s.service with handlers := s.service.handlers.erase handler } }
    else none
  | .freeze contestId => some { s with freezes := .selecting contestId :: s.freezes }
  | .advanceFreeze stage =>
    if stage ∈ s.freezes then some (s.advanceFreeze (s.freezes.erase stage) stage) else none
  | .throwFreeze stage =>
    if stage ∈ s.freezes then some { s with freezes := s.freezes.erase stage } else none

/-- No handler and no freeze, over given stores. -/
def start (redis : Redis) (database : Database) : LiveSystem := ⟨.start redis database, []⟩

end LiveSystem

/-- The command on Redis that an action is, if it is one. -/
def LiveAction.effect (redis : Redis) : LiveAction → Redis
  | .service (.advance (.process (verdict :: _))) => (evalVerdict redis verdict).2
  | .service (.advance (.zAdd contestId userId metadata _ _)) => addScore redis contestId userId metadata
  | .service (.advance (.hDel contestId userId)) => redis.hDel (getContestMetadataKey contestId) userId
  | .advanceFreeze (.unlinking contestId) =>
    redis.unlink [getContestMetadataKey contestId, getContestLeaderboardKey contestId]
  | _ => redis

/-- A step changes Redis by its command. -/
theorem redis_step {s t : LiveSystem} {action : LiveAction} (taken : s.step action = some t) :
    t.redis = action.effect s.redis := by
  cases action with
  | service action =>
    obtain ⟨service, took, rfl⟩ := Option.map_eq_some_iff.mp taken
    cases action with
    | advance handler =>
      rw [Service.step] at took
      split at took
      · obtain rfl := Option.some.inj took
        cases handler with
        | process pending => cases pending <;> rfl
        | zAdd | hDel | select => rfl
      · contradiction
    | _ => exact (kept_of_not_advance took (by simp)).1
  | throwHandler handler | throwFreeze stage =>
    rw [LiveSystem.step] at taken
    split at taken
    · obtain rfl := Option.some.inj taken
      rfl
    · contradiction
  | freeze c =>
    obtain rfl := Option.some.inj taken
    rfl
  | advanceFreeze stage =>
    rw [LiveSystem.step] at taken
    split at taken
    · obtain rfl := Option.some.inj taken
      cases stage <;> rfl
    · contradiction

end JudgeSelf.LeaderboardService
