import JudgeSelf.Machine.Publish
import JudgeSelf.Model.Leaderboard.Board

/-! # Concurrent handlers of the leaderboard service

The calls of `processLiveVerdict` and `recalculateLiveUserScore` that are in progress, in any number
of instances of the service, next to the engine storing and publishing final statuses. One step is
one command on Redis or Postgres. The counters `evals` and `written` only observe: a script call is
stamped with its number, and `written` is one more than the stamp of the last `zAdd` for a user.
-/

namespace JudgeSelf.LeaderboardService

/-- What a handler does next. -/
inductive Handler
  /-- The script for the first of the verdicts; without verdicts, return. -/
  | process (pending : List QueueMessage)
  /-- The `zAdd` for the reply of the script. -/
  | zAdd (contestId userId : String) (metadata : UserContestMetadata) (stamp : ℕ) (pending : List QueueMessage)
  /-- The `hDel` of a recalculation. -/
  | hDel (contestId userId : String)
  /-- The query of a recalculation. -/
  | select (contestId userId : String)
deriving DecidableEq

structure Service where
  redis : Redis
  database : Database
  /-- Verdicts stored in Postgres and not yet published. -/
  unpublished : List QueueMessage
  /-- The verdicts queue. -/
  queue : List QueueMessage
  handlers : List Handler
  evals : ℕ
  written : String × String → ℕ

inductive Action
  | submit (sub : Submission)
  | store (id : ℕ) (status : String) (relativeSubmittedAt : ℤ)
  | publish (verdict : QueueMessage)
  | deliver (verdict : QueueMessage)
  | call (verdict : QueueMessage)
  | recalculate (contestId userId : String)
  | advance (handler : Handler)

/-- A row inserted by the submission service. -/
def Database.insertSubmission (db : Database) (sub : Submission) (fresh : sub.id ∉ db.submissions.map Submission.id) :
    Database :=
  { db with
    submissions := db.submissions ++ [sub]
    submissionIds := by
      rw [List.map_append, List.map_singleton, ← List.concat_eq_append, List.nodup_concat]
      exact ⟨fresh, db.submissionIds⟩ }

/-- The final status stored by the engine. -/
def Database.updateStatus (db : Database) (id : ℕ) (status : String) : Database :=
  { db with
    submissions := db.submissions.map fun sub => if sub.id = id then { sub with status } else sub
    submissionIds := by
      have ids : (db.submissions.map fun sub => if sub.id = id then { sub with status } else sub).map
          Submission.id = db.submissions.map Submission.id := by
        rw [List.map_map]
        exact List.map_congr_left fun sub _ => by simp only [Function.comp]; split <;> rfl
      exact ids ▸ db.submissionIds }

/-- The verdict the engine publishes for a RATED row of a problem. -/
def Submission.verdict (sub : Submission) (problem : Problem) (status : String) (relativeSubmittedAt : ℤ) :
    QueueMessage where
  submissionId := toString sub.id
  contestId := problem.contestId
  userId := sub.userId
  problemId := problem.id
  status := status
  relativeSubmittedAt := relativeSubmittedAt

namespace Service

/-- The next command of a handler, the other handlers being `rest`. -/
def advance (s : Service) (rest : List Handler) : Handler → Service
  | .process [] => { s with handlers := rest }
  | .process (verdict :: pending) =>
    let (metadata, redis) := evalVerdict s.redis verdict
    { s with
      redis
      handlers := .zAdd verdict.contestId verdict.userId metadata s.evals pending :: rest
      evals := s.evals + 1 }
  | .zAdd contestId userId metadata stamp pending =>
    { s with
      redis := addScore s.redis contestId userId metadata
      handlers := .process pending :: rest
      written := Function.update s.written (contestId, userId) (stamp + 1) }
  | .hDel contestId userId =>
    { s with
      redis := s.redis.hDel (getContestMetadataKey contestId) userId
      handlers := .select contestId userId :: rest }
  | .select contestId userId =>
    { s with handlers := .process ((s.database.ratedSubmissionsOf contestId userId).map fun sub =>
        sub.verdict contestId userId) :: rest }

/-- The status of a row in 'QUEUE' becomes final, and a RATED row owes its verdict. -/
def storeStatus (s : Service) (id : ℕ) (status : String) (relativeSubmittedAt : ℤ) : Option Service := do
  let sub ← s.database.submissions.find? fun sub => sub.id = id
  let problem ← s.database.problems.find? fun problem => problem.id = sub.problemId
  if sub.status = "QUEUE" ∧ status ≠ "QUEUE" then
    some { s with
      database := s.database.updateStatus id status
      unpublished := s.unpublished ++
        if sub.type = "RATED" then [sub.verdict problem status relativeSubmittedAt] else [] }
  else none

def step (s : Service) : Action → Option Service
  | .submit sub =>
    if fresh : sub.id ∉ s.database.submissions.map Submission.id ∧ sub.status = "QUEUE" then
      some { s with database := s.database.insertSubmission sub fresh.1 }
    else none
  | .store id status relativeSubmittedAt => s.storeStatus id status relativeSubmittedAt
  | .publish verdict =>
    if verdict ∈ s.unpublished then
      some { s with unpublished := s.unpublished.erase verdict, queue := s.queue ++ [verdict] }
    else none
  | .deliver verdict =>
    if verdict ∈ s.queue then
      some { s with queue := s.queue.erase verdict, handlers := .process [verdict] :: s.handlers }
    else none
  | .call verdict => some { s with handlers := .process [verdict] :: s.handlers }
  | .recalculate contestId userId => some { s with handlers := .hDel contestId userId :: s.handlers }
  | .advance handler =>
    if handler ∈ s.handlers then some (s.advance (s.handlers.erase handler) handler) else none

end Service

/-- The verdicts a handler has still to process. -/
def Handler.pending : Handler → List QueueMessage
  | .process pending => pending
  | .zAdd _ _ _ _ pending => pending
  | .hDel _ _ => []
  | .select _ _ => []

@[simp] theorem Handler.pending_process (pending : List QueueMessage) : (process pending).pending = pending := rfl

@[simp] theorem Handler.pending_zAdd (c u : String) (metadata : UserContestMetadata) (stamp : ℕ)
    (pending : List QueueMessage) : (zAdd c u metadata stamp pending).pending = pending := rfl

@[simp] theorem Handler.pending_hDel (c u : String) : (hDel c u).pending = [] := rfl

@[simp] theorem Handler.pending_select (c u : String) : (select c u).pending = [] := rfl

/-- The handler is about a user of a contest. -/
def Handler.Concerns (handler : Handler) (contestId userId : String) : Prop :=
  (∃ verdict ∈ handler.pending, verdict.Concerns contestId userId) ∨
    match handler with
    | .process _ => False
    | .zAdd c u _ _ _ => contestId = c ∧ userId = u
    | .hDel c u => contestId = c ∧ userId = u
    | .select c u => contestId = c ∧ userId = u

/-- A `zAdd` is not taken after the `zAdd` of a later script call for the same user. -/
def Service.InOrder (s : Service) : Action → Prop
  | .advance (.zAdd c u _ stamp _) => s.written (c, u) ≤ stamp
  | _ => True

instance (handler : Handler) (c u : String) : Decidable (handler.Concerns c u) :=
  match handler with
  | .process pending => decidable_of_iff (∃ verdict ∈ pending, verdict.Concerns c u) (by
      simp [Handler.Concerns])
  | .zAdd c' u' metadata stamp pending =>
    inferInstanceAs (Decidable ((∃ verdict ∈ pending, verdict.Concerns c u) ∨ (c = c' ∧ u = u')))
  | .hDel c' u' => decidable_of_iff (c = c' ∧ u = u') (by simp [Handler.Concerns])
  | .select c' u' => decidable_of_iff (c = c' ∧ u = u') (by simp [Handler.Concerns])

instance (s : Service) (action : Action) : Decidable (s.InOrder action) :=
  match action with
  | .advance (.zAdd c u _ stamp _) => inferInstanceAs (Decidable (s.written (c, u) ≤ stamp))
  | .advance (.process _) | .advance (.hDel _ _) | .advance (.select _ _) => isTrue trivial
  | .submit _ | .store _ _ _ | .publish _ | .deliver _ | .call _ | .recalculate _ _ => isTrue trivial

/-- A service without handlers, over given stores. -/
def Service.start (redis : Redis) (database : Database) : Service :=
  ⟨redis, database, [], [], [], 0, fun _ => 0⟩

/-- The reply that a handler is going to publish. -/
def Handler.snapshot : Handler → Option (Machine.Publish.Snapshot (String × String) UserContestMetadata)
  | .zAdd c u metadata stamp _ => some ⟨(c, u), metadata, stamp⟩
  | _ => none

/-- Metadata entries as a store, scores as published values of its snapshots. -/
def Service.desk (s : Service) : Machine.Publish.Desk (String × String) UserContestMetadata ℤ where
  store k := s.redis.metadata k.1 k.2
  board k := s.redis.score? k.1 k.2
  pending := s.handlers.filterMap Handler.snapshot
  stamps := s.evals
  published := s.written

/-- Taking a handler out of the list takes its snapshot out of the outstanding ones. -/
private theorem pending_of_perm {s : Service} {handler : Handler} {rest : List Handler}
    (perm : s.handlers.Perm (handler :: rest)) :
    s.desk.pending = ((handler :: rest).filterMap Handler.snapshot : List _) :=
  Multiset.coe_eq_coe.mpr (perm.filterMap _)

open Machine.Publish in
private theorem desk_eval {s : Service} {verdict : QueueMessage} {pending : List QueueMessage}
    {rest : List Handler} (perm : s.handlers.Perm (.process (verdict :: pending) :: rest)) :
    (s.advance rest (.process (verdict :: pending))).desk =
      s.desk.update (verdict.contestId, verdict.userId) (evalVerdict s.redis verdict).1 := by
  ext1
  · funext k
    simp only [Service.advance, Service.desk, Desk.update, metadata_evalVerdict, Function.update_apply]
    rw [evalVerdict_reply ⟨rfl, rfl⟩]
    by_cases here : k = (verdict.contestId, verdict.userId)
    · simp [here, QueueMessage.Concerns]
    · have elsewhere : ¬ verdict.Concerns k.1 k.2 := fun both => here (Prod.ext both.1 both.2)
      simp [here, elsewhere]
  · funext k
    exact score?_evalVerdict s.redis verdict k.1 k.2
  · rw [Desk.update, pending_of_perm perm]
    rfl
  · rfl
  · rfl

open Machine.Publish in
private theorem desk_zAdd {s : Service} {c u : String} {metadata : UserContestMetadata} {stamp : ℕ}
    {pending : List QueueMessage} {rest : List Handler}
    (perm : s.handlers.Perm (.zAdd c u metadata stamp pending :: rest)) :
    Step (fun m => (computeUserScores m).score) s.desk (.publish ⟨(c, u), metadata, stamp⟩)
      (s.advance rest (.zAdd c u metadata stamp pending)).desk := by
  have published : (s.advance rest (.zAdd c u metadata stamp pending)).desk =
      s.desk.publish (fun m => (computeUserScores m).score) ⟨(c, u), metadata, stamp⟩
        (rest.filterMap Handler.snapshot : List _) := by
    ext1
    · rfl
    · funext k
      simp only [Service.advance, Service.desk, Desk.publish, score?_addScore, Function.update_apply,
        Prod.ext_iff]
    · rfl
    · rfl
    · rfl
  rw [published]
  exact .publish (pending_of_perm perm)

open Machine.Publish in
private theorem desk_hDel {s : Service} {c u : String} {rest : List Handler}
    (perm : s.handlers.Perm (.hDel c u :: rest)) :
    (s.advance rest (.hDel c u)).desk = s.desk.forget (c, u) := by
  ext1
  · funext k
    simp only [Service.advance, Service.desk, Desk.forget, metadata_hDel, Function.update_apply, Prod.ext_iff]
  · rfl
  · rw [Desk.forget, pending_of_perm perm]
    rfl
  · rfl
  · rfl

/-- Only commands of handlers touch Redis and the desk. -/
theorem kept_of_not_advance {s t : Service} {action : Action} (taken : s.step action = some t)
    (other : ∀ handler, action ≠ .advance handler) : t.redis = s.redis ∧ t.desk = s.desk := by
  cases action with
  | submit sub =>
    rw [Service.step] at taken
    split at taken
    · obtain rfl := Option.some.inj taken
      exact ⟨rfl, rfl⟩
    · contradiction
  | store id status time =>
    rw [Service.step, Service.storeStatus] at taken
    simp only [bind, Option.bind_eq_some_iff] at taken
    obtain ⟨sub, _, problem, _, taken⟩ := taken
    split at taken
    · obtain rfl := Option.some.inj taken
      exact ⟨rfl, rfl⟩
    · contradiction
  | publish verdict | deliver verdict =>
    rw [Service.step] at taken
    split at taken
    · obtain rfl := Option.some.inj taken
      exact ⟨rfl, rfl⟩
    · contradiction
  | call verdict | recalculate c u =>
    obtain rfl := Option.some.inj taken
    exact ⟨rfl, rfl⟩
  | advance handler => exact absurd rfl (other handler)

open Machine.Publish in
/-- Each step of the service is at most one action on the desk, in order if the step is. -/
theorem desk_step {s t : Service} {action : Action} (taken : s.step action = some t)
    (ordered : s.InOrder action) :
    ∃ actions, Machine.Run (Machine.Guarded (Step fun m => (computeUserScores m).score) InOrder)
      s.desk actions t.desk := by
  cases action with
  | advance handler =>
    rw [Service.step] at taken
    split at taken
    · next member =>
      obtain rfl := Option.some.inj taken
      have perm := List.perm_cons_erase member
      match handler, ordered with
      | .process [], _ =>
        refine ⟨[], Desk.ext rfl rfl ?_ rfl rfl⟩
        exact (pending_of_perm perm).symm
      | .process (verdict :: pending), _ =>
        rw [desk_eval perm]
        exact ⟨[.update _ _], .single ⟨trivial, .update _ _ _⟩⟩
      | .zAdd c u metadata stamp pending, ordered =>
        exact ⟨[.publish ⟨(c, u), metadata, stamp⟩], .single ⟨ordered, desk_zAdd perm⟩⟩
      | .hDel c u, _ =>
        rw [desk_hDel perm]
        exact ⟨[.forget _], .single ⟨trivial, .forget _ _⟩⟩
      | .select c u, _ =>
        refine ⟨[], Desk.ext rfl rfl ?_ rfl rfl⟩
        exact (pending_of_perm perm).symm
    · contradiction
  | _ => exact ⟨[], (kept_of_not_advance taken (by simp)).2.symm ▸ .nil _⟩

/-- The score of a user is that of the latest reply, unless a handler is still to write it. -/
def Service.Settled (s : Service) : Prop :=
  Machine.Publish.Settled (fun metadata => (computeUserScores metadata).score) s.desk

theorem Service.Settled.step {s t : Service} {action : Action} (settled : s.Settled)
    (taken : s.step action = some t) (ordered : s.InOrder action) : t.Settled := by
  obtain ⟨_, onDesk⟩ := desk_step taken ordered
  exact Machine.Publish.Settled.run settled onDesk

/-- The desk stays settled along runs whose commands are in order. -/
theorem settled_of_run {s t : Service} {actions : List Action} (settled : s.Settled)
    (run : Machine.Run (Machine.Guarded (Machine.Steps Service.step) Service.InOrder) s actions t) :
    t.Settled := by
  have preserved : ∀ s action t, Service.Settled s →
      Machine.Guarded (Machine.Steps Service.step) Service.InOrder s action t → Service.Settled t :=
    fun _ _ _ settled ⟨ordered, taken⟩ => settled.step taken ordered
  exact run.invariant preserved settled

/-- Where no handler is about the user, the score is that of the stored entry. -/
theorem Service.Settled.score_of_idle {s : Service} (settled : s.Settled) {c u : String}
    (returned : ∀ handler ∈ s.handlers, ¬ handler.Concerns c u) {metadata : UserContestMetadata}
    (stored : s.redis.metadata c u = some metadata) :
    s.redis.score? c u = some (computeUserScores metadata).score := by
  apply @Machine.Publish.Settled.published_of_idle _ _ _ _ _ settled (c, u) _ stored
  intro p member
  obtain ⟨handler, present, snapshot⟩ := List.mem_filterMap.mp (Multiset.mem_coe.mp member)
  intro same
  cases handler with
  | zAdd c' u' reply stamp pending =>
    obtain rfl := Option.some.inj snapshot
    obtain ⟨rfl, rfl⟩ := Prod.mk.inj same
    exact returned _ present (.inr ⟨rfl, rfl⟩)
  | _ => contradiction

theorem settled_start {redis : Redis} {database : Database}
    (consistent : ∀ c u metadata, redis.metadata c u = some metadata →
      redis.score? c u = some (computeUserScores metadata).score) :
    (Service.start redis database).Settled :=
  .of_idle rfl (fun _ => Nat.zero_le _) fun k _ => consistent k.1 k.2 _

end JudgeSelf.LeaderboardService
