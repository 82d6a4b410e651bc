import JudgeSelf.Model.Leaderboard.Handlers
import JudgeSelf.Model.Leaderboard.Recorded

/-! # Lost updates on the live board

Only the script is atomic; the `zAdd` that follows it writes a score computed from the reply. A
`zAdd` that comes after the `zAdd` of a later script call for the same user leaves a stale score.
In every run without such a step the board agrees with the metadata wherever no call is in progress.
-/

namespace JudgeSelf.LeaderboardService

/-- The actions of calls of `processLiveVerdict`. -/
def Action.IsCall : Action → Prop
  | .call _ => True
  | .advance _ => True
  | _ => False

instance (action : Action) : Decidable action.IsCall :=
  match action with
  | .call _ | .advance _ => isTrue trivial
  | .submit _ | .store _ _ _ | .publish _ | .deliver _ | .recalculate _ _ => isFalse id

/-- Without recalculations no entry is ever removed, so that only users with an entry get a score. -/
structure Unforgotten (s : Service) : Prop where
  calls : ∀ handler ∈ s.handlers, ∀ c u, handler ≠ .hDel c u ∧ handler ≠ .select c u
  replied : ∀ handler ∈ s.handlers, ∀ p, handler.snapshot = some p → s.redis.metadata p.key.1 p.key.2 ≠ none
  scored : ∀ c u, s.redis.metadata c u = none → s.redis.score? c u = none

/-- A handler joins the others without removing an entry or deleting one later. -/
private theorem Unforgotten.join {s t : Service} {handler : Handler} {rest : List Handler}
    (kept : Unforgotten s) (others : ∀ h ∈ rest, h ∈ s.handlers) (joined : t.handlers = handler :: rest)
    (call : ∀ c u, handler ≠ .hDel c u ∧ handler ≠ .select c u)
    (replied : ∀ p, handler.snapshot = some p → t.redis.metadata p.key.1 p.key.2 ≠ none)
    (grown : ∀ c u, s.redis.metadata c u ≠ none → t.redis.metadata c u ≠ none)
    (scored : ∀ c u, t.redis.metadata c u = none → t.redis.score? c u = none) : Unforgotten t := by
  refine ⟨?_, ?_, scored⟩
  · intro h present c u
    rw [joined] at present
    rcases List.mem_cons.mp present with rfl | present
    · exact call c u
    · exact kept.calls h (others h present) c u
  · intro h present p snapshot
    rw [joined] at present
    rcases List.mem_cons.mp present with rfl | present
    · exact replied p snapshot
    · exact grown _ _ (kept.replied h (others h present) p snapshot)

private theorem Unforgotten.advance {s : Service} {handler : Handler} {rest : List Handler}
    (kept : Unforgotten s) (member : handler ∈ s.handlers) (others : ∀ h ∈ rest, h ∈ s.handlers) :
    Unforgotten (s.advance rest handler) := by
  match handler with
  | .process [] =>
    exact ⟨fun h present => kept.calls h (others h present),
      fun h present => kept.replied h (others h present), kept.scored⟩
  | .process (verdict :: pending) =>
    have joined : (s.advance rest (.process (verdict :: pending))).handlers =
        .zAdd verdict.contestId verdict.userId (evalVerdict s.redis verdict).1 s.evals pending :: rest := rfl
    have grown : ∀ c u, s.redis.metadata c u ≠ none → (evalVerdict s.redis verdict).2.metadata c u ≠ none := by
      intro c u stored
      rw [metadata_evalVerdict]
      split
      · exact Option.some_ne_none _
      · exact stored
    apply kept.join others joined
    · exact fun c u => ⟨nofun, nofun⟩
    · intro p snapshot
      obtain rfl := Option.some.inj snapshot
      change (evalVerdict s.redis verdict).2.metadata verdict.contestId verdict.userId ≠ none
      rw [metadata_evalVerdict, if_pos ⟨rfl, rfl⟩]
      exact Option.some_ne_none _
    · exact grown
    · intro c u absent
      change (evalVerdict s.redis verdict).2.score? c u = none
      rw [score?_evalVerdict]
      by_contra shown
      exact grown c u (fun none => shown (kept.scored c u none)) absent
  | .zAdd c u metadata stamp pending =>
    have joined : (s.advance rest (.zAdd c u metadata stamp pending)).handlers = .process pending :: rest := rfl
    have stored : s.redis.metadata c u ≠ none := kept.replied _ member ⟨(c, u), metadata, stamp⟩ rfl
    apply kept.join others joined
    · exact fun c u => ⟨nofun, nofun⟩
    · exact nofun
    · exact fun c u present => present
    · intro c' u' absent
      change (addScore s.redis c u metadata).score? c' u' = none
      rw [score?_addScore, if_neg]
      · exact kept.scored c' u' absent
      · rintro ⟨rfl, rfl⟩
        exact stored absent
  | .hDel c u => exact absurd rfl (kept.calls _ member c u).1
  | .select c u => exact absurd rfl (kept.calls _ member c u).2

private theorem Unforgotten.step {s t : Service} {action : Action} (kept : Unforgotten s)
    (call : action.IsCall) (taken : s.step action = some t) : Unforgotten t := by
  cases action with
  | call verdict =>
    obtain rfl := Option.some.inj taken
    apply kept.join (fun _ present => present) rfl
    · exact fun c u => ⟨nofun, nofun⟩
    · exact nofun
    · exact fun c u present => present
    · exact kept.scored
  | advance handler =>
    rw [Service.step] at taken
    split at taken
    · next member =>
      obtain rfl := Option.some.inj taken
      exact kept.advance member fun h => List.mem_of_mem_erase
    · contradiction
  | _ => exact absurd call id

private theorem unforgotten_of_run {s t : Service} {actions : List Action} (kept : Unforgotten s)
    (calls : ∀ action ∈ actions, action.IsCall) {allowed : Service → Action → Prop}
    (run : Machine.Run (Machine.Guarded (Machine.Steps Service.step) allowed) s actions t) :
    Unforgotten t := by
  have preserved : ∀ s action t, Unforgotten s →
      Machine.Guarded (Machine.Guarded (Machine.Steps Service.step) allowed)
        (fun _ action => action.IsCall) s action t → Unforgotten t :=
    fun _ _ _ kept ⟨call, _, taken⟩ => kept.step call taken
  exact (run.guard_labels calls).invariant preserved kept

/-- In every run of concurrent calls without an overtaken `zAdd`, the score of a user of whom no
call is in progress is that of the stored entry. -/
theorem no_lost_update {redis : Redis} {database : Database}
    (consistent : ∀ c u, redis.score? c u =
      (redis.metadata c u).map fun metadata => (computeUserScores metadata).score)
    {actions : List Action} (calls : ∀ action ∈ actions, action.IsCall) {final : Service}
    (run : Machine.Run (Machine.Guarded (Machine.Steps Service.step) Service.InOrder)
      (.start redis database) actions final)
    {c u : String} (returned : ∀ handler ∈ final.handlers, ¬ handler.Concerns c u) :
    final.redis.score? c u =
      (final.redis.metadata c u).map fun metadata => (computeUserScores metadata).score := by
  have settled : final.Settled := by
    have start : (Service.start redis database).Settled := by
      apply settled_start
      intro c u metadata stored
      rw [consistent, stored, Option.map_some]
    exact settled_of_run start run
  have unforgotten : Unforgotten (.start redis database) := by
    refine ⟨nofun, nofun, fun c u absent => ?_⟩
    change redis.metadata c u = none at absent
    exact (consistent c u).trans (by rw [absent, Option.map_none])
  have kept := unforgotten_of_run unforgotten calls run
  cases stored : final.redis.metadata c u with
  | none => exact kept.scored c u stored
  | some metadata => exact settled.score_of_idle returned stored

/-- Two verdicts on different problems of one user. -/
def firstVerdict : QueueMessage := ⟨"1", "c", "u", "p", "AC", 60⟩

def secondVerdict : QueueMessage := ⟨"2", "c", "u", "q", "AC", 120⟩

/-- Both script calls, then the two `zAdd` commands in either order. -/
def concurrentCalls (overtaken : Bool) : List Action :=
  let firstScore := .advance (.zAdd "c" "u" (.ofVerdicts [firstVerdict]) 0 [])
  let secondScore := .advance (.zAdd "c" "u" (.ofVerdicts [firstVerdict, secondVerdict]) 1 [])
  [.call firstVerdict, .call secondVerdict, .advance (.process [firstVerdict]), .advance (.process [secondVerdict])] ++
    (if overtaken then [secondScore, firstScore] else [firstScore, secondScore]) ++
    [.advance (.process []), .advance (.process [])]

/-- A service over empty stores. -/
def Service.empty : Service :=
  .start Redis.empty
    { contests := []
      problems := []
      submissions := []
      contestResults := []
      problemIds := List.nodup_nil
      submissionIds := List.nodup_nil }

/-- With the two `zAdd` commands in the order of the script calls the score is up to date. -/
theorem concurrentCalls_in_order : ∃ final,
    (concurrentCalls false).foldlM (Machine.guardedStep Service.step Service.InOrder) .empty = some final ∧
      final.redis.score? "c" "u" =
        (final.redis.metadata "c" "u").map fun metadata => (computeUserScores metadata).score := by
  have idle : ((concurrentCalls false).foldlM
      (Machine.guardedStep Service.step Service.InOrder) .empty).map Service.handlers = some [] := by
    decide +kernel
  obtain ⟨final, executed, returned⟩ := Option.map_eq_some_iff.mp idle
  exact ⟨final, executed, no_lost_update (fun _ _ => rfl) (by decide) (.of_foldlM_guarded executed)
    (by simp [returned])⟩

/-- Two calls have returned, both verdicts are recorded, and the score misses the second one. -/
theorem overtaken_zAdd_loses_update :
    (∀ action ∈ concurrentCalls true, action.IsCall) ∧
      ((concurrentCalls true).foldlM Service.step .empty).map (fun final =>
        (final.handlers, final.redis.score? "c" "u",
          (final.redis.metadata "c" "u").map fun metadata => (computeUserScores metadata).score)) =
        some ([], some 9999940, some 19999820) := by
  decide +kernel

end JudgeSelf.LeaderboardService
