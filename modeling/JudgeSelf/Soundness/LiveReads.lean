import JudgeSelf.Model.Leaderboard.LiveBoard

/-! # Reads of a live board

A page of the live board is served if the members of the sorted set have their entries. The script
only adds entries, and `unlink` removes entries and members together. The `hDel` of a recalculation
removes the entry alone, and a `zAdd` that comes behind an `hDel` or an `unlink` adds the member alone.
-/

namespace JudgeSelf.LeaderboardService

/-- No page of the contest makes the request throw. -/
def Redis.Served (redis : Redis) (contestId : String) : Prop :=
  ∀ page pageSize, ∃ reply, getLeaderboardPageFromRedis redis contestId page pageSize = .ok reply

/-- The action takes no entry from a member, and adds no member without an entry. -/
def LiveSystem.KeepsEntries (contestId : String) (s : LiveSystem) : LiveAction → Prop
  | .service (.advance (.hDel c u)) => c = contestId → s.redis.score? c u = none
  | .service (.advance (.zAdd c u _ _ _)) => c = contestId → (s.redis.metadata c u).isSome
  | _ => True

instance (c : String) (s : LiveSystem) (action : LiveAction) : Decidable (s.KeepsEntries c action) :=
  match action with
  | .service (.advance (.hDel c' u)) => inferInstanceAs (Decidable (c' = c → s.redis.score? c' u = none))
  | .service (.advance (.zAdd c' u _ _ _)) => inferInstanceAs (Decidable (c' = c → (s.redis.metadata c' u).isSome))
  | .service (.advance (.process _)) | .service (.advance (.select _ _)) => isTrue trivial
  | .service (.submit _) | .service (.store _ _ _) | .service (.publish _) | .service (.deliver _)
  | .service (.call _) | .service (.recalculate _ _) => isTrue trivial
  | .throwHandler _ | .freeze _ | .advanceFreeze _ | .throwFreeze _ => isTrue trivial

variable {redis : Redis} {c : String}

/-- The pages are served exactly if every member has an entry. -/
theorem served_iff_readable : redis.Served c ↔ redis.Readable c := by
  constructor
  · intro served
    rw [readable_iff]
    intro u ranked
    by_contra absent
    have missing := Option.not_isSome_iff_eq_none.mp absent
    have member := mem_members.mpr ranked
    have some : 0 < (redis.members c).length := List.length_pos_of_mem member
    have whole : (redis.members c).indexRange ((1 - 1) * (redis.members c).length)
        ((1 - 1) * (redis.members c).length + (redis.members c).length - 1) = redis.members c := by
      have range := List.indexRange_of_nonneg (redis.members c) 0 some
      rw [List.drop_zero, List.take_length] at range
      simpa using range
    obtain ⟨reply, read⟩ := served 1 (redis.members c).length
    exact getLeaderboardPageFromRedis_ne_ok (whole.symm ▸ member) missing reply read
  · intro readable page pageSize
    exact ⟨_, getLeaderboardPageFromRedis_of_readable readable page pageSize⟩

private theorem readable_evalVerdict (readable : redis.Readable c) (verdict : QueueMessage) :
    (evalVerdict redis verdict).2.Readable c := by
  rw [readable_iff] at readable ⊢
  intro u ranked
  rw [score?_evalVerdict] at ranked
  rw [metadata_evalVerdict]
  split
  · rfl
  · exact readable u ranked

private theorem readable_addScore (readable : redis.Readable c) (c' u : String) (metadata : UserContestMetadata) :
    (addScore redis c' u metadata).Readable c ↔ (c' = c → (redis.metadata c' u).isSome) := by
  rw [readable_iff] at readable ⊢
  simp only [score?_addScore, metadata_addScore]
  constructor
  · rintro after rfl
    exact after u (by rw [if_pos ⟨rfl, rfl⟩]; rfl)
  · intro present other ranked
    split at ranked
    · next here => exact here.2 ▸ here.1 ▸ present here.1.symm
    · exact readable other ranked

private theorem readable_hDel (readable : redis.Readable c) (c' u : String) :
    (redis.hDel (getContestMetadataKey c') u).Readable c ↔ (c' = c → redis.score? c' u = none) := by
  have scores (other : String) : (redis.hDel (getContestMetadataKey c') u).score? c other = redis.score? c other := rfl
  rw [readable_iff] at readable ⊢
  simp only [scores, metadata_hDel]
  constructor
  · rintro after rfl
    by_contra ranked
    have entry := after u (Option.isSome_iff_ne_none.mpr ranked)
    rw [if_pos ⟨rfl, rfl⟩] at entry
    contradiction
  · intro unranked other ranked
    rw [if_neg]
    · exact readable other ranked
    · rintro ⟨rfl, rfl⟩
      rw [unranked rfl] at ranked
      contradiction

private theorem readable_unlink (readable : redis.Readable c) (c' : String) :
    (redis.unlink [getContestMetadataKey c', getContestLeaderboardKey c']).Readable c := by
  intro user member
  by_cases same : c = c'
  · subst same
    have none : (redis.unlink [getContestMetadataKey c, getContestLeaderboardKey c]).NoBoard c :=
      noBoard_unlink redis (by simp)
    rw [none] at member
    contradiction
  · have board : getContestLeaderboardKey c ∉ [getContestMetadataKey c', getContestLeaderboardKey c'] := by
      simp [(metadataKey_ne_leaderboardKey c' c).symm, getContestLeaderboardKey_inj, same]
    have entry : getContestMetadataKey c ∉ [getContestMetadataKey c', getContestLeaderboardKey c'] := by
      simp [metadataKey_ne_leaderboardKey c c', getContestMetadataKey_inj, same]
    simp only [Redis.unlink, if_neg board] at member
    simp only [Redis.metadata, Redis.hGet, Redis.unlink, if_neg entry]
    exact readable user member

/-- A step keeps the board readable exactly if it keeps the entries. -/
theorem readable_step_iff (c : String) {s t : LiveSystem} {action : LiveAction} (readable : s.redis.Readable c)
    (taken : s.step action = some t) : t.redis.Readable c ↔ s.KeepsEntries c action := by
  rw [redis_step taken]
  cases action with
  | service action =>
    cases action with
    | advance handler =>
      cases handler with
      | process pending =>
        cases pending with
        | nil => exact iff_of_true readable trivial
        | cons verdict rest => exact iff_of_true (readable_evalVerdict readable verdict) trivial
      | zAdd c' u metadata stamp pending => exact readable_addScore readable c' u metadata
      | hDel c' u => exact readable_hDel readable c' u
      | select c' u => exact iff_of_true readable trivial
    | _ => exact iff_of_true readable trivial
  | advanceFreeze stage =>
    cases stage with
    | unlinking c' => exact iff_of_true (readable_unlink readable c') trivial
    | selecting | writing => exact iff_of_true readable trivial
  | throwHandler | freeze | throwFreeze => exact iff_of_true readable trivial

/-- From a readable board, all pages are served in every state of a run exactly if every step of the
run keeps the entries. -/
theorem live_reads_never_fail_iff {s t : LiveSystem} {actions : List LiveAction} {c : String}
    (readable : s.redis.Readable c) (run : Machine.Run (Machine.Steps LiveSystem.step) s actions t) :
    (∀ done mid, done <+: actions → Machine.Run (Machine.Steps LiveSystem.step) s done mid →
        mid.redis.Readable c ∧ mid.redis.Served c) ↔
      Machine.Run (Machine.Guarded (Machine.Steps LiveSystem.step) (LiveSystem.KeepsEntries c)) s actions t := by
  simp only [served_iff_readable, and_self]
  exact Machine.Run.always_iff_guarded (fun s action t => readable_step_iff c) readable run

/-- A running contest with one accepted submission. -/
def oneAccepted : Database where
  contests := [⟨"10", 0, 3600000000, false⟩]
  problems := [⟨"x", "10"⟩]
  submissions := [⟨51, "x", "u", "RATED", "AC", 60000000⟩]
  contestResults := []

def verdictOfAccepted : QueueMessage := ⟨"51", "10", "u", "x", "AC", 60⟩

/-- The verdict is handled. -/
def handledOnce : List LiveAction :=
  [.service (.call verdictOfAccepted), .service (.advance (.process [verdictOfAccepted])),
    .service (.advance (.zAdd "10" "u" (.ofVerdicts [verdictOfAccepted]) 0 [])), .service (.advance (.process []))]

/-- The contest is frozen. -/
def frozenOnce : List LiveAction :=
  [.freeze "10", .advanceFreeze (.selecting "10"),
    .advanceFreeze (.writing "10" [⟨51, "u", "x", "AC", 60⟩]), .advanceFreeze (.unlinking "10")]

/-- A recalculation of the user has deleted the entry when its query throws. -/
def queryFailed : List LiveAction :=
  [.service (.recalculate "10" "u"), .service (.advance (.hDel "10" "u")), .throwHandler (.select "10" "u")]

/-- Handling the verdict and freezing the contest, one after the other, never get in the way of a reader. -/
theorem frozen_after_handling_served : ∃ final,
    (handledOnce ++ frozenOnce).foldlM (Machine.guardedStep LiveSystem.step (LiveSystem.KeepsEntries "10"))
      (.start Redis.empty oneAccepted) = some final ∧
    ∀ done mid, done <+: handledOnce ++ frozenOnce →
      Machine.Run (Machine.Steps LiveSystem.step) (.start Redis.empty oneAccepted) done mid →
        mid.redis.Readable "10" ∧ mid.redis.Served "10" := by
  have ended : ((handledOnce ++ frozenOnce).foldlM (Machine.guardedStep LiveSystem.step
      (LiveSystem.KeepsEntries "10")) (.start Redis.empty oneAccepted)).isSome := by
    decide +kernel
  obtain ⟨final, executed⟩ := Option.isSome_iff_exists.mp ended
  have guarded := Machine.Run.of_foldlM_guarded executed
  exact ⟨final, executed, (live_reads_never_fail_iff (by decide) (guarded.mono fun _ _ _ => And.right)).mpr guarded⟩

/-- Once the query has thrown, the first page of the contest fails for everybody. -/
theorem query_failed_page_throws : ∃ final,
    Machine.Run (Machine.Steps LiveSystem.step) (.start Redis.empty oneAccepted) (handledOnce ++ queryFailed) final ∧
      ¬ final.redis.Readable "10" ∧ getLeaderboardPageFromRedis final.redis "10" 1 50 = .error {} := by
  have ended : ((handledOnce ++ queryFailed).foldlM LiveSystem.step (.start Redis.empty oneAccepted)).map
      (fun final => getLeaderboardPageFromRedis final.redis "10" 1 50) = some (.error {}) := by
    decide +kernel
  obtain ⟨final, executed, throws⟩ := Option.map_eq_some_iff.mp ended
  refine ⟨final, .of_foldlM executed, fun readable => ?_, throws⟩
  obtain ⟨reply, read⟩ := served_iff_readable.mpr readable 1 50
  rw [throws] at read
  contradiction

end JudgeSelf.LeaderboardService
