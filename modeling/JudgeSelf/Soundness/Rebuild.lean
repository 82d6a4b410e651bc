import JudgeSelf.Model.Leaderboard.Board
import JudgeSelf.Soundness.LiveIndependence

/-! # Recalculations from any state

A recalculation deletes the entry of its user and replays the user's rows, each of which overwrites
the score in the sorted set. No command removes the member itself: without rows to replay a user who
was on the board stays there, without an entry.
-/

namespace JudgeSelf.LeaderboardService

/-- The calls of `processLiveVerdict` that a recalculation makes for the rows of its query. -/
def replayRated (database : Database) (contestId userId : String) (redis : Redis) : Redis :=
  (database.ratedSubmissionsOf contestId userId).foldl
    (fun redis sub => processLiveVerdict redis (sub.verdict contestId userId)) redis

/-- What a recalculation that runs alone is to leave of its user, whatever it finds. -/
structure RebuildsFromScratch (stores : Stores) (contestId userId : String) : Prop where
  rebuilt : ∀ blank : Redis, blank.ownState (contestId, userId) = (none, none) →
    (recalculateLiveUserScore stores contestId userId).redis.ownState (contestId, userId) =
      (replayRated stores.database contestId userId blank).ownState (contestId, userId)
  onBoard : ((recalculateLiveUserScore stores contestId userId).redis.score? contestId userId).isSome ↔
    stores.database.ratedOf contestId userId ≠ []
  stable : recalculateLiveUserScore (recalculateLiveUserScore stores contestId userId) contestId userId =
    recalculateLiveUserScore stores contestId userId

/-- Two states of Redis that differ at most in the entry and the score of a user of a contest. -/
structure Redis.SameElsewhere (contestId userId : String) (redis redis' : Redis) : Prop where
  hashes : ∀ key field, ¬ (key = getContestMetadataKey contestId ∧ field = userId) →
    redis.hashes key field = redis'.hashes key field
  zsets : ∀ key, key ≠ getContestLeaderboardKey contestId → redis.zsets key = redis'.zsets key
  scores : ∀ other, other ≠ userId → redis.score? contestId other = redis'.score? contestId other

variable {redis redis' redis'' : Redis} {c u : String}

namespace Redis.SameElsewhere

theorem refl (redis : Redis) : redis.SameElsewhere c u redis :=
  ⟨fun _ _ _ => rfl, fun _ _ => rfl, fun _ _ => rfl⟩

theorem symm (same : redis.SameElsewhere c u redis') : redis'.SameElsewhere c u redis :=
  ⟨fun key field apart => (same.hashes key field apart).symm, fun key apart => (same.zsets key apart).symm,
    fun other apart => (same.scores other apart).symm⟩

theorem trans (first : redis.SameElsewhere c u redis') (second : redis'.SameElsewhere c u redis'') :
    redis.SameElsewhere c u redis'' where
  hashes key field apart := (first.hashes key field apart).trans (second.hashes key field apart)
  zsets key apart := (first.zsets key apart).trans (second.zsets key apart)
  scores other apart := (first.scores other apart).trans (second.scores other apart)

/-- With the same state of the user too, they are equal. -/
theorem eq (same : redis.SameElsewhere c u redis') (own : redis.ownState (c, u) = redis'.ownState (c, u)) :
    redis = redis' := by
  have hashes : redis.hashes = redis'.hashes := by
    funext key field
    by_cases here : key = getContestMetadataKey c ∧ field = u
    · obtain ⟨rfl, rfl⟩ := here
      exact congrArg Prod.fst own
    · exact same.hashes key field here
  have zsets : redis.zsets = redis'.zsets := by
    funext key
    by_cases here : key = getContestLeaderboardKey c
    · subst here
      apply SortedSet.ext_of_mem
      rintro ⟨member, score⟩
      have scores : redis.score? c member = redis'.score? c member := by
        by_cases mine : member = u
        · subst mine
          exact congrArg Prod.snd own
        · exact same.scores member mine
      rw [← SortedSet.score?_eq_some_iff, ← SortedSet.score?_eq_some_iff]
      exact Eq.congr_left scores
    · exact same.zsets key here
  exact congrArg₂ Redis.mk hashes zsets

theorem hDel (redis : Redis) (c u : String) :
    redis.SameElsewhere c u (redis.hDel (getContestMetadataKey c) u) where
  hashes key field apart := by rw [Redis.hashes_hDel, if_neg apart]
  zsets _ _ := rfl
  scores _ _ := rfl

theorem processLiveVerdict (redis : Redis) {verdict : QueueMessage} (concerned : verdict.owner = (c, u)) :
    redis.SameElsewhere c u (processLiveVerdict redis verdict) := by
  obtain ⟨rfl, rfl⟩ := Prod.mk.inj concerned
  refine ⟨fun key field apart => ?_, fun key apart => ?_, fun other apart => ?_⟩
  · rw [hashes_processLiveVerdict, if_neg apart]
  · rw [zsets_processLiveVerdict, if_neg apart]
  · rw [score?_processLiveVerdict, if_neg fun same => apart same.2]

private theorem replayRated (redis : Redis) (database : Database) (c u : String) :
    redis.SameElsewhere c u (replayRated database c u redis) := by
  rw [LeaderboardService.replayRated]
  induction database.ratedSubmissionsOf c u generalizing redis with
  | nil => exact refl redis
  | cons row rest ih =>
    have first : redis.SameElsewhere c u (LeaderboardService.processLiveVerdict redis (row.verdict c u)) :=
      processLiveVerdict redis rfl
    exact first.trans (ih _)

end Redis.SameElsewhere

/-- The state of a user whose verdicts are handled from no entry. -/
def replayedState (score : Option ℤ) (verdicts : List QueueMessage) : Option UserContestMetadata × Option ℤ :=
  verdicts.foldl (fun own verdict =>
    let entry := (own.1.getD .initial).absorb verdict
    (some entry, some (computeUserScores entry).score)) (none, score)

/-- From the first verdict on, the score that was there before does not matter. -/
theorem replayedState_eq {verdicts : List QueueMessage} (rows : verdicts ≠ []) (score score' : Option ℤ) :
    replayedState score verdicts = replayedState score' verdicts := by
  obtain ⟨verdict, rest, rfl⟩ := List.exists_cons_of_ne_nil rows
  rfl

private theorem isSome_replayedState {verdicts : List QueueMessage} (rows : verdicts ≠ []) (score : Option ℤ) :
    (replayedState score verdicts).2.isSome := by
  obtain ⟨front, verdict, rfl⟩ := (List.eq_nil_or_concat verdicts).resolve_left rows
  rw [replayedState, List.concat_eq_append, List.foldl_concat]
  rfl

/-- A replay leaves its user the state of the replayed rows. -/
theorem ownState_replayRated (database : Database) (absent : redis.metadata c u = none) :
    (replayRated database c u redis).ownState (c, u) = replayedState (redis.score? c u)
      ((database.ratedSubmissionsOf c u).map fun sub => sub.verdict c u) := by
  have run := keyed_processLiveVerdict.read_foldl redis
    ((database.ratedSubmissionsOf c u).map fun sub => sub.verdict c u) (c, u)
  have all : ((database.ratedSubmissionsOf c u).map fun sub => sub.verdict c u).filter
      (fun verdict => verdict.owner = (c, u)) = (database.ratedSubmissionsOf c u).map fun sub => sub.verdict c u := by
    rw [List.filter_eq_self]
    intro verdict member
    obtain ⟨row, _, rfl⟩ := List.mem_map.mp member
    exact decide_eq_true rfl
  have start : redis.ownState (c, u) = (none, redis.score? c u) := Prod.ext absent rfl
  rw [all, start, List.foldl_map] at run
  exact run

/-- A recalculation leaves its user the state of the replayed rows, over the score that it finds. -/
theorem ownState_recalculateLiveUserScore (stores : Stores) (c u : String) :
    (recalculateLiveUserScore stores c u).redis.ownState (c, u) = replayedState (stores.redis.score? c u)
      ((stores.database.ratedSubmissionsOf c u).map fun sub => sub.verdict c u) := by
  have absent : (stores.redis.hDel (getContestMetadataKey c) u).metadata c u = none := by
    rw [metadata_hDel, if_pos ⟨rfl, rfl⟩]
  exact ownState_replayRated stores.database absent

private theorem sameElsewhere_recalculateLiveUserScore (stores : Stores) (c u : String) :
    stores.redis.SameElsewhere c u (recalculateLiveUserScore stores c u).redis :=
  (Redis.SameElsewhere.hDel stores.redis c u).trans (.replayRated _ stores.database c u)

/-- A second recalculation finds the score that the first one has left, and leaves it. -/
theorem recalculateLiveUserScore_twice (stores : Stores) (c u : String) :
    recalculateLiveUserScore (recalculateLiveUserScore stores c u) c u = recalculateLiveUserScore stores c u := by
  have own : (recalculateLiveUserScore (recalculateLiveUserScore stores c u) c u).redis.ownState (c, u) =
      (recalculateLiveUserScore stores c u).redis.ownState (c, u) := by
    have again := ownState_recalculateLiveUserScore (recalculateLiveUserScore stores c u) c u
    have first := ownState_recalculateLiveUserScore stores c u
    by_cases noRows : (stores.database.ratedSubmissionsOf c u).map (fun sub => sub.verdict c u) = []
    · rw [noRows] at first
      have left : (recalculateLiveUserScore stores c u).redis.score? c u = stores.redis.score? c u :=
        congrArg Prod.snd first
      rw [again, ownState_recalculateLiveUserScore stores c u, left]
      rfl
    · rw [again, first]
      exact replayedState_eq noRows _ _
  have same := (sameElsewhere_recalculateLiveUserScore (recalculateLiveUserScore stores c u) c u).symm.eq own
  exact congrArg (Stores.mk · stores.database) same

/-- A recalculation rebuilds its user from scratch exactly if it has rows to replay or the user was
not on the board. -/
theorem recalculation_rebuilds_iff (stores : Stores) (c u : String) : RebuildsFromScratch stores c u ↔
    stores.redis.score? c u = none ∨ stores.database.ratedOf c u ≠ [] := by
  have after := ownState_recalculateLiveUserScore stores c u
  have rows : (stores.database.ratedSubmissionsOf c u).map (fun sub => sub.verdict c u) = [] ↔
      stores.database.ratedOf c u = [] := by
    rw [List.map_eq_nil_iff, Database.ratedSubmissionsOf_eq_nil_iff]
  have score : (recalculateLiveUserScore stores c u).redis.score? c u =
      (replayedState (stores.redis.score? c u)
        ((stores.database.ratedSubmissionsOf c u).map fun sub => sub.verdict c u)).2 := congrArg Prod.snd after
  by_cases noRows : stores.database.ratedOf c u = []
  · rw [rows.mpr noRows] at score after
    have left : (recalculateLiveUserScore stores c u).redis.score? c u = stores.redis.score? c u := score
    constructor
    · intro rebuilds
      have unranked := rebuilds.onBoard.not.mpr (not_not.mpr noRows)
      rw [left, Option.not_isSome_iff_eq_none] at unranked
      exact .inl unranked
    · intro condition
      have unranked := condition.resolve_right (not_not.mpr noRows)
      refine ⟨fun blank empty => ?_, ?_, recalculateLiveUserScore_twice stores c u⟩
      · have absent : blank.metadata c u = none := congrArg Prod.fst empty
        have noScore : blank.score? c u = none := congrArg Prod.snd empty
        rw [after, ownState_replayRated stores.database absent, rows.mpr noRows, unranked, noScore]
      · rw [left, unranked]
        exact iff_of_false Bool.false_ne_true (not_not.mpr noRows)
  · refine iff_of_true ⟨fun blank empty => ?_, ?_, recalculateLiveUserScore_twice stores c u⟩ (.inr noRows)
    · have absent : blank.metadata c u = none := congrArg Prod.fst empty
      rw [after, ownState_replayRated stores.database absent]
      exact replayedState_eq (rows.not.mpr noRows) _ _
    · rw [score]
      exact iff_of_true (isSome_replayedState (rows.not.mpr noRows) _) noRows

/-- Two users are on the board; the row of one of them is gone. -/
def withdrawnRow : Stores where
  redis := processLiveVerdict (processLiveVerdict Redis.empty ⟨"31", "8", "u", "r", "AC", 60⟩)
    ⟨"32", "8", "v", "r", "AC", 120⟩
  database :=
    { contests := [⟨"8", 0, 3600000000, false⟩]
      problems := [⟨"r", "8"⟩]
      submissions := [⟨32, "r", "v", "RATED", "AC", 120000000⟩]
      contestResults := [] }

/-- The recalculation leaves the member in the sorted set, and its first page cannot be read any more. -/
theorem withdrawn_user_stays_on_board :
    withdrawnRow.database.ratedOf "8" "u" = [] ∧
      (recalculateLiveUserScore withdrawnRow "8" "u").redis.ownState ("8", "u") = (none, some 9999940) ∧
      getLeaderboardPage (recalculateLiveUserScore withdrawnRow "8" "u") "8" 1 50 = .error {} ∧
      ¬ RebuildsFromScratch withdrawnRow "8" "u" := by
  refine ⟨by decide +kernel, by decide +kernel, by decide +kernel, fun rebuilds => ?_⟩
  exact absurd (rebuilds.onBoard.mp (by decide +kernel)) (not_not.mpr (by decide +kernel))

end JudgeSelf.LeaderboardService
