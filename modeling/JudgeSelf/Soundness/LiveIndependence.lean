import JudgeSelf.Machine.Keyed
import JudgeSelf.Model.Leaderboard.Redis

/-! # Independence of users and contests on the live board

A verdict changes the metadata entry and the score of one user of one contest, and computes both
from that entry. Hence a run leaves each user of each contest as the run over the own verdicts of
that user does, and verdicts of different users or contests commute, on the whole of Redis.
-/

namespace JudgeSelf.LeaderboardService

/-- The contest and the user of a verdict. -/
def QueueMessage.owner (verdict : QueueMessage) : String × String := (verdict.contestId, verdict.userId)

/-- The entry and the score of a user of a contest. -/
def Redis.ownState (redis : Redis) (owner : String × String) : Option UserContestMetadata × Option ℤ :=
  (redis.metadata owner.1 owner.2, redis.score? owner.1 owner.2)

/-- The entry a verdict leaves to its user. -/
def Redis.nextEntry (redis : Redis) (verdict : QueueMessage) : UserContestMetadata :=
  ((redis.metadata verdict.contestId verdict.userId).getD .initial).absorb verdict

private theorem concerns_iff_owner {verdict : QueueMessage} (owner : String × String) :
    verdict.Concerns owner.1 owner.2 ↔ verdict.owner = owner := by
  rw [QueueMessage.Concerns, QueueMessage.owner, Prod.ext_iff, eq_comm, @eq_comm _ owner.2]

/-- Every verdict changes the state of its owner, and computes the change from that state. -/
theorem keyed_processLiveVerdict :
    Machine.Keyed processLiveVerdict QueueMessage.owner Redis.ownState fun own verdict =>
      let entry := (own.1.getD .initial).absorb verdict
      (some entry, some (computeUserScores entry).score) := by
  intro redis verdict owner
  simp only [Redis.ownState, metadata_processLiveVerdict, score?_processLiveVerdict, concerns_iff_owner]
  split <;> rfl

/-- Of the hashes, a verdict writes one field of one key. -/
theorem hashes_processLiveVerdict (redis : Redis) (verdict : QueueMessage) (key field : String) :
    (processLiveVerdict redis verdict).hashes key field =
      if key = getContestMetadataKey verdict.contestId ∧ field = verdict.userId then
        some (redis.nextEntry verdict) else redis.hashes key field := by
  have own := metadata_processLiveVerdict redis verdict verdict.contestId verdict.userId
  rw [if_pos ⟨rfl, rfl⟩] at own
  split
  · next here => rw [here.1, here.2]; exact own
  · next elsewhere =>
    simp only [processLiveVerdict, addScore, Redis.zAdd, evalVerdict, updateUserStateLua]
    split
    · rfl
    · rw [Redis.hashes_hSet, if_neg elsewhere]

/-- Of the sorted sets, a verdict writes one member of one key. -/
theorem zsets_processLiveVerdict (redis : Redis) (verdict : QueueMessage) (key : String) :
    (processLiveVerdict redis verdict).zsets key =
      if key = getContestLeaderboardKey verdict.contestId then
        (redis.zsets key).add verdict.userId (computeUserScores (redis.nextEntry verdict)).score
      else redis.zsets key := by
  have reply : (evalVerdict redis verdict).1 = redis.nextEntry verdict := evalVerdict_reply ⟨rfl, rfl⟩
  simp only [processLiveVerdict, addScore, Redis.zAdd, zsets_evalVerdict, reply, Function.update_apply]
  split
  · next same => rw [same]
  · rfl

private theorem nextEntry_processLiveVerdict (redis : Redis) {verdict other : QueueMessage}
    (different : verdict.owner ≠ other.owner) :
    (processLiveVerdict redis verdict).nextEntry other = redis.nextEntry other := by
  have apart : ¬ verdict.Concerns other.contestId other.userId := fun same =>
    different ((concerns_iff_owner other.owner).mp same)
  rw [Redis.nextEntry, metadata_processLiveVerdict, if_neg apart, Redis.nextEntry]

/-- Verdicts of different owners commute. -/
theorem processLiveVerdict_comm (redis : Redis) {verdict other : QueueMessage}
    (different : verdict.owner ≠ other.owner) :
    processLiveVerdict (processLiveVerdict redis verdict) other =
      processLiveVerdict (processLiveVerdict redis other) verdict := by
  have hashes : (processLiveVerdict (processLiveVerdict redis verdict) other).hashes =
      (processLiveVerdict (processLiveVerdict redis other) verdict).hashes := by
    funext key field
    simp only [hashes_processLiveVerdict, nextEntry_processLiveVerdict redis different,
      nextEntry_processLiveVerdict redis different.symm]
    split
    · next atOther =>
      have apart : ¬ (key = getContestMetadataKey verdict.contestId ∧ field = verdict.userId) := by
        rintro ⟨sameKey, sameField⟩
        have contest := getContestMetadataKey_inj.mp (sameKey.symm.trans atOther.1)
        exact different (Prod.ext contest (sameField.symm.trans atOther.2))
      rw [if_neg apart]
    · rfl
  have zsets : (processLiveVerdict (processLiveVerdict redis verdict) other).zsets =
      (processLiveVerdict (processLiveVerdict redis other) verdict).zsets := by
    funext key
    simp only [zsets_processLiveVerdict, nextEntry_processLiveVerdict redis different,
      nextEntry_processLiveVerdict redis different.symm]
    split
    · next atOther =>
      split
      · next atVerdict =>
        have contest := getContestLeaderboardKey_inj.mp (atVerdict.symm.trans atOther)
        have user : verdict.userId ≠ other.userId := fun same => different (Prod.ext contest same)
        exact SortedSet.add_comm_of_ne _ user _ _
      · rfl
    · rfl
  exact congrArg₂ Redis.mk hashes zsets

/-- The live board keeps users and contests apart: from any state of Redis, a run leaves the entry
and the score of each user of each contest as its run over the verdicts of that user alone does;
verdicts of different users or contests commute; and no two contests share a key of either kind. -/
theorem liveBoard_independent :
    (∀ (redis : Redis) (verdicts : List QueueMessage) (c u : String),
      let own := verdicts.filter fun verdict => verdict.contestId = c ∧ verdict.userId = u
      (verdicts.foldl processLiveVerdict redis).metadata c u = (own.foldl processLiveVerdict redis).metadata c u ∧
      (verdicts.foldl processLiveVerdict redis).score? c u = (own.foldl processLiveVerdict redis).score? c u) ∧
    (∀ (redis : Redis) (verdict other : QueueMessage),
      (verdict.contestId, verdict.userId) ≠ (other.contestId, other.userId) →
      processLiveVerdict (processLiveVerdict redis verdict) other =
        processLiveVerdict (processLiveVerdict redis other) verdict) ∧
    ∀ c c' : String, getContestMetadataKey c ≠ getContestLeaderboardKey c' ∧
      (c ≠ c' → getContestMetadataKey c ≠ getContestMetadataKey c' ∧
        getContestLeaderboardKey c ≠ getContestLeaderboardKey c') := by
  refine ⟨fun redis verdicts c u => ?_, fun redis verdict other => processLiveVerdict_comm redis, fun c c' => ?_⟩
  · have projected := keyed_processLiveVerdict.read_foldl_filter redis verdicts (c, u)
    simp only [QueueMessage.owner, Prod.mk.injEq] at projected
    exact ⟨congrArg Prod.fst projected, congrArg Prod.snd projected⟩
  · refine ⟨metadataKey_ne_leaderboardKey c c', fun different => ?_⟩
    exact ⟨getContestMetadataKey_inj.not.mpr different, getContestLeaderboardKey_inj.not.mpr different⟩

end JudgeSelf.LeaderboardService
