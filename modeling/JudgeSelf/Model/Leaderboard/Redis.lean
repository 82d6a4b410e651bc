import JudgeSelf.Machine.Inbox
import JudgeSelf.Model.Leaderboard.Scoring
import JudgeSelf.ToMathlib.SortedSet
import Mathlib.Data.String.Basic

/-! # The live leaderboard in Redis

Model of `_lua.ts`, of `processLiveVerdict` in `redis.service.ts` and of the key functions of
`leaderboard.service.ts`. A hash field holds the decoded metadata entry: encoding by `cjson` and
decoding by `JSON.parse` or `cjson` are taken to round-trip strings and integers. Hashes and sorted
sets are kept apart, as no metadata key is a leaderboard key (`metadataKey_ne_leaderboardKey`); an
absent key is an empty collection. `processLiveVerdict` issues two commands, the script and the
`zAdd`, which are separate steps here too.
-/

namespace JudgeSelf.LeaderboardService

/-- A message of the verdicts queue, after `JSON.parse` with the reviver. -/
structure QueueMessage where
  submissionId : String
  contestId : String
  userId : String
  problemId : String
  status : String
  relativeSubmittedAt : ℤ
deriving DecidableEq, Repr

structure Redis where
  hashes : String → String → Option UserContestMetadata
  zsets : String → SortedSet String ℤ

namespace Redis

def empty : Redis := ⟨fun _ _ => none, fun _ => SortedSet.empty⟩

def hGet (redis : Redis) (key field : String) : Option UserContestMetadata := redis.hashes key field

def hSet (redis : Redis) (key field : String) (value : UserContestMetadata) : Redis :=
  { redis with hashes := Function.update redis.hashes key (Function.update (redis.hashes key) field (some value)) }

def hDel (redis : Redis) (key field : String) : Redis :=
  { redis with hashes := Function.update redis.hashes key (Function.update (redis.hashes key) field none) }

def zAdd (redis : Redis) (key : String) (score : ℤ) (value : String) : Redis :=
  { redis with zsets := Function.update redis.zsets key ((redis.zsets key).add value score) }

/-- Remove whole keys of either kind. -/
def unlink (redis : Redis) (keys : List String) : Redis where
  hashes key := if key ∈ keys then fun _ => none else redis.hashes key
  zsets key := if key ∈ keys then SortedSet.empty else redis.zsets key

/-- Writing a field of a key leaves all other fields of all keys. -/
private theorem update_field_apply (hashes : String → String → Option UserContestMetadata)
    (key field key' field' : String) (value : Option UserContestMetadata) :
    Function.update hashes key (Function.update (hashes key) field value) key' field' =
      if key' = key ∧ field' = field then value else hashes key' field' := by
  by_cases sameKey : key' = key
  · subst sameKey
    rw [Function.update_self, Function.update_apply]
    exact if_congr (and_iff_right rfl).symm rfl rfl
  · rw [Function.update_of_ne sameKey, if_neg fun same => sameKey same.1]

theorem hashes_hSet (redis : Redis) (key field key' field' : String) (value : UserContestMetadata) :
    (redis.hSet key field value).hashes key' field' =
      if key' = key ∧ field' = field then some value else redis.hashes key' field' :=
  update_field_apply redis.hashes key field key' field' (some value)

theorem hashes_hDel (redis : Redis) (key field key' field' : String) : (redis.hDel key field).hashes key' field' =
    if key' = key ∧ field' = field then none else redis.hashes key' field' :=
  update_field_apply redis.hashes key field key' field' none

end Redis

def getContestLeaderboardKey (contestId : String) : String := "contest:" ++ contestId ++ ":leaderboard"

def getContestMetadataKey (contestId : String) : String := "contest:" ++ contestId ++ ":metadata"

/-- What the script inserts: the submission at the end of its problem, the id at the end. -/
def UserContestMetadata.record (userData : UserContestMetadata) (verdict : QueueMessage) :
    UserContestMetadata :=
  let track := (userData.problems.get? verdict.problemId).getD []
  { problems := userData.problems.set verdict.problemId
      (track ++ [⟨verdict.submissionId, verdict.relativeSubmittedAt, verdict.status⟩])
    processedSubmissions := userData.processedSubmissions ++ [verdict.submissionId] }

/-- The entry of a user of whom nothing is recorded. -/
def UserContestMetadata.initial : UserContestMetadata := ⟨Record.empty, []⟩

/-- `UPDATE_USER_STATE_LUA`: the reply and the new state. A processed id leaves the state alone. -/
def updateUserStateLua (redis : Redis) (metadataKey : String) (verdict : QueueMessage) :
    UserContestMetadata × Redis :=
  let userData := (redis.hGet metadataKey verdict.userId).getD UserContestMetadata.initial
  if verdict.submissionId ∈ userData.processedSubmissions then (userData, redis)
  else
    let updatedRaw := userData.record verdict
    (updatedRaw, redis.hSet metadataKey verdict.userId updatedRaw)

/-- The first command of `processLiveVerdict`. -/
def evalVerdict (redis : Redis) (verdict : QueueMessage) : UserContestMetadata × Redis :=
  updateUserStateLua redis (getContestMetadataKey verdict.contestId) verdict

/-- The second command of `processLiveVerdict`, computed from the reply of the first. -/
def addScore (redis : Redis) (contestId userId : String) (metadata : UserContestMetadata) : Redis :=
  redis.zAdd (getContestLeaderboardKey contestId) (computeUserScores metadata).score userId

def processLiveVerdict (redis : Redis) (verdict : QueueMessage) : Redis :=
  let (metadata, redis) := evalVerdict redis verdict
  addScore redis verdict.contestId verdict.userId metadata

theorem getContestLeaderboardKey_inj {c c' : String} :
    getContestLeaderboardKey c = getContestLeaderboardKey c' ↔ c = c' := by
  simp [getContestLeaderboardKey]

theorem getContestMetadataKey_inj {c c' : String} :
    getContestMetadataKey c = getContestMetadataKey c' ↔ c = c' := by
  simp [getContestMetadataKey]

theorem metadataKey_ne_leaderboardKey (c c' : String) :
    getContestMetadataKey c ≠ getContestLeaderboardKey c' := by
  intro same
  have last := congrArg (fun key : String => key.toList.reverse.head?) same
  simp [getContestMetadataKey, getContestLeaderboardKey] at last

/-- A message about one user of one contest. -/
def QueueMessage.Concerns (verdict : QueueMessage) (contestId userId : String) : Prop :=
  contestId = verdict.contestId ∧ userId = verdict.userId

instance (verdict : QueueMessage) (c u : String) : Decidable (verdict.Concerns c u) :=
  inferInstanceAs (Decidable (_ ∧ _))

/-- The metadata entry of a user in a contest. -/
def Redis.metadata (redis : Redis) (contestId userId : String) : Option UserContestMetadata :=
  redis.hGet (getContestMetadataKey contestId) userId

/-- The score of a user in the sorted set of a contest. -/
def Redis.score? (redis : Redis) (contestId userId : String) : Option ℤ :=
  (redis.zsets (getContestLeaderboardKey contestId)).score? userId

@[simp] theorem Redis.metadata_empty (c u : String) : Redis.empty.metadata c u = none := rfl

@[simp] theorem Redis.score?_empty (c u : String) : Redis.empty.score? c u = none := rfl

/-- The reply of the script to a user whose entry is `userData`. -/
def UserContestMetadata.absorb (userData : UserContestMetadata) (verdict : QueueMessage) :
    UserContestMetadata :=
  Machine.absorb processedSubmissions record QueueMessage.submissionId userData verdict

theorem evalVerdict_reply {redis : Redis} {verdict : QueueMessage} {c u : String}
    (here : verdict.Concerns c u) :
    (evalVerdict redis verdict).1 = ((redis.metadata c u).getD .initial).absorb verdict := by
  obtain ⟨rfl, rfl⟩ := here
  change (updateUserStateLua redis _ verdict).1 = Machine.absorb _ _ _ ((redis.hGet _ _).getD _) verdict
  rw [updateUserStateLua, Machine.absorb]
  split <;> rfl

/-- The script leaves its reply as the entry of the verdict's user; a skipped message found it there. -/
@[simp] theorem metadata_evalVerdict (redis : Redis) (verdict : QueueMessage) (c u : String) :
    (evalVerdict redis verdict).2.metadata c u =
      if verdict.Concerns c u then some (((redis.metadata c u).getD .initial).absorb verdict)
      else redis.metadata c u := by
  by_cases here : verdict.Concerns c u
  · rw [if_pos here, ← evalVerdict_reply here]
    obtain ⟨rfl, rfl⟩ := here
    simp only [evalVerdict, updateUserStateLua, Redis.metadata]
    cases stored : redis.hGet (getContestMetadataKey verdict.contestId) verdict.userId with
    | none => simp [UserContestMetadata.initial, Redis.hGet, Redis.hashes_hSet]
    | some userData =>
      simp only [Option.getD_some]
      split
      · exact stored
      · simp [Redis.hGet, Redis.hashes_hSet]
  · rw [if_neg here]
    simp only [evalVerdict, updateUserStateLua, Redis.metadata]
    split
    · rfl
    · simp only [Redis.hGet, Redis.hashes_hSet, getContestMetadataKey_inj]
      exact if_neg here

/-- The script leaves the sorted sets alone. -/
theorem zsets_evalVerdict (redis : Redis) (verdict : QueueMessage) :
    (evalVerdict redis verdict).2.zsets = redis.zsets := by
  rw [evalVerdict, updateUserStateLua]
  dsimp only
  split <;> rfl

@[simp] theorem score?_evalVerdict (redis : Redis) (verdict : QueueMessage) (c u : String) :
    (evalVerdict redis verdict).2.score? c u = redis.score? c u := by
  rw [Redis.score?, zsets_evalVerdict, Redis.score?]

@[simp] theorem metadata_addScore (redis : Redis) (c u c' u' : String) (metadata : UserContestMetadata) :
    (addScore redis c u metadata).metadata c' u' = redis.metadata c' u' := rfl

@[simp] theorem score?_addScore (redis : Redis) (c u c' u' : String) (metadata : UserContestMetadata) :
    (addScore redis c u metadata).score? c' u' =
      if c' = c ∧ u' = u then some (computeUserScores metadata).score else redis.score? c' u' := by
  simp only [addScore, Redis.zAdd, Redis.score?]
  by_cases contest : c' = c
  · subst contest
    simp [SortedSet.score?_add]
  · rw [Function.update_of_ne (getContestLeaderboardKey_inj.not.mpr contest)]
    simp [contest]

theorem metadata_hDel (redis : Redis) (c u c' u' : String) :
    (redis.hDel (getContestMetadataKey c) u).metadata c' u' =
      if c' = c ∧ u' = u then none else redis.metadata c' u' := by
  simp only [Redis.metadata, Redis.hGet, Redis.hashes_hDel, getContestMetadataKey_inj]

@[simp] theorem metadata_processLiveVerdict (redis : Redis) (verdict : QueueMessage) (c u : String) :
    (processLiveVerdict redis verdict).metadata c u =
      if verdict.Concerns c u then some (((redis.metadata c u).getD .initial).absorb verdict)
      else redis.metadata c u := by
  simp only [processLiveVerdict, metadata_addScore, metadata_evalVerdict]

@[simp] theorem score?_processLiveVerdict (redis : Redis) (verdict : QueueMessage) (c u : String) :
    (processLiveVerdict redis verdict).score? c u =
      if verdict.Concerns c u then
        some (computeUserScores (((redis.metadata c u).getD .initial).absorb verdict)).score
      else redis.score? c u := by
  simp only [processLiveVerdict, score?_addScore, score?_evalVerdict]
  refine ite_congr rfl (fun here => ?_) fun _ => rfl
  rw [evalVerdict_reply here]

/-- The sorted set of a contest has no member. -/
def Redis.NoBoard (redis : Redis) (contestId : String) : Prop :=
  (redis.zsets (getContestLeaderboardKey contestId)).entries = []

/-- A handled verdict puts its user on the board of its contest and on no other. -/
theorem noBoard_processLiveVerdict {redis : Redis} {verdict : QueueMessage} {c : String} :
    (processLiveVerdict redis verdict).NoBoard c ↔ redis.NoBoard c ∧ verdict.contestId ≠ c := by
  simp only [Redis.NoBoard, processLiveVerdict, addScore, Redis.zAdd, zsets_evalVerdict]
  by_cases same : verdict.contestId = c
  · subst same
    simp [SortedSet.entries_add_ne_nil]
  · rw [Function.update_of_ne (getContestLeaderboardKey_inj.not.mpr (Ne.symm same))]
    simp [same]

theorem noBoard_hDel {redis : Redis} {key field c : String} :
    (redis.hDel key field).NoBoard c ↔ redis.NoBoard c := Iff.rfl

theorem noBoard_unlink (redis : Redis) {keys : List String} {c : String}
    (removed : getContestLeaderboardKey c ∈ keys) : (redis.unlink keys).NoBoard c := by
  simp [Redis.NoBoard, Redis.unlink, removed, SortedSet.empty]

end JudgeSelf.LeaderboardService
