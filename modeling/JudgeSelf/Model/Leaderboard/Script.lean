import JudgeSelf.Json.Tables
import JudgeSelf.Model.Leaderboard.Redis

/-! # The script on the texts of Redis

Model of `_lua.ts` and of `redis.service.ts` with texts in the fields of the metadata hashes. The script decodes a text
with `cjson`, works on tables and encodes them again; the service reads the reply with `JSON.parse`. Texts other than
those that the script writes are read by the grammar of JSON, and numbers are integers.
-/

namespace JudgeSelf.LeaderboardService

open Json (Tree)

namespace Script

def initialUserData : Tree := .object [("problems", .object []), ("processedSubmissions", .object [])]

/-- The table of a submission. -/
def submission (verdict : QueueMessage) : Tree :=
  .object [("submissionId", .string verdict.submissionId),
    ("relativeSubmittedAt", .number (.ofInt verdict.relativeSubmittedAt)), ("status", .string verdict.status)]

def equals (s : String) : Tree → Bool
  | .string t => t = s
  | _ => false

/-- The script between decoding and encoding: `none` is an error, `some none` its early return. -/
def update (userData : Tree) (verdict : QueueMessage) : Option (Option Tree) := do
  let processed ← userData.field? "processedSubmissions"
  let ids ← processed.elements?
  if ids.any (equals verdict.submissionId) then return none
  let problems ← userData.field? "problems"
  let track ← ((problems.field? verdict.problemId).getD (.object [])).insert (submission verdict)
  let problems ← problems.setField verdict.problemId track
  let processed ← processed.insert (.string verdict.submissionId)
  let userData ← userData.setField "problems" problems
  let userData ← userData.setField "processedSubmissions" processed
  return some userData

/-- A run of the script: the field before, the reply, and the field afterwards. -/
inductive Eval (verdict : QueueMessage) : Option (List Char) → List Char → Option (List Char) → Prop
  | processed {userRaw : List Char} {userData : Tree} (decoded : Json.read userRaw = some userData)
      (ran : update userData verdict = some none) : Eval verdict (some userRaw) userRaw (some userRaw)
  | updated {userRaw : Option (List Char)} {userData after written : Tree}
      (decoded : userRaw.elim (some initialUserData) Json.read = some userData)
      (ran : update userData verdict = some (some after)) (encoded : after.Encodes written) :
    Eval verdict userRaw (written.print Json.cjsonEscape) (some (written.print Json.cjsonEscape))

end Script

namespace Parse

def string? : Tree → Option String
  | .string s => some s
  | _ => none

def number? : Tree → Option ℤ
  | .number literal => literal.int?
  | _ => none

def array? : Tree → Option (List Tree)
  | .array elements => some elements
  | _ => none

def object? : Tree → Option (List (String × Tree))
  | .object members => some members
  | _ => none

def state (t : Tree) : Option ProblemProblemState := do
  let submissionId ← (← t.field? "submissionId") |> string?
  let relativeSubmittedAt ← (← t.field? "relativeSubmittedAt") |> number?
  let status ← (← t.field? "status") |> string?
  return ⟨submissionId, relativeSubmittedAt, status⟩

def track (t : Tree) : Option (List ProblemProblemState) := do (← array? t).mapM state

def problems (t : Tree) : Option (Record String (List ProblemProblemState)) := do
  let entries ← (← object? t).mapM fun member => (track member.2).map (member.1, ·)
  return Record.ofList entries

/-- The metadata that the service takes from a reply. -/
def metadata (t : Tree) : Option UserContestMetadata := do
  let problems ← problems (← t.field? "problems")
  let processedSubmissions ← (← array? (← t.field? "processedSubmissions")).mapM string?
  return ⟨problems, processedSubmissions⟩

end Parse

def parseMetadata (reply : List Char) : Option UserContestMetadata := (Json.read reply).bind Parse.metadata

structure TextRedis where
  hashes : String → String → Option (List Char)
  zsets : String → SortedSet String ℤ

namespace TextRedis

def empty : TextRedis := ⟨fun _ _ => none, fun _ => SortedSet.empty⟩

/-- Write or remove a field of a hash. -/
def setHash (redis : TextRedis) (key field : String) (value : Option (List Char)) : TextRedis :=
  { redis with hashes := Function.update redis.hashes key (Function.update (redis.hashes key) field value) }

def zAdd (redis : TextRedis) (key : String) (score : ℤ) (value : String) : TextRedis :=
  { redis with zsets := Function.update redis.zsets key ((redis.zsets key).add value score) }

def unlink (redis : TextRedis) (keys : List String) : TextRedis where
  hashes key := if key ∈ keys then fun _ => none else redis.hashes key
  zsets key := if key ∈ keys then SortedSet.empty else redis.zsets key

end TextRedis

/-- A store, and the replies of the script that its clients have, with contest and user. -/
structure Clients (ρ μ : Type) where
  redis : ρ
  replies : List (String × String × μ)

/-- The commands of handlings, recalculations and freezes, in any order. -/
inductive Command
  | eval (verdict : QueueMessage)
  /-- The second command of `processLiveVerdict`, for one of the replies. -/
  | zAdd (index : ℕ)
  /-- A handling ends between its commands. -/
  | abandon (index : ℕ)
  | hDel (contestId userId : String)
  | unlink (contestId : String)

namespace Clients

/-- A command on entries. -/
def step (s : Clients Redis UserContestMetadata) : Command → Option (Clients Redis UserContestMetadata)
  | .eval verdict =>
    let (metadata, redis) := evalVerdict s.redis verdict
    some ⟨redis, s.replies ++ [(verdict.contestId, verdict.userId, metadata)]⟩
  | .zAdd index => s.replies[index]?.map fun (contestId, userId, metadata) =>
      ⟨addScore s.redis contestId userId metadata, s.replies.eraseIdx index⟩
  | .abandon index => if index < s.replies.length then some { s with replies := s.replies.eraseIdx index } else none
  | .hDel contestId userId => some { s with redis := s.redis.hDel (getContestMetadataKey contestId) userId }
  | .unlink contestId =>
    some { s with redis := s.redis.unlink [getContestMetadataKey contestId, getContestLeaderboardKey contestId] }

/-- A command on texts; what the script writes is not determined. -/
inductive TextStep (s : Clients TextRedis (List Char)) : Command → Clients TextRedis (List Char) → Prop
  | eval {verdict : QueueMessage} {reply : List Char} {after : Option (List Char)}
      (ran : Script.Eval verdict (s.redis.hashes (getContestMetadataKey verdict.contestId) verdict.userId) reply
        after) :
    TextStep s (.eval verdict)
      ⟨s.redis.setHash (getContestMetadataKey verdict.contestId) verdict.userId after,
        s.replies ++ [(verdict.contestId, verdict.userId, reply)]⟩
  | zAdd {index : ℕ} {contestId userId : String} {reply : List Char} {metadata : UserContestMetadata}
      (waiting : s.replies[index]? = some (contestId, userId, reply)) (parsed : parseMetadata reply = some metadata) :
    TextStep s (.zAdd index)
      ⟨s.redis.zAdd (getContestLeaderboardKey contestId) (computeUserScores metadata).score userId,
        s.replies.eraseIdx index⟩
  | abandon {index : ℕ} (waiting : index < s.replies.length) :
    TextStep s (.abandon index) { s with replies := s.replies.eraseIdx index }
  | hDel {contestId userId : String} :
    TextStep s (.hDel contestId userId)
      { s with redis := s.redis.setHash (getContestMetadataKey contestId) userId none }
  | unlink {contestId : String} :
    TextStep s (.unlink contestId)
      { s with redis := s.redis.unlink [getContestMetadataKey contestId, getContestLeaderboardKey contestId] }

end Clients

end JudgeSelf.LeaderboardService
