import JudgeSelf.Model.Leaderboard.Freeze
import JudgeSelf.ToMathlib.Pages

/-! # Reading the leaderboard

Model of the read functions of `leaderboard.service.ts`. Rows read from Redis and rows read from
`contest_results` are different objects in the source: the former are built field by field, the
latter are the rows of the driver, with `BIGINT` as text. A member of the sorted set without a
metadata entry makes `computeUserScores` throw on the missing `problems`.
-/

namespace JudgeSelf.LeaderboardService

structure LeaderboardRow where
  rank : ℤ
  userId : String
  score : ℤ
  problemsSolved : ℕ
  penalty : ℤ
  problemDetails : Record String ProblemDetail
deriving DecidableEq

/-- A row of the page query on `contest_results`, as the driver returns it. -/
structure StoredRow where
  rank : ℕ
  user_id : String
  problems_solved : ℕ
  penalty : String
  problem_details : Record String ProblemDetail
deriving DecidableEq

/-- A row of a page, under its origin. -/
inductive PageRow
  | live (row : LeaderboardRow)
  | stored (row : StoredRow)
deriving DecidableEq

structure Leaderboard where
  leaderboard : List PageRow
  currentPage : ℤ
  totalPages : ℤ
  totalParticipants : ℕ
deriving DecidableEq

/-- What a page request resolves to. -/
inductive PageReply
  | leaderboard (response : Leaderboard)
  | error (message : String)
deriving DecidableEq

/-- Reading `problems` of an absent metadata entry. -/
structure TypeError where
deriving DecidableEq

def ContestResult.storedRow (result : ContestResult) : StoredRow where
  rank := result.rank
  user_id := result.userId
  problems_solved := result.problemsSolved
  penalty := toString result.penalty
  problem_details := result.problemDetails

def liveRow (userId : String) (rank : ℤ) (metadata : UserContestMetadata) : LeaderboardRow :=
  let scoreCalculation := computeUserScores metadata
  { rank, userId
    score := scoreCalculation.score
    problemsSolved := scoreCalculation.solved
    penalty := scoreCalculation.penalty
    problemDetails := scoreCalculation.details }

def getTotalLeaderboardEntries (stores : Stores) (contestId : String) : ℕ :=
  let totalParticipants := (stores.redis.zsets (getContestLeaderboardKey contestId)).card
  if totalParticipants ≠ 0 then totalParticipants else (stores.database.resultsOf contestId).length

/-- `none` when the range of the sorted set is empty. -/
def getLeaderboardPageFromRedis (redis : Redis) (contestId : String) (page pageSize : ℤ) :
    Except TypeError (Option (List LeaderboardRow)) :=
  let startIdx := (page - 1) * pageSize
  let endIdx := startIdx + pageSize - 1
  let userIdsWithScores := (redis.zsets (getContestLeaderboardKey contestId)).revRange startIdx endIdx
  if userIdsWithScores = [] then .ok none
  else some <$> userIdsWithScores.zipIdx.mapM fun (user, idx) =>
    match redis.hGet (getContestMetadataKey contestId) user.1 with
    | none => .error {}
    | some metadata => .ok (liveRow user.1 (startIdx + idx + 1) metadata)

def getLeaderboardPageFromDB (database : Database) (contestId : String) (page pageSize : ℤ) :
    List StoredRow :=
  let startRank := (page - 1) * pageSize
  ((((database.resultsOf contestId).filter fun result => startRank < (result.rank : ℤ)).sortByKey
    ContestResult.rank).take pageSize.toNat).map ContestResult.storedRow

/-- The number of pages is that of a positive page size. -/
def getLeaderboardPage (stores : Stores) (contestId : String) (page pageSize : ℤ) :
    Except TypeError PageReply := do
  let totalParticipants := getTotalLeaderboardEntries stores contestId
  let response (leaderboard : List PageRow) : PageReply := .leaderboard
    { leaderboard
      currentPage := page
      totalPages := (totalParticipants + pageSize - 1) / pageSize
      totalParticipants }
  match ← getLeaderboardPageFromRedis stores.redis contestId page pageSize with
  | some redisResult => return response (redisResult.map .live)
  | none =>
    match stores.database.contest? contestId with
    | none => return .error "Invalid Contest ID"
    | some _ =>
      return response ((getLeaderboardPageFromDB stores.database contestId page pageSize).map .stored)

/-- The whole recalculation, with nothing in between. -/
def recalculateLiveUserScore (stores : Stores) (contestId userId : String) : Stores :=
  let redis := stores.redis.hDel (getContestMetadataKey contestId) userId
  let submissions := stores.database.ratedSubmissionsOf contestId userId
  { stores with redis := submissions.foldl (fun redis sub =>
      processLiveVerdict redis (sub.verdict contestId userId)) redis }

theorem getTotalLeaderboardEntries_of_noBoard {stores : Stores} {c : String} (none : stores.redis.NoBoard c) :
    getTotalLeaderboardEntries stores c = (stores.database.resultsOf c).length := by
  rw [getTotalLeaderboardEntries, SortedSet.card_eq_zero_iff.mpr none]
  rfl

theorem getLeaderboardPageFromRedis_of_noBoard {redis : Redis} {c : String} (none : redis.NoBoard c)
    (page pageSize : ℤ) : getLeaderboardPageFromRedis redis c page pageSize = .ok .none := by
  simp only [Redis.NoBoard] at none
  simp [getLeaderboardPageFromRedis, SortedSet.revRange, none]

private theorem getLeaderboardPageFromRedis_of_board {redis : Redis} {c : String} (board : ¬ redis.NoBoard c)
    {reply : Option (List LeaderboardRow)} (read : getLeaderboardPageFromRedis redis c 1 1 = .ok reply) :
    ∃ row rest, reply = some (row :: rest) := by
  obtain ⟨user, others, range⟩ : ∃ user others,
      (redis.zsets (getContestLeaderboardKey c)).revRange ((1 - 1) * 1) ((1 - 1) * 1 + 1 - 1) =
        user :: others := by
    refine List.exists_cons_of_ne_nil ?_
    obtain ⟨first, rest, entries⟩ := List.exists_cons_of_ne_nil fun none =>
      board (List.reverse_eq_nil_iff.mp none)
    rw [SortedSet.revRange, entries]
    exact List.indexRange_zero_cons first rest (by omega)
  simp only [getLeaderboardPageFromRedis, range, reduceCtorEq, ↓reduceIte, List.zipIdx_cons] at read
  obtain ⟨rows, ran, rfl⟩ := Except.map_eq_ok_iff.mp read
  obtain ⟨row, rest, _, _, rfl⟩ := Except.mapM_cons_eq_ok ran
  exact ⟨row, rest, rfl⟩

/-- The first page of a live board starts with a row from Redis, if it can be read. -/
theorem getLeaderboardPage_of_board {stores : Stores} {c : String} (board : ¬ stores.redis.NoBoard c)
    {response : Leaderboard} (read : getLeaderboardPage stores c 1 1 = .ok (.leaderboard response)) :
    ∃ row rest, response.leaderboard = .live row :: rest := by
  obtain ⟨reply, fromRedis, answered⟩ := Except.bind_eq_ok_iff.mp read
  obtain ⟨row, rest, rfl⟩ := getLeaderboardPageFromRedis_of_board board fromRedis
  cases answered
  exact ⟨row, rest.map .live, rfl⟩

/-- A page of a contest without a live board is the page of its results. -/
theorem getLeaderboardPage_of_noBoard {stores : Stores} {c : String} {contest : Contest}
    (none : stores.redis.NoBoard c) (found : stores.database.contest? c = some contest) (page pageSize : ℤ) :
    getLeaderboardPage stores c page pageSize = .ok (.leaderboard
      { leaderboard := (getLeaderboardPageFromDB stores.database c page pageSize).map .stored
        currentPage := page
        totalPages := ((stores.database.resultsOf c).length + pageSize - 1) / pageSize
        totalParticipants := (stores.database.resultsOf c).length }) := by
  simp only [getLeaderboardPage, getLeaderboardPageFromRedis_of_noBoard none,
    getTotalLeaderboardEntries_of_noBoard none, found]
  rfl

/-- Every member of the sorted set of a contest has a metadata entry. -/
def Redis.Readable (redis : Redis) (contestId : String) : Prop :=
  ∀ user ∈ (redis.zsets (getContestLeaderboardKey contestId)).entries, (redis.metadata contestId user.1).isSome

instance (redis : Redis) (c : String) : Decidable (redis.Readable c) := inferInstanceAs (Decidable (∀ user ∈ _, _))

/-- The members of the sorted set of a contest in descending order. -/
def Redis.members (redis : Redis) (contestId : String) : List String :=
  (redis.zsets (getContestLeaderboardKey contestId)).entries.reverse.map Prod.fst

/-- The row of a member under a rank. -/
def Redis.rowOf (redis : Redis) (contestId userId : String) (rank : ℤ) : LeaderboardRow :=
  liveRow userId rank ((redis.metadata contestId userId).getD .initial)

/-- The rows of a whole board. -/
def Redis.boardRows (redis : Redis) (contestId : String) : List LeaderboardRow :=
  (redis.members contestId).zipIdx.map fun e => redis.rowOf contestId e.1 (e.2 + 1)

section Live

variable {redis : Redis} {c : String}

theorem nodup_members (redis : Redis) (c : String) : (redis.members c).Nodup := by
  rw [Redis.members, List.map_reverse, List.nodup_reverse]
  exact (redis.zsets (getContestLeaderboardKey c)).nodup

theorem length_members (redis : Redis) (c : String) :
    (redis.members c).length = (redis.zsets (getContestLeaderboardKey c)).card := by
  rw [Redis.members, List.length_map, List.length_reverse, SortedSet.card]

theorem noBoard_iff_members : redis.NoBoard c ↔ redis.members c = [] := by
  rw [Redis.NoBoard, Redis.members, List.map_eq_nil_iff, List.reverse_eq_nil_iff]

theorem mem_members {u : String} : u ∈ redis.members c ↔ (redis.score? c u).isSome := by
  rw [Option.isSome_iff_exists]
  simp [Redis.members, Redis.score?, SortedSet.score?_eq_some_iff]

theorem readable_iff : redis.Readable c ↔ ∀ u, (redis.score? c u).isSome → (redis.metadata c u).isSome := by
  simp only [← mem_members, Redis.members, Redis.Readable, List.mem_map, List.mem_reverse]
  constructor
  · rintro readable u ⟨user, member, rfl⟩
    exact readable user member
  · exact fun present user member => present user.1 ⟨user, member, rfl⟩

/-- The place of a member in descending order. -/
theorem revRank_eq_some_iff {u : String} {i : ℕ} :
    (redis.zsets (getContestLeaderboardKey c)).revRank u = some i ↔ (redis.members c)[i]? = some u :=
  SortedSet.revRank_eq_some_iff

/-- The rows that a page request makes of members of the sorted set. -/
private theorem mapM_liveRow (users : List (String × ℤ)) (startIdx : ℤ)
    (present : ∀ user ∈ users, (redis.metadata c user.1).isSome) :
    (users.zipIdx.mapM fun (user, idx) => match redis.hGet (getContestMetadataKey c) user.1 with
      | none => .error {}
      | some metadata => .ok (liveRow user.1 (startIdx + idx + 1) metadata)) =
    (.ok (users.zipIdx.map fun e => redis.rowOf c e.1.1 (startIdx + e.2 + 1)) :
      Except TypeError (List LeaderboardRow)) := by
  apply Except.mapM_eq_ok_of_forall
  intro e member
  obtain ⟨metadata, stored⟩ := Option.isSome_iff_exists.mp (present e.1 (List.fst_mem_of_mem_zipIdx member))
  have entry : redis.hGet (getContestMetadataKey c) e.1.1 = some metadata := stored
  rw [Redis.rowOf, stored]
  simp only [entry, Option.getD_some]

private theorem map_fst_revRange (redis : Redis) (c : String) (start stop : ℤ) :
    ((redis.zsets (getContestLeaderboardKey c)).revRange start stop).map Prod.fst =
      (redis.members c).indexRange start stop := List.map_indexRange ..

/-- A page of a readable board lists the members of the range, numbered from the start of the page. -/
theorem getLeaderboardPageFromRedis_of_readable (readable : redis.Readable c) (page pageSize : ℤ) :
    getLeaderboardPageFromRedis redis c page pageSize =
      let startIdx := (page - 1) * pageSize
      let userIds := (redis.members c).indexRange startIdx (startIdx + pageSize - 1)
      .ok (if userIds = [] then none
        else some (userIds.zipIdx.map fun e => redis.rowOf c e.1 (startIdx + e.2 + 1))) := by
  have present : ∀ user ∈ (redis.zsets (getContestLeaderboardKey c)).revRange ((page - 1) * pageSize)
      ((page - 1) * pageSize + pageSize - 1), (redis.metadata c user.1).isSome := by
    intro user member
    exact readable user (List.mem_reverse.mp ((List.indexRange_sublist _ _ _).subset member))
  have userIds := map_fst_revRange redis c ((page - 1) * pageSize) ((page - 1) * pageSize + pageSize - 1)
  rw [getLeaderboardPageFromRedis]
  dsimp only
  rw [mapM_liveRow _ _ present, ← userIds]
  simp only [List.map_eq_nil_iff]
  split
  · rfl
  · rw [List.zipIdx_map, List.map_map]
    rfl

/-- A member without an entry makes the pages that contain it fail. -/
theorem getLeaderboardPageFromRedis_ne_ok {u : String} {page pageSize : ℤ}
    (member : u ∈ (redis.members c).indexRange ((page - 1) * pageSize) ((page - 1) * pageSize + pageSize - 1))
    (missing : redis.metadata c u = none) (reply : Option (List LeaderboardRow)) :
    getLeaderboardPageFromRedis redis c page pageSize ≠ .ok reply := by
  intro read
  rw [← map_fst_revRange] at member
  obtain ⟨user, inRange, rfl⟩ := List.mem_map.mp member
  obtain ⟨i, at_⟩ := List.mem_iff_getElem?.mp inRange
  have numbered : (user, i) ∈ ((redis.zsets (getContestLeaderboardKey c)).revRange ((page - 1) * pageSize)
      ((page - 1) * pageSize + pageSize - 1)).zipIdx := List.mem_zipIdx_iff_getElem?.mpr at_
  have entry : redis.hGet (getContestMetadataKey c) user.1 = none := missing
  rw [getLeaderboardPageFromRedis] at read
  dsimp only at read
  rw [if_neg (List.ne_nil_of_mem inRange)] at read
  obtain ⟨rows, ran, _⟩ := Except.map_eq_ok_iff.mp read
  obtain ⟨row, one⟩ := Except.exists_eq_ok_of_mapM ran numbered
  simp only [entry] at one
  contradiction

end Live

end JudgeSelf.LeaderboardService
