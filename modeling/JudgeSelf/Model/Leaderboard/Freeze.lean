import JudgeSelf.Model.Leaderboard.Database
import JudgeSelf.ToMathlib.Except

/-! # Freezing a contest

Model of `executeContestHardFreeze`. A fault makes one statement of the function throw; the queries up to
`COMMIT` work on a copy of the database that only the commit publishes. A statement may throw although it is
executed, when its reply is lost; up to the commit this makes no difference. The `unlink` comes after the
commit, so that its failure throws with the database already changed.
-/

namespace JudgeSelf.LeaderboardService

/-- Everything the leaderboard service keeps. -/
structure Stores where
  redis : Redis
  database : Database

/-- The statements of the freeze that may throw. -/
inductive FreezeQuery
  | begin
  | selectSubmissions
  | deleteResults
  | insertResult (i : ℕ)
  | updateContest
  | commit
  /-- The reply to `COMMIT`. -/
  | commitReply
  | unlink
  /-- The reply to `unlink`. -/
  | unlinkReply
deriving DecidableEq, Repr

/-- What throws when the transaction is committed already. -/
def FreezeQuery.AfterCommit (query : FreezeQuery) : Prop :=
  query = .commitReply ∨ query = .unlink ∨ query = .unlinkReply

instance (query : FreezeQuery) : Decidable query.AfterCommit := inferInstanceAs (Decidable (_ ∨ _))

structure StandingEntry where
  userId : String
  scoreData : UserScore
deriving DecidableEq

/-- One pass of the aggregation loop. The pushes are those of the script. The id of a row is a number, kept here as the
text that the other services have of it. -/
def aggregateRow (contestId : String) (aggregateState : Record String UserContestMetadata)
    (row : SubmissionRow) : Record String UserContestMetadata :=
  let entry := (aggregateState.get? row.userId).getD UserContestMetadata.initial
  aggregateState.set row.userId (entry.record (row.verdict contestId row.userId))

def aggregate (contestId : String) (rows : List SubmissionRow) : Record String UserContestMetadata :=
  rows.foldl (aggregateRow contestId) Record.empty

/-- The standings of the submission rows, by descending score. -/
def freezeStandings (contestId : String) (rows : List SubmissionRow) : List StandingEntry :=
  ((aggregate contestId rows).entries.map fun (userId, metadata) =>
    (⟨userId, computeUserScores metadata⟩ : StandingEntry)).sortByKey fun entry => -entry.scoreData.score

def StandingEntry.result (contestId : String) (entry : StandingEntry) (i : ℕ) : ContestResult where
  contestId := contestId
  userId := entry.userId
  rank := i + 1
  score := entry.scoreData.score
  problemsSolved := entry.scoreData.solved
  penalty := entry.scoreData.penalty
  problemDetails := entry.scoreData.details

/-- A statement that throws when it is the faulty one. -/
def runQuery {α : Type} (fault : Option FreezeQuery) (query : FreezeQuery) (result : α) :
    Except FreezeQuery α :=
  if fault = some query then .error query else .ok result

/-- The transaction, on a copy of the database. -/
def freezeTransaction (fault : Option FreezeQuery) (contestId : String) (database : Database) :
    Except FreezeQuery Database := do
  runQuery fault .begin ()
  let rows ← runQuery fault .selectSubmissions (database.ratedSubmissions contestId)
  let standings := freezeStandings contestId rows
  let cleared ← runQuery fault .deleteResults (database.deleteContestResults contestId)
  let inserted ← standings.zipIdx.foldlM (fun (db : Database) (entry, i) =>
    runQuery fault (.insertResult i) (db.insertContestResult (entry.result contestId i))) cleared
  let updated ← runQuery fault .updateContest (inserted.setLeaderboardFrozen contestId)
  runQuery fault .commit updated

def executeContestHardFreeze (fault : Option FreezeQuery) (contestId : String) (stores : Stores) :
    Except FreezeQuery Unit × Stores :=
  match freezeTransaction fault contestId stores.database with
  | .error query => (.error query, stores)
  | .ok database =>
    let keys := [getContestMetadataKey contestId, getContestLeaderboardKey contestId]
    if fault = some .commitReply then (.error .commitReply, ⟨stores.redis, database⟩)
    else if fault = some .unlink then (.error .unlink, ⟨stores.redis, database⟩)
    else if fault = some .unlinkReply then (.error .unlinkReply, ⟨stores.redis.unlink keys, database⟩)
    else (.ok (), ⟨stores.redis.unlink keys, database⟩)

/-- The rows that the inserts write. -/
def frozenResults (contestId : String) (database : Database) : List ContestResult :=
  (freezeStandings contestId (database.ratedSubmissions contestId)).zipIdx.map fun (entry, i) =>
    entry.result contestId i

/-- The database after the whole transaction. -/
def frozenDatabase (contestId : String) (database : Database) : Database :=
  { database.setLeaderboardFrozen contestId with
    contestResults := (database.deleteContestResults contestId).contestResults ++
      frozenResults contestId database }

theorem runQuery_eq_ok_iff {α : Type} {fault : Option FreezeQuery} {query : FreezeQuery} {a b : α} :
    runQuery fault query a = .ok b ↔ fault ≠ some query ∧ a = b := by
  rw [runQuery]
  split
  · simp [*]
  · simp [*]

private theorem foldl_insert (contestId : String) (standings : List (StandingEntry × ℕ)) (start : Database) :
    standings.foldl (fun (db : Database) (entry : StandingEntry × ℕ) =>
        db.insertContestResult (entry.1.result contestId entry.2)) start =
      { start with contestResults := start.contestResults ++
          standings.map fun entry => entry.1.result contestId entry.2 } := by
  induction standings generalizing start with
  | nil => simp
  | cons entry rest ih =>
    rw [List.foldl_cons, ih]
    simp [Database.insertContestResult]

theorem freezeTransaction_eq_ok {fault : Option FreezeQuery} {contestId : String} {database final : Database}
    (ran : freezeTransaction fault contestId database = .ok final) :
    final = frozenDatabase contestId database := by
  simp only [freezeTransaction, bind, Except.bind_eq_ok_iff, runQuery_eq_ok_iff] at ran
  obtain ⟨_, _, rows, ⟨_, rfl⟩, cleared, ⟨_, rfl⟩, inserted, folded, updated, ⟨_, rfl⟩, _, rfl⟩ := ran
  have written := Except.foldlM_eq_ok (g := fun (db : Database) (entry : StandingEntry × ℕ) =>
    db.insertContestResult (entry.1.result contestId entry.2))
    (fun _ _ _ success => (runQuery_eq_ok_iff.mp success).2.symm) folded
  rw [written, foldl_insert]
  rfl

/-- A transaction none of whose statements is the faulty one is committed. -/
theorem freezeTransaction_of_clear {fault : Option FreezeQuery} (clear : ∀ query ∈ fault, query.AfterCommit)
    (contestId : String) (database : Database) :
    freezeTransaction fault contestId database = .ok (frozenDatabase contestId database) := by
  have inserts (l : List (StandingEntry × ℕ)) (start : Database) :
      l.foldlM (fun (db : Database) (entry : StandingEntry × ℕ) => (Except.ok
          (db.insertContestResult (entry.1.result contestId entry.2)) : Except FreezeQuery Database)) start =
        .ok (l.foldl (fun db entry => db.insertContestResult (entry.1.result contestId entry.2)) start) :=
    List.foldlM_pure
  have succeeds : ∃ final, freezeTransaction fault contestId database = .ok final := by
    have behind : fault = none ∨ fault = some .commitReply ∨ fault = some .unlink ∨ fault = some .unlinkReply := by
      cases fault with
      | none => exact .inl rfl
      | some query => exact .inr (by simpa only [Option.some_inj, FreezeQuery.AfterCommit] using clear query rfl)
    rcases behind with rfl | rfl | rfl | rfl <;>
      simp only [freezeTransaction, runQuery, reduceCtorEq, Option.some.injEq, ↓reduceIte, bind, Except.bind,
        inserts, Except.ok.injEq, exists_eq']
  obtain ⟨final, ran⟩ := succeeds
  rw [ran, freezeTransaction_eq_ok ran]

/-- A freeze without faults. -/
theorem executeContestHardFreeze_none (contestId : String) (stores : Stores) :
    executeContestHardFreeze none contestId stores = (.ok (),
      ⟨stores.redis.unlink [getContestMetadataKey contestId, getContestLeaderboardKey contestId],
        frozenDatabase contestId stores.database⟩) := by
  rw [executeContestHardFreeze, freezeTransaction_of_clear (by simp)]
  rfl

/-- What throws after the commit throws with the database changed. -/
theorem executeContestHardFreeze_of_afterCommit {query : FreezeQuery} (behind : query.AfterCommit) (contestId : String)
    (stores : Stores) : ∃ redis, executeContestHardFreeze (some query) contestId stores =
      (.error query, ⟨redis, frozenDatabase contestId stores.database⟩) := by
  rw [executeContestHardFreeze, freezeTransaction_of_clear (by simpa using behind)]
  rcases behind with rfl | rfl | rfl
  · exact ⟨_, rfl⟩
  · exact ⟨_, rfl⟩
  · exact ⟨_, rfl⟩

/-- A freeze that returns has committed the whole transaction and removed both keys. -/
theorem executeContestHardFreeze_eq_ok {fault : Option FreezeQuery} {contestId : String} {stores final : Stores}
    (ran : executeContestHardFreeze fault contestId stores = (.ok (), final)) :
    final = ⟨stores.redis.unlink [getContestMetadataKey contestId, getContestLeaderboardKey contestId],
      frozenDatabase contestId stores.database⟩ := by
  rw [executeContestHardFreeze] at ran
  split at ran
  · cases (Prod.mk.inj ran).1
  · next database committed =>
    obtain rfl := freezeTransaction_eq_ok committed
    dsimp only at ran
    split_ifs at ran
    · cases (Prod.mk.inj ran).1
    · cases (Prod.mk.inj ran).1
    · cases (Prod.mk.inj ran).1
    · exact (Prod.mk.inj ran).2.symm

theorem resultsOf_frozenDatabase (contestId : String) (database : Database) :
    (frozenDatabase contestId database).resultsOf contestId = frozenResults contestId database := by
  rw [Database.resultsOf, frozenDatabase, List.filter_append]
  have others : (database.deleteContestResults contestId).contestResults.filter
      (fun result => result.contestId = contestId) = [] := by
    simp [Database.deleteContestResults]
  have mine : (frozenResults contestId database).filter (fun result => result.contestId = contestId) =
      frozenResults contestId database := by
    apply List.filter_eq_self.mpr
    intro result member
    obtain ⟨entry, _, rfl⟩ := List.mem_map.mp member
    exact decide_eq_true rfl
  rw [others, mine, List.nil_append]

private theorem filter_zipIdx_rank {α : Type*} (l : List α) (start k : ℕ) :
    (l.zipIdx start).filter (fun e => start + k < e.2 + 1) = (l.zipIdx start).drop k := by
  induction l generalizing start k with
  | nil => simp
  | cons a l ih =>
    cases k with
    | zero =>
      refine (List.filter_eq_self.mpr fun e member => ?_).trans (List.drop_zero).symm
      have := List.le_snd_of_mem_zipIdx member
      simp only [decide_eq_true_eq]
      omega
    | succ k =>
      have shift : (l.zipIdx (start + 1)).filter (fun e => start + (k + 1) < e.2 + 1) =
          (l.zipIdx (start + 1)).filter (fun e => start + 1 + k < e.2 + 1) :=
        List.filter_congr fun e _ => by simp only [decide_eq_decide]; omega
      rw [List.zipIdx_cons, List.filter_cons_of_neg (by simp), List.drop_succ_cons, shift, ih]

/-- Rows with a rank above `k` are the rows after the first `k`. -/
theorem filter_rank_frozenResults (contestId : String) (database : Database) (k : ℕ) :
    (frozenResults contestId database).filter (fun result => k < result.rank) =
      (frozenResults contestId database).drop k := by
  have ranked := filter_zipIdx_rank (freezeStandings contestId (database.ratedSubmissions contestId)) 0 k
  simp only [Nat.zero_add] at ranked
  rw [frozenResults, List.filter_map, ← List.map_drop, ← ranked]
  rfl

/-- The rows are written in the order of their ranks. -/
theorem pairwise_rank_frozenResults (contestId : String) (database : Database) :
    (frozenResults contestId database).Pairwise fun a b => a.rank ≤ b.rank := by
  have positions : ((freezeStandings contestId (database.ratedSubmissions contestId)).zipIdx.map
      Prod.snd).Pairwise (· < ·) := by
    rw [List.zipIdx_map_snd]
    exact List.pairwise_lt_range'
  rw [frozenResults, List.pairwise_map]
  apply (List.pairwise_map.mp positions).imp
  intro a b earlier
  exact Nat.succ_le_succ earlier.le

end JudgeSelf.LeaderboardService
