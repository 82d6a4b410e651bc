import JudgeSelf.Machine.Run
import JudgeSelf.Model.Leaderboard.Board

/-! # The board of a frozen contest

After a freeze the pages of a contest come from `contest_results` as long as its sorted set stays
absent. No writer looks at `leaderboard_frozen`: a late verdict of the contest, or a recalculation
for a user with a RATED submission in it, brings the sorted set back, and it is never removed.
-/

namespace JudgeSelf.LeaderboardService

/-- What may happen to the stores after a freeze. -/
inductive LaterEvent
  | verdict (verdict : QueueMessage)
  | recalculate (contestId userId : String)
  | submissions (rows : List Submission) (ids : (rows.map Submission.id).Nodup)

def handleLater (stores : Stores) : LaterEvent → Stores
  | .verdict verdict => { stores with redis := processLiveVerdict stores.redis verdict }
  | .recalculate contestId userId => recalculateLiveUserScore stores contestId userId
  | .submissions rows ids =>
    { stores with database := { stores.database with submissions := rows, submissionIds := ids } }

/-- The event is no verdict of the contest and recalculates no user with a RATED submission in it. -/
def Harmless (contestId : String) (stores : Stores) : LaterEvent → Prop
  | .verdict verdict => verdict.contestId ≠ contestId
  | .recalculate c userId => c = contestId → stores.database.ratedOf contestId userId = []
  | .submissions _ _ => True

instance (c : String) (stores : Stores) (event : LaterEvent) : Decidable (Harmless c stores event) :=
  match event with
  | .verdict verdict => inferInstanceAs (Decidable (verdict.contestId ≠ c))
  | .recalculate c' userId =>
    inferInstanceAs (Decidable (c' = c → stores.database.ratedOf c userId = []))
  | .submissions _ _ => isTrue trivial

/-- The page shows the slice of `contest_results` by rank, and their number. -/
def ShowsResults (stores : Stores) (contestId : String) (page pageSize : ℤ) : Prop :=
  let results := (stores.database.resultsOf contestId).sortByKey ContestResult.rank
  ∃ response, getLeaderboardPage stores contestId page pageSize = .ok (.leaderboard response) ∧
    response.leaderboard = ((results.drop ((page - 1) * pageSize).toNat).take pageSize.toNat).map
      (fun result => .stored result.storedRow) ∧
    response.totalParticipants = results.length

/-- Events leave the contests and the results alone. -/
theorem handleLater_database (stores : Stores) (event : LaterEvent) :
    (handleLater stores event).database.contests = stores.database.contests ∧
      (handleLater stores event).database.contestResults = stores.database.contestResults := by
  cases event <;> exact ⟨rfl, rfl⟩

private theorem noBoard_replay {submissions : List SubmissionRow} {redis : Redis} {c u c' : String} :
    (submissions.foldl (fun redis sub => processLiveVerdict redis (sub.verdict c u)) redis).NoBoard c' ↔
      redis.NoBoard c' ∧ (c = c' → submissions = []) := by
  induction submissions generalizing redis with
  | nil => simp
  | cons sub rest ih =>
    rw [List.foldl_cons, ih, noBoard_processLiveVerdict]
    change (redis.NoBoard c' ∧ c ≠ c') ∧ _ ↔ _
    by_cases same : c = c' <;> simp [same]

/-- An event keeps the board of a contest absent exactly when it is harmless. -/
theorem noBoard_handleLater {stores : Stores} {event : LaterEvent} {c : String} :
    (handleLater stores event).redis.NoBoard c ↔ stores.redis.NoBoard c ∧ Harmless c stores event := by
  cases event with
  | verdict verdict => exact noBoard_processLiveVerdict
  | recalculate c' u =>
    simp only [handleLater, recalculateLiveUserScore, noBoard_replay, noBoard_hDel, Harmless]
    refine and_congr_right fun _ => forall_congr' fun same => ?_
    subst same
    exact Database.ratedSubmissionsOf_eq_nil_iff
  | submissions rows ids => simp [handleLater, Harmless]

private theorem noBoard_foldl_handleLater {stores : Stores} {events : List LaterEvent} {c : String} :
    (events.foldl handleLater stores).redis.NoBoard c ↔ stores.redis.NoBoard c ∧
      Machine.Run (Machine.Guarded (fun s e t => t = handleLater s e) (Harmless c)) stores events
        (events.foldl handleLater stores) := by
  induction events generalizing stores with
  | nil => simp [Machine.Run]
  | cons event rest ih =>
    simp only [List.foldl_cons, Machine.Run, Machine.Guarded]
    rw [ih, noBoard_handleLater]
    constructor
    · rintro ⟨⟨none, harmless⟩, run⟩
      exact ⟨none, _, ⟨harmless, rfl⟩, run⟩
    · rintro ⟨none, _, ⟨harmless, rfl⟩, run⟩
      exact ⟨⟨none, harmless⟩, run⟩

/-- Without a sorted set the pages of a frozen contest are the slices of what the freeze wrote. -/
theorem showsResults_of_noBoard {stores : Stores} {database : Database} {c : String} {contest : Contest}
    (none : stores.redis.NoBoard c) (found : stores.database.contest? c = some contest)
    (written : stores.database.resultsOf c = frozenResults c database) {page pageSize : ℤ}
    (first : 1 ≤ page) (positive : 1 ≤ pageSize) : ShowsResults stores c page pageSize := by
  have ordered := pairwise_rank_frozenResults c database
  have start : 0 ≤ (page - 1) * pageSize := Int.mul_nonneg (by omega) (by omega)
  have above : (frozenResults c database).filter (fun result => (page - 1) * pageSize < (result.rank : ℤ)) =
      (frozenResults c database).drop ((page - 1) * pageSize).toNat := by
    rw [← filter_rank_frozenResults]
    apply List.filter_congr
    intro result _
    simp only [decide_eq_decide]
    omega
  refine ⟨_, getLeaderboardPage_of_noBoard none found page pageSize, ?_, ?_⟩
  · rw [getLeaderboardPageFromDB, written, above, List.sortByKey_of_pairwise (ordered.drop),
      List.sortByKey_of_pairwise ordered, List.map_map]
    rfl
  · rw [(List.sortByKey_perm _ _).length_eq]

private theorem foldl_handleLater_database (stores : Stores) (events : List LaterEvent) :
    (events.foldl handleLater stores).database.contests = stores.database.contests ∧
      (events.foldl handleLater stores).database.contestResults = stores.database.contestResults := by
  induction events generalizing stores with
  | nil => exact ⟨rfl, rfl⟩
  | cons event rest ih =>
    obtain ⟨contests, results⟩ := handleLater_database stores event
    rw [List.foldl_cons, (ih _).1, (ih _).2]
    exact ⟨contests, results⟩

/-- Marking contests as frozen removes none of them. -/
theorem exists_contest?_frozenDatabase {database : Database} {c : String}
    (contest : ∃ row ∈ database.contests, row.id = c) :
    ∃ row, (frozenDatabase c database).contest? c = some row := by
  obtain ⟨row, member, rfl⟩ := contest
  rw [← Option.isSome_iff_exists, Database.contest?, List.find?_isSome]
  refine ⟨{ row with leaderboardFrozen := true }, List.mem_map.mpr ⟨row, member, ?_⟩, decide_eq_true rfl⟩
  rw [if_pos rfl]

/-- The board of a frozen contest stays frozen exactly along runs of harmless events. -/
theorem frozen_board_stays_frozen_iff {fault : Option FreezeQuery} {stores frozen : Stores} {c : String}
    (contest : ∃ row ∈ stores.database.contests, row.id = c)
    (freeze : executeContestHardFreeze fault c stores = (.ok (), frozen)) (events : List LaterEvent) :
    (∀ page pageSize, 1 ≤ page → 1 ≤ pageSize →
        ShowsResults (events.foldl handleLater frozen) c page pageSize) ↔
      Machine.Run (Machine.Guarded (fun s e t => t = handleLater s e) (Harmless c)) frozen events
        (events.foldl handleLater frozen) := by
  obtain rfl := executeContestHardFreeze_eq_ok freeze
  set frozen : Stores := ⟨stores.redis.unlink _, frozenDatabase c stores.database⟩
  have unlinked : frozen.redis.NoBoard c := noBoard_unlink _ (by simp)
  have harmless : (events.foldl handleLater frozen).redis.NoBoard c ↔
      Machine.Run (Machine.Guarded (fun s e t => t = handleLater s e) (Harmless c)) frozen events
        (events.foldl handleLater frozen) :=
    noBoard_foldl_handleLater.trans (and_iff_right unlinked)
  rw [← harmless]
  constructor
  · intro shows
    by_contra board
    obtain ⟨response, read, rows, _⟩ := shows 1 1 le_rfl le_rfl
    obtain ⟨row, rest, live⟩ := getLeaderboardPage_of_board board read
    rw [live] at rows
    obtain ⟨result, _, stored⟩ := List.mem_map.mp (rows ▸ List.mem_cons_self)
    contradiction
  · intro none page pageSize first positive
    obtain ⟨contests, results⟩ := foldl_handleLater_database frozen events
    obtain ⟨row, found⟩ := exists_contest?_frozenDatabase contest
    have present : (events.foldl handleLater frozen).database.contest? c = some row := by
      rw [Database.contest?, contests]
      exact found
    have written : (events.foldl handleLater frozen).database.resultsOf c = frozenResults c stores.database := by
      rw [Database.resultsOf, results]
      exact resultsOf_frozenDatabase c stores.database
    exact showsResults_of_noBoard none present written first positive

/-- A contest with one accepted RATED submission, one minute after its start. -/
def finishedContest : Stores where
  redis := Redis.empty
  database :=
    { contests := [⟨"7", 0, 3600000000, false⟩]
      problems := [⟨"p", "7"⟩]
      submissions := [⟨1, "p", "u", "RATED", "AC", 60000000⟩]
      contestResults := []
      problemIds := List.nodup_singleton "p" }

/-- What the freeze leaves of it. -/
def frozenContest : Stores := (executeContestHardFreeze none "7" finishedContest).2

theorem finishedContest_freezes : executeContestHardFreeze none "7" finishedContest = (.ok (), frozenContest) :=
  Prod.ext (by decide +kernel) rfl

/-- A verdict of another contest leaves the frozen pages in place. -/
theorem finishedContest_stays_frozen :
    ShowsResults (handleLater frozenContest (.verdict ⟨"2", "8", "u", "q", "AC", 60⟩)) "7" 1 10 :=
  (@frozen_board_stays_frozen_iff _ finishedContest _ _ (by decide) finishedContest_freezes
    [.verdict ⟨"2", "8", "u", "q", "AC", 60⟩]).mpr ⟨_, ⟨by decide, rfl⟩, rfl⟩ 1 10 (by decide) (by decide)

/-- The verdict of the contest's own submission, handled after the freeze, brings the live board back. -/
theorem late_verdict_revives_board :
    executeContestHardFreeze none "7" finishedContest = (.ok (), frozenContest) ∧
      ShowsResults frozenContest "7" 1 10 ∧
      ¬ ShowsResults (handleLater frozenContest (.verdict ⟨"1", "7", "u", "p", "AC", 60⟩)) "7" 1 10 := by
  have stored : getLeaderboardPage frozenContest "7" 1 10 = .ok (.leaderboard
      { leaderboard := [.stored ⟨1, "u", 1, "60", Record.empty.set "p" ⟨true, 0, 60, [⟨"1", 60, "AC"⟩]⟩⟩]
        currentPage := 1
        totalPages := 1
        totalParticipants := 1 }) := by decide +kernel
  have live : getLeaderboardPage (handleLater frozenContest (.verdict ⟨"1", "7", "u", "p", "AC", 60⟩)) "7" 1 10 =
      .ok (.leaderboard
      { leaderboard := [.live ⟨1, "u", 9999940, 1, 60,
          Record.empty.set "p" ⟨true, 0, 60, [⟨"1", 60, "AC"⟩]⟩⟩]
        currentPage := 1
        totalPages := 1
        totalParticipants := 1 }) := by decide +kernel
  refine ⟨finishedContest_freezes, ⟨_, stored, by decide +kernel, by decide +kernel⟩, ?_⟩
  rintro ⟨response, read, rows, _⟩
  obtain rfl := PageReply.leaderboard.inj (Except.ok.inj (live.symm.trans read))
  revert rows
  decide +kernel

end JudgeSelf.LeaderboardService
