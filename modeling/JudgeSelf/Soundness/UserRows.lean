import JudgeSelf.Model.Leaderboard.UserRow
import JudgeSelf.Soundness.Pages

/-! # Rows of users and rows of pages

The row of a user is computed next to the pages, from the reverse rank instead of a reverse range, and
with its own way back to `contest_results`. On a live board the two agree except for the first user,
whose rank is falsy. Of a frozen board neither shows what the freeze computed: no query selects the
score, and the penalty comes back as text.
-/

namespace JudgeSelf.LeaderboardService

variable {stores : Stores} {c u : String} {pageSize : ℕ}

/-- The page from one on shows the live row. -/
def OnPage (stores : Stores) (contestId : String) (pageSize page : ℕ) (row : LeaderboardRow) : Prop :=
  1 ≤ page ∧ ∃ response, getLeaderboardPage stores contestId page pageSize = .ok (.leaderboard response) ∧
    PageRow.live row ∈ response.leaderboard

/-- The user is on one page, and the row there is what the user's own row shows. -/
def AgreesWithPage (stores : Stores) (contestId userId : String) (pageSize : ℕ) : Prop :=
  ∃ page row, OnPage stores contestId pageSize page row ∧ row.userId = userId ∧
    (∀ otherPage other, OnPage stores contestId pageSize otherPage other → other.userId = userId →
      otherPage = page ∧ other = row) ∧
    ∃ own, getUserLeaderboardRow stores contestId userId = some own ∧ own.Shows row

/-- The rows of the whole board on the pages that they stand on. -/
theorem onPage_iff (live : LiveBoard stores c) (positive : 1 ≤ pageSize) {page : ℕ} {row : LeaderboardRow} :
    OnPage stores c pageSize page row ↔ 1 ≤ page ∧ row ∈ (stores.redis.boardRows c).page pageSize (page - 1) := by
  refine and_congr_right fun from_ => ?_
  obtain ⟨i, rfl⟩ : ∃ i, page = i + 1 := ⟨page - 1, by omega⟩
  rw [Nat.add_sub_cancel]
  by_cases inside : i < List.pageCount (stores.redis.boardRows c).length pageSize
  · have read := getLeaderboardPage_of_live live positive inside
    constructor
    · rintro ⟨response, again, member⟩
      obtain rfl := PageReply.leaderboard.inj (Except.ok.inj (read.symm.trans again))
      obtain ⟨_, present, same⟩ := List.mem_map.mp member
      exact PageRow.live.inj same ▸ present
    · exact fun member => ⟨_, read, List.mem_map_of_mem member⟩
  · have empty : (stores.redis.boardRows c).page pageSize i = [] := by
      by_contra some
      exact inside ((List.page_ne_nil_iff positive).mp some)
    rw [empty]
    refine iff_of_false ?_ List.not_mem_nil
    rintro ⟨response, read, member⟩
    rw [getLeaderboardPage, getLeaderboardPageFromRedis_succ live.2 positive, if_pos empty] at read
    simp only [bind, Except.bind] at read
    split at read
    · cases Except.ok.inj read
    · obtain rfl := PageReply.leaderboard.inj (Except.ok.inj read)
      obtain ⟨_, _, same⟩ := List.mem_map.mp member
      contradiction

/-- The row of a user is the one at the place of the user. -/
theorem getElem?_boardRows {redis : Redis} {k : ℕ} {row : LeaderboardRow} :
    (redis.boardRows c)[k]? = some row ↔
      (redis.members c)[k]? = some row.userId ∧ row = redis.rowOf c row.userId (k + 1) := by
  simp only [Redis.boardRows, List.getElem?_map, List.getElem?_zipIdx, Option.map_map, Option.map_eq_some_iff,
    Function.comp_apply, Nat.zero_add]
  constructor
  · rintro ⟨userId, stands, rfl⟩
    exact ⟨stands, rfl⟩
  · rintro ⟨stands, same⟩
    exact ⟨row.userId, stands, same.symm⟩

/-- A user's own row agrees with the board exactly if the user is not the first of it. -/
theorem own_row_agrees_iff (live : LiveBoard stores c) (member : u ∈ stores.redis.members c)
    (positive : 1 ≤ pageSize) : AgreesWithPage stores c u pageSize ↔
      (stores.redis.zsets (getContestLeaderboardKey c)).revRank u ≠ some 0 := by
  obtain ⟨k, stands⟩ := List.mem_iff_getElem?.mp member
  have rank := revRank_eq_some_iff.mpr stands
  rw [rank, ne_eq, Option.some_inj]
  constructor
  · rintro ⟨page, row, _, _, _, own, read, shows⟩ rfl
    rw [getUserLeaderboardRow_of_falsy (.inr rank), Option.map_eq_some_iff] at read
    obtain ⟨result, _, rfl⟩ := read
    exact not_shows_of_undefined (field_score_userRowOf_select result) row shows
  · intro behind
    obtain ⟨metadata, stored⟩ := Option.isSome_iff_exists.mp (readable_iff.mp live.2 u (mem_members.mp member))
    have split := Nat.div_add_mod' k pageSize
    have rest := Nat.mod_lt k positive
    refine ⟨k / pageSize + 1, stores.redis.rowOf c u (k + 1), ?_, rfl, ?_, _,
      getUserLeaderboardRow_of_revRank rank behind stored, ?_⟩
    · rw [onPage_iff live positive, Nat.add_sub_cancel, List.mem_page_iff]
      exact ⟨Nat.succ_pos _, k, getElem?_boardRows.mpr ⟨stands, rfl⟩, by omega, by omega⟩
    · intro otherPage other shown own
      rw [onPage_iff live positive, List.mem_page_iff] at shown
      obtain ⟨from_, j, at_, low, high⟩ := shown
      obtain ⟨there, same⟩ := getElem?_boardRows.mp at_
      obtain rfl : j = k := by
        rw [own] at there
        exact Option.some_inj.mp ((revRank_eq_some_iff.mpr there).symm.trans rank)
      refine ⟨?_, own ▸ same⟩
      have quotient : j / pageSize = otherPage - 1 :=
        Nat.div_eq_of_lt_le low (by rw [Nat.succ_mul]; exact high)
      omega
    · rw [Redis.rowOf, stored]
      exact shows_object _

/-- The second of two users reads the row of the second page. -/
theorem second_row_agrees : AgreesWithPage twoBoards "6" "u" 1 :=
  (own_row_agrees_iff liveBoard_twoBoards (by decide +kernel) (Nat.le_refl 1)).mpr (by decide +kernel)

/-- The first of two users has no row. -/
theorem first_row_missing : LiveBoard twoBoards "6" ∧ "v" ∈ twoBoards.redis.members "6" ∧
    getUserLeaderboardRow twoBoards "6" "v" = none ∧ ¬ AgreesWithPage twoBoards "6" "v" 1 := by
  have missing : getUserLeaderboardRow twoBoards "6" "v" = none := by decide +kernel
  refine ⟨liveBoard_twoBoards, by decide +kernel, missing, ?_⟩
  rintro ⟨_, _, _, _, _, own, read, _⟩
  rw [missing] at read
  contradiction

/-- The row of the values that a freeze has written. -/
def ContestResult.leaderboardRow (result : ContestResult) : LeaderboardRow where
  rank := result.rank
  userId := result.userId
  score := result.score
  problemsSolved := result.problemsSolved
  penalty := result.penalty
  problemDetails := result.problemDetails

/-- The page of the result's rank shows the written values. -/
def PageShows (stores : Stores) (contestId : String) (pageSize : ℕ) (result : ContestResult) : Prop :=
  ∃ response, getLeaderboardPage stores contestId (List.pageCount result.rank pageSize : ℕ) pageSize =
      .ok (.leaderboard response) ∧
    ∃ row ∈ response.leaderboard, row.object.Shows result.leaderboardRow

/-- The user's own row shows the written values. -/
def OwnShows (stores : Stores) (contestId : String) (result : ContestResult) : Prop :=
  ∃ own, getUserLeaderboardRow stores contestId result.userId = some own ∧ own.Shows result.leaderboardRow

/-- Without a sorted set every row of a page is one of `contest_results`. -/
theorem field_score_page {page size : ℤ} {response : Leaderboard} (none : stores.redis.NoBoard c)
    (read : getLeaderboardPage stores c page size = .ok (.leaderboard response)) :
    ∀ row ∈ response.leaderboard, row.object.field "score" = .undefined := by
  rw [getLeaderboardPage, getLeaderboardPageFromRedis_of_noBoard none] at read
  dsimp only [bind, Except.bind] at read
  split at read
  · cases Except.ok.inj read
  · obtain rfl := PageReply.leaderboard.inj (Except.ok.inj read)
    intro row member
    obtain ⟨stored, _, rfl⟩ := List.mem_map.mp member
    exact field_score_storedRow stored

/-- Without a sorted set the own row of a user is one of `contest_results`. -/
theorem field_score_own {own : RowObject} (none : stores.redis.NoBoard c)
    (read : getUserLeaderboardRow stores c u = some own) : own.field "score" = .undefined := by
  have absent : (stores.redis.zsets (getContestLeaderboardKey c)).revRank u = .none := by
    by_contra ranked
    obtain ⟨k, rank⟩ := Option.ne_none_iff_exists'.mp ranked
    have member := List.mem_of_getElem? (revRank_eq_some_iff.mp rank)
    rw [noBoard_iff_members.mp none] at member
    exact absurd member List.not_mem_nil
  rw [getUserLeaderboardRow_of_falsy (.inl absent), Option.map_eq_some_iff] at read
  obtain ⟨result, _, rfl⟩ := read
  exact field_score_userRowOf_select result

/-- What a freeze has written for a user is shown on no page and in no own row. -/
theorem frozen_rows_not_shown {fault : Option FreezeQuery} {stores final : Stores} {c : String}
    {result : ContestResult} (freeze : executeContestHardFreeze fault c stores = (.ok (), final))
    (written : result ∈ final.database.resultsOf c) (pageSize : ℕ) :
    ¬ PageShows final c pageSize result ∧ ¬ OwnShows final c result := by
  obtain rfl := executeContestHardFreeze_eq_ok freeze
  have none : (stores.redis.unlink [getContestMetadataKey c, getContestLeaderboardKey c]).NoBoard c :=
    noBoard_unlink _ (by simp)
  constructor
  · rintro ⟨response, read, row, member, shows⟩
    exact not_shows_of_undefined (field_score_page none read row member) _ shows
  · rintro ⟨own, read, shows⟩
    exact not_shows_of_undefined (field_score_own none read) _ shows

/-- The result of the only user of a frozen contest. -/
def onlyResult : ContestResult :=
  ⟨"7", "u", 1, 9999940, 1, 60, Record.empty.set "p" ⟨true, 0, 60, [⟨"1", 60, "AC"⟩]⟩⟩

theorem onlyResult_not_shown : ¬ PageShows frozenContest "7" 10 onlyResult ∧ ¬ OwnShows frozenContest "7" onlyResult :=
  frozen_rows_not_shown finishedContest_freezes (by decide +kernel) 10

/-- The page has the column names of the table, both rows have the penalty as text and no score. -/
theorem onlyResult_shown_as_stored :
    (∃ response, getLeaderboardPage frozenContest "7" 1 10 = .ok (.leaderboard response) ∧
      response.leaderboard.map PageRow.object = [Record.ofList [("rank", .number 1), ("user_id", .string "u"),
        ("problems_solved", .number 1), ("penalty", .string "60"),
        ("problem_details", .frozenDetails onlyResult.problemDetails)]]) ∧
      getUserLeaderboardRow frozenContest "7" "u" = some (Record.ofList [("rank", .number 1), ("userId", .string "u"),
        ("score", .undefined), ("problemsSolved", .number 1), ("penalty", .string "60"),
        ("problemDetails", .frozenDetails onlyResult.problemDetails)]) ∧
      ¬ (PageShows frozenContest "7" 10 onlyResult ∧ OwnShows frozenContest "7" onlyResult) := by
  have page : getLeaderboardPage frozenContest "7" 1 10 = .ok (.leaderboard
      { leaderboard := [.stored onlyResult.storedRow]
        currentPage := 1
        totalPages := 1
        totalParticipants := 1 }) := by decide +kernel
  have own : getUserLeaderboardRow frozenContest "7" "u" = some (userRowOf onlyResult.storedRow.object) := by
    decide +kernel
  refine ⟨⟨_, page, rfl⟩, own, ?_⟩
  rintro ⟨_, row, read, shows⟩
  obtain rfl := Option.some_inj.mp (own.symm.trans read)
  exact not_shows_of_undefined rfl _ shows

end JudgeSelf.LeaderboardService
