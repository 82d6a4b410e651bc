import JudgeSelf.Soundness.FreezeResults
import JudgeSelf.Soundness.FrozenBoard

/-! # Pages of a leaderboard

A live page is an index range of the sorted set, a frozen page the rows of `contest_results` behind a
rank. With page numbers from one on both cut the board into consecutive slices. No handler checks the
page number, and Redis counts negative indices from the end of the set, so that a page from zero down
shows members from the end, numbered from the start index.
-/

namespace JudgeSelf.LeaderboardService

def PageRow.rank : PageRow → ℤ
  | .live row => row.rank
  | .stored row => row.rank

def PageRow.userId : PageRow → String
  | .live row => row.userId
  | .stored row => row.user_id

/-- The pages that a contest shows, one after another, list the participants in the order of their ranks. -/
structure Tiles (stores : Stores) (contestId : String) (pageSize : ℕ) (participants : List String)
    (pages : List (List PageRow)) : Prop where
  totals : ∀ page response, getLeaderboardPage stores contestId page pageSize = .ok (.leaderboard response) →
    response.totalPages = pages.length ∧ response.totalParticipants = participants.length
  shown : ∀ (i : ℕ) rows, pages[i]? = some rows → ∃ response,
    getLeaderboardPage stores contestId (i + 1) pageSize = .ok (.leaderboard response) ∧ response.leaderboard = rows
  once : participants.Nodup
  users : pages.flatten.map PageRow.userId = participants
  ranks : pages.flatten.map PageRow.rank = (List.range' 1 participants.length).map Nat.cast
  full : ∀ page ∈ pages.dropLast, page.length = pageSize
  rest : ∀ page ∈ pages.getLast?, 1 ≤ page.length ∧ page.length ≤ pageSize

/-- The sorted set of the contest has members, all of them with metadata. -/
def LiveBoard (stores : Stores) (contestId : String) : Prop :=
  ¬ stores.redis.NoBoard contestId ∧ stores.redis.Readable contestId

/-- The contest has no sorted set and the results of a freeze; a result refers to a contest. -/
def FrozenBoard (stores : Stores) (contestId : String) : Prop :=
  stores.redis.NoBoard contestId ∧
    (∃ database, stores.database.resultsOf contestId = frozenResults contestId database) ∧
    (stores.database.resultsOf contestId ≠ [] → ∃ contest, stores.database.contest? contestId = some contest)

/-- The participants of a board in the order of their ranks. -/
def participants (stores : Stores) (contestId : String) : List String :=
  if stores.redis.members contestId = [] then (stores.database.resultsOf contestId).map ContestResult.userId
  else stores.redis.members contestId

variable {redis : Redis} {stores : Stores} {c : String} {pageSize : ℕ}

/-- The announced number of pages is that of the slices. -/
theorem totalPages_eq (n : ℕ) (positive : 1 ≤ pageSize) :
    ((n + pageSize - 1 : ℤ) / pageSize) = (List.pageCount n pageSize : ℕ) := by
  have whole : (n + pageSize - 1 : ℤ) = (n + pageSize - 1 : ℕ) := by omega
  rw [whole, List.pageCount]
  norm_cast

/-- Where each request shows a slice of the same rows, the pages tile them. -/
theorem tiles_of_slices {rows : List PageRow} (positive : 1 ≤ pageSize)
    (totals : ∀ page response, getLeaderboardPage stores c page pageSize = .ok (.leaderboard response) →
      response.totalPages = List.pageCount rows.length pageSize ∧ response.totalParticipants = rows.length)
    (shown : ∀ i < List.pageCount rows.length pageSize, ∃ response,
      getLeaderboardPage stores c (i + 1 : ℕ) pageSize = .ok (.leaderboard response) ∧
        response.leaderboard = rows.page pageSize i)
    (once : (rows.map PageRow.userId).Nodup)
    (ranks : rows.map PageRow.rank = (List.range' 1 rows.length).map Nat.cast) :
    Tiles stores c pageSize (rows.map PageRow.userId) (rows.pages pageSize) where
  totals page response read := by
    rw [List.length_pages, List.length_map]
    exact totals page response read
  shown i page at_ := by
    obtain ⟨inside, rfl⟩ := List.getElem?_pages_eq_some_iff.mp at_
    exact shown i inside
  once := once
  users := by rw [List.flatten_pages positive]
  ranks := by rw [List.flatten_pages positive, ranks, List.length_map]
  full _ member := List.length_of_mem_dropLast_pages positive member
  rest _ member := List.length_of_mem_pages positive (List.mem_of_getLast? member)

/-- The pages of a readable board from one on are the slices of its rows. -/
theorem getLeaderboardPageFromRedis_succ (readable : redis.Readable c) (positive : 1 ≤ pageSize) (i : ℕ) :
    getLeaderboardPageFromRedis redis c (i + 1 : ℕ) pageSize =
      .ok (if (redis.boardRows c).page pageSize i = [] then none else some ((redis.boardRows c).page pageSize i)) := by
  have startIdx : ((i + 1 : ℕ) - 1 : ℤ) * pageSize = (i * pageSize : ℕ) := by push_cast; ring
  have rows : (((redis.members c).page pageSize i).zipIdx.map fun e =>
      redis.rowOf c e.1 ((i * pageSize : ℕ) + e.2 + 1)) = (redis.boardRows c).page pageSize i := by
    have sliced := List.map_zipIdx_slice (fun userId k => redis.rowOf c userId (k + 1)) (redis.members c)
      (i * pageSize) pageSize
    rw [Redis.boardRows, List.page, List.page, ← sliced]
    exact List.map_congr_left fun e _ => by push_cast; rfl
  rw [getLeaderboardPageFromRedis_of_readable readable, startIdx]
  dsimp only
  rw [List.indexRange_of_nonneg _ _ positive, ← List.page, rows]
  refine congrArg Except.ok (if_congr ?_ rfl rfl)
  rw [← rows, List.map_eq_nil_iff, List.zipIdx_eq_nil_iff]

private theorem length_boardRows (redis : Redis) (c : String) :
    (redis.boardRows c).length = (redis.members c).length := by
  rw [Redis.boardRows, List.length_map, List.length_zipIdx]

private theorem getTotalLeaderboardEntries_of_board (board : ¬ stores.redis.NoBoard c) :
    getTotalLeaderboardEntries stores c = (stores.redis.boardRows c).length := by
  rw [getTotalLeaderboardEntries, length_boardRows, length_members]
  exact if_pos fun none => board (SortedSet.card_eq_zero_iff.mp none)

theorem map_userId_boardRows (redis : Redis) (c : String) :
    (redis.boardRows c).map LeaderboardRow.userId = redis.members c := by
  rw [Redis.boardRows, List.map_map]
  exact List.zipIdx_map_fst 0 _

private theorem map_rank_boardRows (redis : Redis) (c : String) :
    (redis.boardRows c).map LeaderboardRow.rank = (List.range' 1 (redis.boardRows c).length).map Nat.cast := by
  have positions : ((redis.members c).zipIdx.map Prod.snd).map (fun k => ((1 + k : ℕ) : ℤ)) =
      (redis.boardRows c).map LeaderboardRow.rank := by
    rw [Redis.boardRows, List.map_map, List.map_map]
    refine List.map_congr_left fun e _ => ?_
    change ((1 + e.2 : ℕ) : ℤ) = e.2 + 1
    omega
  have numbered : (fun k : ℕ => ((1 + k : ℕ) : ℤ)) = Nat.cast ∘ (1 + ·) := rfl
  rw [← positions, List.zipIdx_map_snd, length_boardRows, numbered, ← List.map_map, List.map_add_range']

/-- A page of a live board from one on. -/
theorem getLeaderboardPage_of_live (live : LiveBoard stores c) (positive : 1 ≤ pageSize) {i : ℕ}
    (inside : i < List.pageCount (stores.redis.boardRows c).length pageSize) :
    getLeaderboardPage stores c (i + 1 : ℕ) pageSize = .ok (.leaderboard
      { leaderboard := ((stores.redis.boardRows c).page pageSize i).map .live
        currentPage := (i + 1 : ℕ)
        totalPages := ((stores.redis.boardRows c).length + pageSize - 1) / pageSize
        totalParticipants := (stores.redis.boardRows c).length }) := by
  rw [getLeaderboardPage, getLeaderboardPageFromRedis_succ live.2 positive,
    if_neg ((List.page_ne_nil_iff positive).mpr inside), getTotalLeaderboardEntries_of_board live.1]
  rfl

/-- Every response announces the number of entries and of pages. -/
theorem totals_of_getLeaderboardPage {page size : ℤ} {response : Leaderboard}
    (read : getLeaderboardPage stores c page size = .ok (.leaderboard response)) :
    response.totalPages = (getTotalLeaderboardEntries stores c + size - 1) / size ∧
      response.totalParticipants = getTotalLeaderboardEntries stores c := by
  obtain ⟨reply, _, answered⟩ := Except.bind_eq_ok_iff.mp read
  cases reply with
  | some rows =>
    obtain rfl := PageReply.leaderboard.inj (Except.ok.inj answered)
    exact ⟨rfl, rfl⟩
  | none =>
    dsimp only at answered
    split at answered
    · cases Except.ok.inj answered
    · obtain rfl := PageReply.leaderboard.inj (Except.ok.inj answered)
      exact ⟨rfl, rfl⟩

/-- The pages of a live board are the slices of its rows. -/
theorem tiles_boardRows (live : LiveBoard stores c) (positive : 1 ≤ pageSize) :
    Tiles stores c pageSize (participants stores c)
      (((stores.redis.boardRows c).map PageRow.live).pages pageSize) := by
  have users : ((stores.redis.boardRows c).map PageRow.live).map PageRow.userId = participants stores c := by
    rw [participants, if_neg (noBoard_iff_members.not.mp live.1), List.map_map]
    exact map_userId_boardRows stores.redis c
  have ranks : ((stores.redis.boardRows c).map PageRow.live).map PageRow.rank =
      (List.range' 1 ((stores.redis.boardRows c).map PageRow.live).length).map Nat.cast := by
    rw [List.map_map, List.length_map]
    exact map_rank_boardRows stores.redis c
  rw [← users]
  refine tiles_of_slices positive ?_ ?_ ?_ ranks
  · intro page response read
    obtain ⟨totalPages, totalParticipants⟩ := totals_of_getLeaderboardPage read
    rw [totalPages, totalParticipants, getTotalLeaderboardEntries_of_board live.1, List.length_map]
    exact ⟨totalPages_eq _ positive, rfl⟩
  · intro i inside
    rw [List.length_map] at inside
    exact ⟨_, getLeaderboardPage_of_live live positive inside, List.map_page ..⟩
  · rw [users, participants, if_neg (noBoard_iff_members.not.mp live.1)]
    exact nodup_members stores.redis c

private theorem tiles_of_live (live : LiveBoard stores c) (positive : 1 ≤ pageSize) :
    ∃ pages, Tiles stores c pageSize (participants stores c) pages :=
  ⟨_, tiles_boardRows live positive⟩

private theorem tiles_of_frozen (frozen : FrozenBoard stores c) (positive : 1 ≤ pageSize) :
    ∃ pages, Tiles stores c pageSize (participants stores c) pages := by
  obtain ⟨none, ⟨database, written⟩, contest⟩ := frozen
  have standings := standingsOf_freezeResults c (database.ratedSubmissions c)
  rw [← frozenResults_eq, ← written] at standings
  have users : ((stores.database.resultsOf c).map fun result => PageRow.stored result.storedRow).map
      PageRow.userId = participants stores c := by
    rw [participants, if_pos (noBoard_iff_members.mp none), List.map_map]
    rfl
  have ranks : ((stores.database.resultsOf c).map fun result => PageRow.stored result.storedRow).map PageRow.rank =
      (List.range' 1 ((stores.database.resultsOf c).map fun result =>
        PageRow.stored result.storedRow).length).map Nat.cast := by
    rw [List.map_map, List.length_map, ← standings.ranks, List.map_map]
    rfl
  rw [← users]
  refine ⟨_, tiles_of_slices positive ?_ ?_ ?_ ranks⟩
  · intro page response read
    obtain ⟨totalPages, totalParticipants⟩ := totals_of_getLeaderboardPage read
    rw [totalPages, totalParticipants, getTotalLeaderboardEntries_of_noBoard none, List.length_map]
    exact ⟨totalPages_eq _ positive, rfl⟩
  · intro i inside
    rw [List.length_map] at inside
    have some : stores.database.resultsOf c ≠ [] := by
      intro empty
      rw [empty, List.length_nil, (List.pageCount_eq_zero_iff positive).mpr rfl] at inside
      exact absurd inside (Nat.not_lt_zero i)
    obtain ⟨_, found⟩ := contest some
    have first : (1 : ℤ) ≤ (i + 1 : ℕ) := by omega
    have size : (1 : ℤ) ≤ pageSize := by exact_mod_cast positive
    obtain ⟨response, read, rows, _⟩ := showsResults_of_noBoard none found written first size
    refine ⟨response, read, ?_⟩
    have sorted : (stores.database.resultsOf c).sortByKey ContestResult.rank = stores.database.resultsOf c := by
      rw [written]
      exact List.sortByKey_of_pairwise (pairwise_rank_frozenResults c database)
    have startIdx : (((i + 1 : ℕ) - 1 : ℤ) * pageSize).toNat = i * pageSize := by
      have whole : ((i + 1 : ℕ) - 1 : ℤ) * pageSize = (i * pageSize : ℕ) := by push_cast; ring
      rw [whole, Int.toNat_natCast]
    rw [rows, sorted, startIdx, Int.toNat_natCast, ← List.map_page, List.page]
  · rw [List.map_map]
    exact standings.once

/-- The pages of a live board and those of a frozen board tile its participants. -/
theorem pages_partition_board {stores : Stores} {c : String} {pageSize : ℕ} (positive : 1 ≤ pageSize)
    (board : LiveBoard stores c ∨ FrozenBoard stores c) :
    ∃ pages, Tiles stores c pageSize (participants stores c) pages := by
  rcases board with live | frozen
  · exact tiles_of_live live positive
  · exact tiles_of_frozen frozen positive

/-- A live contest with two participants of equal score, and a frozen one with two. -/
def twoBoards : Stores where
  redis := processLiveVerdict (processLiveVerdict Redis.empty ⟨"21", "6", "u", "p", "AC", 60⟩)
    ⟨"22", "6", "v", "p", "AC", 60⟩
  database := frozenDatabase "4" twoUsers.database

theorem liveBoard_twoBoards : LiveBoard twoBoards "6" :=
  ⟨by unfold Redis.NoBoard; decide +kernel, by decide +kernel⟩

theorem twoBoards_tiled : (∃ pages, Tiles twoBoards "6" 1 ["v", "u"] pages) ∧
    ∃ pages, Tiles twoBoards "4" 1 ["v", "u"] pages := by
  have frozen : FrozenBoard twoBoards "4" :=
    ⟨by unfold Redis.NoBoard; decide +kernel, ⟨twoUsers.database, resultsOf_frozenDatabase _ _⟩,
      fun _ => exists_contest?_frozenDatabase (by decide)⟩
  have liveUsers : participants twoBoards "6" = ["v", "u"] := by decide +kernel
  have frozenUsers : participants twoBoards "4" = ["v", "u"] := by decide +kernel
  have onLive := pages_partition_board (Nat.le_refl 1) (.inl liveBoard_twoBoards)
  have onFrozen := pages_partition_board (Nat.le_refl 1) (.inr frozen)
  rw [liveUsers] at onLive
  rw [frozenUsers] at onFrozen
  exact ⟨onLive, onFrozen⟩

/-- The rows that a page shows from Redis have the ranks of their users, and these belong to the page. -/
def RanksTrue (redis : Redis) (contestId : String) (page pageSize : ℤ) : Prop :=
  ∀ rows, getLeaderboardPageFromRedis redis contestId page pageSize = .ok (some rows) → ∀ row ∈ rows, ∃ k : ℕ,
    (redis.zsets (getContestLeaderboardKey contestId)).revRank row.userId = some k ∧ row.rank = k + 1 ∧
      (page - 1) * pageSize < k + 1 ∧ k + 1 ≤ page * pageSize

private theorem ranksTrue_succ (readable : redis.Readable c) (positive : 1 ≤ pageSize) (i : ℕ) :
    RanksTrue redis c (i + 1 : ℕ) pageSize := by
  intro rows read row member
  rw [getLeaderboardPageFromRedis_succ readable positive, Except.ok.injEq] at read
  split at read
  · contradiction
  · obtain rfl := Option.some_inj.mp read
    obtain ⟨k, at_, low, high⟩ := List.mem_page_iff.mp member
    rw [Redis.boardRows, List.getElem?_map, Option.map_eq_some_iff] at at_
    obtain ⟨e, numbered, rfl⟩ := at_
    rw [List.getElem?_zipIdx, Option.map_eq_some_iff] at numbered
    obtain ⟨userId, stands, rfl⟩ := numbered
    refine ⟨k, revRank_eq_some_iff.mpr stands, ?_, ?_, ?_⟩
    · change ((0 + k : ℕ) + 1 : ℤ) = k + 1
      rw [Nat.zero_add]
    · have start : ((i + 1 : ℕ) - 1 : ℤ) * pageSize = (i * pageSize : ℕ) := by push_cast; ring
      omega
    · have stop : ((i + 1 : ℕ) : ℤ) * pageSize = (i * pageSize + pageSize : ℕ) := by push_cast; ring
      omega

/-- A page from zero down starts with a member under a rank that is not positive, if it shows one at all. -/
theorem getLeaderboardPageFromRedis_of_nonpos (readable : redis.Readable c) {page size : ℤ} (below : page ≤ 0)
    (positive : 1 ≤ size) :
    (redis.members c).length + page * size ≤ 0 ∧ getLeaderboardPageFromRedis redis c page size = .ok none ∨
      0 < (redis.members c).length + page * size ∧
        ∃ row rest, getLeaderboardPageFromRedis redis c page size = .ok (some (row :: rest)) ∧ row.rank ≤ 0 := by
  have start : (page - 1) * size = page * size - size := by ring
  have last : page * size ≤ 0 := mul_nonpos_of_nonpos_of_nonneg below (by omega)
  rw [getLeaderboardPageFromRedis_of_readable readable, start]
  dsimp only
  rw [List.indexRange_of_neg _ (by omega) (by omega)]
  set userIds := ((redis.members c).drop ((redis.members c).length + (page * size - size)).toNat).take _
  by_cases empty : userIds = []
  · have count := congrArg List.length empty
    simp only [userIds, List.length_take, List.length_drop, List.length_nil] at count
    exact .inl ⟨by omega, by rw [if_pos empty]⟩
  · obtain ⟨userId, others, split⟩ := List.exists_cons_of_ne_nil empty
    have count := congrArg List.length split
    simp only [userIds, List.length_take, List.length_drop, List.length_cons] at count
    refine .inr ⟨by omega, ?_⟩
    rw [if_neg empty, split, List.zipIdx_cons, List.map_cons]
    refine ⟨_, _, rfl, ?_⟩
    change page * size - size + (0 : ℕ) + 1 ≤ 0
    omega

/-- The ranks of a page are true exactly from page one on, or where the page is empty. -/
theorem ranks_true_iff (readable : redis.Readable c) (page : ℤ) {size : ℤ} (positive : 1 ≤ size) :
    RanksTrue redis c page size ↔ 1 ≤ page ∨ ((redis.zsets (getContestLeaderboardKey c)).card : ℤ) ≤ -page * size := by
  rw [← length_members]
  rcases le_or_gt 1 page with from_ | below
  · obtain ⟨i, rfl⟩ : ∃ i : ℕ, page = (i + 1 : ℕ) := ⟨(page - 1).toNat, by omega⟩
    obtain ⟨pageSize, rfl⟩ : ∃ pageSize : ℕ, size = pageSize := ⟨size.toNat, by omega⟩
    exact iff_of_true (ranksTrue_succ readable (by exact_mod_cast positive) i) (.inl from_)
  · rcases getLeaderboardPageFromRedis_of_nonpos readable (by omega : page ≤ 0) positive with
      ⟨short, none⟩ | ⟨long, row, rest, some, rank⟩
    · refine iff_of_true (fun rows read => ?_) (.inr (by linarith))
      rw [none] at read
      cases Except.ok.inj read
    · refine iff_of_false (fun ranksTrue => ?_) (fun condition => ?_)
      · obtain ⟨k, _, own, _⟩ := ranksTrue _ some row List.mem_cons_self
        omega
      · rcases condition with from_ | short
        · omega
        · linarith

theorem first_page_ranks_true : RanksTrue twoBoards.redis "6" 1 50 ∧ RanksTrue twoBoards.redis "6" (-1) 2 := by
  have readable := liveBoard_twoBoards.2
  exact ⟨(ranks_true_iff readable 1 (by decide)).mpr (.inl le_rfl),
    (ranks_true_iff readable (-1) (by decide)).mpr (.inr (by decide +kernel))⟩

/-- Page zero shows the two participants under the ranks -49 and -48. -/
theorem page_zero_ranks_false :
    getLeaderboardPageFromRedis twoBoards.redis "6" 0 50 = .ok (some
      [⟨-49, "v", 9999940, 1, 60, Record.empty.set "p" ⟨true, 0, 60, [⟨"22", 60, "AC"⟩]⟩⟩,
        ⟨-48, "u", 9999940, 1, 60, Record.empty.set "p" ⟨true, 0, 60, [⟨"21", 60, "AC"⟩]⟩⟩]) ∧
      ¬ RanksTrue twoBoards.redis "6" 0 50 := by
  have read : getLeaderboardPageFromRedis twoBoards.redis "6" 0 50 = .ok (some
      [⟨-49, "v", 9999940, 1, 60, Record.empty.set "p" ⟨true, 0, 60, [⟨"22", 60, "AC"⟩]⟩⟩,
        ⟨-48, "u", 9999940, 1, 60, Record.empty.set "p" ⟨true, 0, 60, [⟨"21", 60, "AC"⟩]⟩⟩]) := by decide +kernel
  refine ⟨read, fun ranksTrue => ?_⟩
  obtain ⟨k, _, own, _⟩ := ranksTrue _ read _ List.mem_cons_self
  simp only at own
  omega

end JudgeSelf.LeaderboardService
