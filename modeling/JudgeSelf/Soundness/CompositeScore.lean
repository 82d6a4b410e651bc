import JudgeSelf.Model.Leaderboard.Freeze

/-! # The composite score as an order

The score packs the solved count and the penalty into one number. Two users compare as in ICPC
exactly when the difference of their penalties does not outweigh the difference of their solved
counts; nothing bounds the penalties. The sorted set and the freeze sort by the score alone.
-/

namespace JudgeSelf.LeaderboardService

/-- The metadata entries compare correctly, whichever comes first. -/
def SeparatedEntries (entries : List UserContestMetadata) : Prop :=
  ∀ a ∈ entries, ∀ b ∈ entries,
    Icpc.Standing.Separated penaltyOffset (standing a.problems) (standing b.problems)

/-- Scores compare as standings do exactly for separated standings. -/
theorem score_lt_iff_better (a b : UserContestMetadata) :
    ((computeUserScores b).score < (computeUserScores a).score ↔
        (computeUserScores a).standing.Better (computeUserScores b).standing) ↔
      Icpc.Standing.Separated penaltyOffset (standing a.problems) (standing b.problems) := by
  rw [computeUserScores_score, computeUserScores_score, standing_computeUserScores, standing_computeUserScores]
  exact Icpc.Standing.packed_lt_iff_better penaltyOffset _ _

/-- A list of users by descending score is in ICPC order when their entries are separated. -/
theorem pairwise_not_better_of_score {α : Type*} {users : List α} {metadata : α → UserContestMetadata}
    (sorted : users.Pairwise fun a b =>
      (computeUserScores (metadata b)).score ≤ (computeUserScores (metadata a)).score)
    (separated : SeparatedEntries (users.map metadata)) :
    users.Pairwise fun a b =>
      ¬ (computeUserScores (metadata b)).standing.Better (computeUserScores (metadata a)).standing := by
  simp only [standing_computeUserScores]
  refine Icpc.Standing.pairwise_not_better ?_ fun a ha b hb =>
    separated _ (List.mem_map_of_mem ha) _ (List.mem_map_of_mem hb)
  simpa only [computeUserScores_score] using sorted

/-- The frozen standings are in ICPC order when the aggregated entries are separated. -/
theorem freezeStandings_ordered {contestId : String} {rows : List SubmissionRow}
    (separated : SeparatedEntries ((aggregate contestId rows).entries.map Prod.snd)) :
    (freezeStandings contestId rows).Pairwise fun a b =>
      ¬ b.scoreData.standing.Better a.scoreData.standing := by
  have computed : ∀ entry ∈ freezeStandings contestId rows,
      entry.scoreData.score = entry.scoreData.standing.packed penaltyOffset ∧
        ∃ metadata ∈ (aggregate contestId rows).entries.map Prod.snd,
          entry.scoreData.standing = standing metadata.problems := by
    intro entry member
    obtain ⟨user, present, rfl⟩ := List.mem_map.mp (List.mem_sortByKey.mp member)
    exact ⟨rfl, user.2, List.mem_map_of_mem present, standing_computeUserScores user.2⟩
  have sorted : (freezeStandings contestId rows).Pairwise fun a b =>
      b.scoreData.standing.packed penaltyOffset ≤ a.scoreData.standing.packed penaltyOffset := by
    apply (List.pairwise_sortByKey _ _).imp_of_mem
    intro a b ha hb ordered
    rw [← (computed a ha).1, ← (computed b hb).1]
    exact neg_le_neg_iff.mp ordered
  apply Icpc.Standing.pairwise_not_better sorted
  intro a ha b hb
  obtain ⟨_, first, memberFirst, standingFirst⟩ := computed a ha
  obtain ⟨_, second, memberSecond, standingSecond⟩ := computed b hb
  rw [standingFirst, standingSecond]
  exact separated first memberFirst second memberSecond

/-- A sorted set of scores lists its users in ICPC order when their entries are separated. -/
theorem board_ordered {board : SortedSet String ℤ} {metadata : String → UserContestMetadata}
    (scored : ∀ user ∈ board.entries, user.2 = (computeUserScores (metadata user.1)).score)
    (separated : SeparatedEntries (board.entries.map fun user => metadata user.1)) :
    board.entries.reverse.Pairwise fun a b =>
      ¬ (computeUserScores (metadata b.1)).standing.Better (computeUserScores (metadata a.1)).standing := by
  have sorted : board.entries.reverse.Pairwise fun a b =>
      (computeUserScores (metadata b.1)).score ≤ (computeUserScores (metadata a.1)).score := by
    apply board.pairwise_reverse.imp_of_mem
    intro a b ha hb ordered
    rw [← scored a (List.mem_reverse.mp ha), ← scored b (List.mem_reverse.mp hb)]
    exact ordered
  have reversed : SeparatedEntries (board.entries.reverse.map fun user => metadata user.1) := by
    rw [List.map_reverse]
    intro a ha b hb
    exact separated a (List.mem_reverse.mp ha) b (List.mem_reverse.mp hb)
  exact pairwise_not_better_of_score sorted reversed

/-- The composite score orders two users as ICPC does exactly when their standings are separated,
and then the live board and the frozen standings are in ICPC order. -/
theorem composite_score_is_icpc_iff (a b : UserContestMetadata) (board : SortedSet String ℤ)
    (metadata : String → UserContestMetadata) (contestId : String) (rows : List SubmissionRow) :
    (((computeUserScores b).score < (computeUserScores a).score ↔
          (computeUserScores a).standing.Better (computeUserScores b).standing) ↔
        Icpc.Standing.Separated penaltyOffset (standing a.problems) (standing b.problems)) ∧
      ((∀ user ∈ board.entries, user.2 = (computeUserScores (metadata user.1)).score) →
        SeparatedEntries (board.entries.map fun user => metadata user.1) →
        board.entries.reverse.Pairwise fun a b =>
          ¬ (computeUserScores (metadata b.1)).standing.Better (computeUserScores (metadata a.1)).standing) ∧
      (SeparatedEntries ((aggregate contestId rows).entries.map Prod.snd) →
        (freezeStandings contestId rows).Pairwise fun a b =>
          ¬ b.scoreData.standing.Better a.scoreData.standing) :=
  ⟨score_lt_iff_better a b, board_ordered, freezeStandings_ordered⟩

/-- One problem solved after ten million seconds scores less than nothing at all. -/
theorem late_solve_ranks_below_no_solve :
    let late : UserContestMetadata := ⟨Record.empty.set "p" [⟨"1", 10000001, "AC"⟩], ["1"]⟩
    (computeUserScores late).standing.Better (computeUserScores .initial).standing ∧
      (computeUserScores late).score < (computeUserScores .initial).score := by
  decide

end JudgeSelf.LeaderboardService
