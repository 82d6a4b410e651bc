import JudgeSelf.Icpc.Scoreboard
import JudgeSelf.Soundness.ExactlyOnce
import JudgeSelf.Soundness.FreezeScores
import JudgeSelf.Soundness.Pages

/-! # The live board as a scoreboard

The pages that the service shows of a live contest are a scoreboard of the log of its verdicts: each delivered
verdict once, in the order of first deliveries, with redeliveries and handlings that break off in between.
-/

namespace JudgeSelf.LeaderboardService

/-- The rules by which verdicts are read. -/
def contestRules : Icpc.Rules QueueMessage String String where
  contestant := QueueMessage.userId
  problem := QueueMessage.problemId
  accepted verdict := verdict.status = "AC"
  rejected verdict := verdict.status ∈ wrongStatuses
  time := QueueMessage.relativeSubmittedAt
  toll := 1200

/-- The delivered verdicts of a contest, without redeliveries. -/
def contestLog (contestId : String) (deliveries : List Delivery) : List QueueMessage :=
  Machine.keepFirst (fun verdict => (verdict.userId, verdict.submissionId))
    ((deliveries.map Delivery.verdict).filter fun verdict => verdict.contestId = contestId)

/-- No difference of penalties outweighs the solved problems of two users of a log. -/
def SeparatedLog (log : List QueueMessage) : Prop :=
  ∀ first ∈ log, ∀ second ∈ log, Icpc.Standing.Separated penaltyOffset
    (contestRules.standingOf log first.userId) (contestRules.standingOf log second.userId)

instance (log : List QueueMessage) : Decidable (SeparatedLog log) :=
  inferInstanceAs (Decidable (∀ first ∈ log, ∀ second ∈ log, _))

/-- What a row says about its user. -/
def LeaderboardRow.standing (row : LeaderboardRow) : Icpc.Standing := ⟨row.problemsSolved, row.penalty⟩

variable {deliveries : List Delivery} {c u : String}

/-- The part of the log that is about a user. -/
theorem filter_contestLog (c u : String) (deliveries : List Delivery) :
    (contestLog c deliveries).filter (fun verdict => verdict.userId = u) = firstVerdicts c u deliveries := by
  have mine : ((deliveries.map Delivery.verdict).filter fun verdict => verdict.contestId = c).filter
      (fun verdict => verdict.userId = u) = (deliveriesFor c u deliveries).map Delivery.verdict := by
    rw [List.filter_filter, deliveriesFor, List.filter_map]
    refine congrArg _ (List.filter_congr fun delivery _ => ?_)
    simp only [Function.comp, QueueMessage.Concerns, Bool.decide_and, @eq_comm _ c, @eq_comm _ u, Bool.and_comm]
  rw [contestLog, Machine.filter_keepFirst, mine, firstVerdicts]
  · apply Machine.keepFirst_congr
    intro first member second member'
    obtain ⟨delivery, listed, rfl⟩ := List.mem_map.mp member
    obtain ⟨delivery', listed', rfl⟩ := List.mem_map.mp member'
    have concerns := of_decide_eq_true (List.mem_filter.mp listed).2
    have concerns' := of_decide_eq_true (List.mem_filter.mp listed').2
    rw [Prod.mk.injEq, ← concerns.2, ← concerns'.2]
    exact and_iff_right rfl
  · intro first second same
    rw [(Prod.mk.inj same).1]

/-- The computed standing of a user is the one in the log. -/
theorem standing_firstVerdicts (c u : String) (deliveries : List Delivery) :
    standing (UserContestMetadata.ofVerdicts (firstVerdicts c u deliveries)).problems =
      contestRules.standingOf (contestLog c deliveries) u := by
  rw [standing_ofVerdicts, Icpc.Rules.standingOf]
  change _ = Icpc.standing _ _ _ _ (Icpc.problems _
    ((contestLog c deliveries).filter fun verdict => verdict.userId = u))
  rw [filter_contestLog]
  rfl

private theorem mem_contestLog_iff : (∃ verdict ∈ contestLog c deliveries, verdict.userId = u) ↔
    deliveriesFor c u deliveries ≠ [] := by
  have kept : (contestLog c deliveries).filter (fun verdict => verdict.userId = u) = [] ↔
      deliveriesFor c u deliveries = [] := by
    rw [filter_contestLog, firstVerdicts, ← List.map_eq_nil_iff (f := QueueMessage.submissionId)]
    rw [List.eq_nil_iff_forall_not_mem]
    simp only [Machine.mem_map_keepFirst]
    rw [← List.eq_nil_iff_forall_not_mem, List.map_eq_nil_iff, List.map_eq_nil_iff]
  rw [← not_iff_not, not_not, ← kept, List.filter_eq_nil_iff]
  simp

/-- A user without deliveries has no score. -/
theorem score?_of_not_delivered (none : deliveriesFor c u deliveries = []) :
    (handleDeliveries deliveries).score? c u = .none := by
  induction deliveries using List.reverseRecOn with
  | nil => rfl
  | append_singleton deliveries delivery ih =>
    rw [deliveriesFor_concat] at none
    split at none
    · exact absurd none (by simp)
    · next elsewhere =>
      rw [handleDeliveries_concat, score?_handleDelivery, if_neg fun here => elsewhere here.1]
      exact ih none

/-- The latest deliveries for all users of the contest have been handled to their end. -/
def AllComplete (contestId : String) (deliveries : List Delivery) : Prop :=
  ∀ u, deliveriesFor contestId u deliveries ≠ [] → LastComplete contestId u deliveries

theorem score?_of_allComplete (complete : AllComplete c deliveries) (u : String) :
    (handleDeliveries deliveries).score? c u =
      if deliveriesFor c u deliveries = [] then none
      else some ((contestRules.standingOf (contestLog c deliveries) u).packed penaltyOffset) := by
  split
  · next none => exact score?_of_not_delivered none
  · next some =>
    rw [score?_of_lastComplete (complete u some), metadata_handleDeliveries, if_neg some, Option.map_some,
      computeUserScores_score, standing_firstVerdicts]

private theorem mem_members_of_allComplete (complete : AllComplete c deliveries) :
    u ∈ (handleDeliveries deliveries).members c ↔ ∃ verdict ∈ contestLog c deliveries, verdict.userId = u := by
  rw [mem_members, score?_of_allComplete complete, mem_contestLog_iff]
  split
  · next none => simp [none]
  · next some => simp [some]

private theorem liveBoard_of_allComplete {database : Database} (complete : AllComplete c deliveries)
    (delivered : contestLog c deliveries ≠ []) : LiveBoard ⟨handleDeliveries deliveries, database⟩ c := by
  constructor
  · rw [noBoard_iff_members]
    obtain ⟨verdict, member⟩ := List.exists_mem_of_ne_nil _ delivered
    exact List.ne_nil_of_mem ((mem_members_of_allComplete complete).mpr ⟨verdict, member, rfl⟩)
  · rw [readable_iff]
    intro u scored
    change ((handleDeliveries deliveries).score? c u).isSome at scored
    rw [score?_of_allComplete complete] at scored
    change ((handleDeliveries deliveries).metadata c u).isSome
    rw [metadata_handleDeliveries]
    split
    · next none => simp [none] at scored
    · rfl

/-- The members of the sorted set, from the best score down, are a scoreboard where the scores compare as the
standings do. -/
theorem scoreboard_members (complete : AllComplete c deliveries) (separated : SeparatedLog (contestLog c deliveries)) :
    contestRules.Scoreboard (contestLog c deliveries) ((handleDeliveries deliveries).members c) where
  once := nodup_members _ _
  contestants u := mem_members_of_allComplete complete
  ordered := by
    have scored : ∀ user ∈ ((handleDeliveries deliveries).zsets (getContestLeaderboardKey c)).entries.reverse,
        user.2 = (contestRules.standingOf (contestLog c deliveries) user.1).packed penaltyOffset := by
      intro user member
      have score := SortedSet.score?_eq_some_iff.mpr (List.mem_reverse.mp member)
      change (handleDeliveries deliveries).score? c user.1 = some user.2 at score
      rw [score?_of_allComplete complete] at score
      split at score
      · contradiction
      · exact (Option.some.inj score).symm
    refine @Icpc.Standing.pairwise_not_better _ penaltyOffset _ _ ?_ ?_
    · rw [Redis.members, List.pairwise_map]
      apply (SortedSet.pairwise_reverse _).imp_of_mem
      intro a b first second ordered
      rw [← scored a first, ← scored b second]
      exact ordered
    · intro a first b second
      obtain ⟨verdict, listed, rfl⟩ := (mem_members_of_allComplete complete).mp first
      obtain ⟨verdict', listed', rfl⟩ := (mem_members_of_allComplete complete).mp second
      exact separated verdict listed verdict' listed'

/-- A row of the board under its place. -/
theorem standing_boardRows {row : LeaderboardRow} (complete : AllComplete c deliveries)
    (member : row ∈ (handleDeliveries deliveries).boardRows c) :
    row.standing = contestRules.standingOf (contestLog c deliveries) row.userId ∧
      ∃ i : ℕ, ((handleDeliveries deliveries).members c)[i]? = some row.userId ∧ row.rank = i + 1 := by
  obtain ⟨⟨u, i⟩, numbered, rfl⟩ := List.mem_map.mp member
  have stands := List.mem_zipIdx_iff_getElem?.mp numbered
  refine ⟨?_, i, stands, rfl⟩
  have delivered : deliveriesFor c u deliveries ≠ [] :=
    mem_contestLog_iff.mp ((mem_members_of_allComplete complete).mp (List.mem_of_getElem? stands))
  change (computeUserScores (((handleDeliveries deliveries).metadata c u).getD .initial)).standing = _
  rw [metadata_handleDeliveries, if_neg delivered, Option.getD_some, standing_computeUserScores, standing_firstVerdicts]
  rfl

/-- What a live contest shows after complete handlings: its pages together are a scoreboard of the log, every row
shows the standing of its user in the log, under a rank behind all better users and ahead of all worse ones, and
from top to bottom the standings are those of every other scoreboard of the log. -/
theorem live_pages_are_scoreboard (database : Database) {pageSize : ℕ} (positive : 1 ≤ pageSize)
    (complete : AllComplete c deliveries) (delivered : contestLog c deliveries ≠ [])
    (separated : SeparatedLog (contestLog c deliveries)) :
    let log := contestLog c deliveries
    ∃ (rows : List LeaderboardRow) (pages : List (List PageRow)),
      Tiles ⟨handleDeliveries deliveries, database⟩ c pageSize (rows.map LeaderboardRow.userId) pages ∧
      pages.flatten = rows.map .live ∧
      contestRules.Scoreboard log (rows.map LeaderboardRow.userId) ∧
      (∀ row ∈ rows, row.standing = contestRules.standingOf log row.userId ∧
        (rows.countP fun other => other.standing.Better row.standing) < row.rank ∧
        row.rank ≤ rows.countP fun other => ¬ row.standing.Better other.standing) ∧
      ∀ ranking, contestRules.Scoreboard log ranking →
        rows.map LeaderboardRow.standing = ranking.map (contestRules.standingOf log) := by
  intro log
  have live := @liveBoard_of_allComplete _ _ database complete delivered
  have board := scoreboard_members complete separated
  have users := map_userId_boardRows (handleDeliveries deliveries) c
  have shown : participants ⟨handleDeliveries deliveries, database⟩ c = (handleDeliveries deliveries).members c :=
    if_neg (noBoard_iff_members.not.mp live.1)
  have tiles := tiles_boardRows live positive
  have standings : ((handleDeliveries deliveries).boardRows c).map LeaderboardRow.standing =
      ((handleDeliveries deliveries).members c).map (contestRules.standingOf (contestLog c deliveries)) := by
    rw [← users, List.map_map]
    exact List.map_congr_left fun row member => (standing_boardRows complete member).1
  have count (p : Icpc.Standing → Bool) :
      (((handleDeliveries deliveries).boardRows c).countP fun other => p other.standing) =
        ((handleDeliveries deliveries).members c).countP fun v =>
          p (contestRules.standingOf (contestLog c deliveries) v) := by
    have counted := congrArg (List.countP p) standings
    rwa [List.countP_map, List.countP_map] at counted
  refine ⟨(handleDeliveries deliveries).boardRows c, _, ?_, List.flatten_pages positive _, ?_, ?_, ?_⟩
  · rw [users, ← shown]
    exact tiles
  · rw [users]
    exact board
  · intro row member
    obtain ⟨standing, i, stands, rank⟩ := standing_boardRows complete member
    obtain ⟨behind, ahead⟩ := board.place stands
    refine ⟨standing, ?_, ?_⟩
    · have better := count fun other => other.Better (contestRules.standingOf (contestLog c deliveries) row.userId)
      rw [standing, rank, better]
      omega
    · have notWorse := count fun other =>
        ¬ (contestRules.standingOf (contestLog c deliveries) row.userId).Better other
      rw [standing, rank, notWorse]
      omega
  · intro ranking other
    rw [standings]
    exact board.standings_unique other

/-- The first handling breaks off; the second user solves the problem without a wrong attempt. -/
def raceDeliveries : List Delivery :=
  [⟨⟨"1", "6", "u", "p", "WA", 30⟩, true⟩, ⟨⟨"2", "6", "u", "p", "AC", 60⟩, false⟩,
    ⟨⟨"3", "6", "v", "p", "AC", 60⟩, false⟩, ⟨⟨"1", "6", "u", "p", "WA", 30⟩, false⟩]

theorem race_pages : ∃ (rows : List LeaderboardRow) (pages : List (List PageRow)),
    Tiles ⟨handleDeliveries raceDeliveries, twoUsers.database⟩ "6" 1 (rows.map LeaderboardRow.userId) pages ∧
      rows.map LeaderboardRow.standing = [⟨1, 60⟩, ⟨1, 1260⟩] := by
  have log : contestLog "6" raceDeliveries = [⟨"1", "6", "u", "p", "WA", 30⟩, ⟨"2", "6", "u", "p", "AC", 60⟩,
      ⟨"3", "6", "v", "p", "AC", 60⟩] := by decide
  have complete : AllComplete "6" raceDeliveries := by
    intro u some
    obtain ⟨delivery, member⟩ := List.exists_mem_of_ne_nil _ some
    obtain ⟨listed, concerns⟩ := List.mem_filter.mp member
    obtain ⟨-, rfl⟩ := of_decide_eq_true concerns
    simp only [raceDeliveries, List.mem_cons, List.not_mem_nil, or_false] at listed
    rcases listed with rfl | rfl | rfl | rfl <;> decide
  have board : contestRules.Scoreboard (contestLog "6" raceDeliveries) ["v", "u"] := by
    refine ⟨by decide, fun u => ?_, by decide⟩
    rw [log]
    simp [contestRules, or_comm, eq_comm]
  obtain ⟨rows, pages, tiles, -, -, -, unique⟩ := live_pages_are_scoreboard twoUsers.database (Nat.le_refl 1) complete
    (by decide) (by decide)
  exact ⟨rows, pages, tiles, (unique _ board).trans (by decide)⟩

end JudgeSelf.LeaderboardService
