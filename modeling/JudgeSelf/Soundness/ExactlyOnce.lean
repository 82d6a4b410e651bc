import JudgeSelf.Model.Leaderboard.Consumer

/-! # Verdicts take effect exactly once

A delivery may be repeated any number of times, and any handling may stop between the script and
the `zAdd`. The entry of a user nevertheless records each delivered id once, as first delivered,
and a complete handling, of a redelivery too, brings the score up to date with the entry.
-/

namespace JudgeSelf.LeaderboardService

/-- The latest delivery for the user has been handled to its end. -/
def LastComplete (contestId userId : String) (deliveries : List Delivery) : Prop :=
  ∃ delivery, (deliveriesFor contestId userId deliveries).getLast? = some delivery ∧
    delivery.crashed = false

instance (c u : String) (deliveries : List Delivery) : Decidable (LastComplete c u deliveries) :=
  decidable_of_iff ((deliveriesFor c u deliveries).getLast?.any fun delivery => !delivery.crashed) (by
    simp [LastComplete, Option.any_eq_true])

/-- A complete handling leaves the score of the entry, and no later crash of others disturbs it. -/
theorem score?_of_lastComplete {deliveries : List Delivery} {c u : String}
    (complete : LastComplete c u deliveries) :
    (handleDeliveries deliveries).score? c u =
      ((handleDeliveries deliveries).metadata c u).map fun metadata => (computeUserScores metadata).score := by
  induction deliveries using List.reverseRecOn with
  | nil =>
    obtain ⟨delivery, last, _⟩ := complete
    contradiction
  | append_singleton deliveries delivery ih =>
    obtain ⟨last, isLast, finished⟩ := complete
    rw [handleDeliveries_concat, score?_handleDelivery]
    rw [deliveriesFor_concat] at isLast
    by_cases here : delivery.verdict.Concerns c u
    · rw [if_pos here, List.getLast?_concat] at isLast
      obtain rfl := Option.some.inj isLast
      rw [if_pos ⟨here, finished⟩]
    · rw [if_neg here] at isLast
      rw [if_neg fun both => here both.1, metadata_handleDelivery, if_neg here]
      exact ih ⟨last, isLast, finished⟩

/-- Live verdicts take effect exactly once, for every contest, user and sequence of deliveries. -/
theorem live_verdicts_exactly_once (deliveries : List Delivery) (c u : String) :
    let redis := handleDeliveries deliveries
    let firsts := firstVerdicts c u deliveries
    let entry := (redis.metadata c u).getD .initial
    ((redis.metadata c u).isSome ↔ deliveriesFor c u deliveries ≠ []) ∧
      entry.processedSubmissions.Nodup ∧
      (∀ id, id ∈ entry.processedSubmissions ↔
        ∃ delivery ∈ deliveriesFor c u deliveries, delivery.verdict.submissionId = id) ∧
      (entry.problems.entries.flatMap Prod.snd).Perm (firsts.map QueueMessage.state) ∧
      (∀ problemId, (entry.problems.get? problemId).getD [] = statesOn firsts problemId) ∧
      (LastComplete c u deliveries →
        redis.score? c u = some (computeUserScores (.ofVerdicts firsts)).score) := by
  intro redis firsts entry
  have stored : redis.metadata c u = if deliveriesFor c u deliveries = [] then none
      else some (.ofVerdicts firsts) := metadata_handleDeliveries deliveries c u
  have entry_eq : entry = .ofVerdicts firsts := by
    by_cases none : deliveriesFor c u deliveries = []
    · simp [entry, stored, none, firsts, firstVerdicts]
    · simp [entry, stored, none]
  rw [entry_eq, UserContestMetadata.ofVerdicts_processedSubmissions]
  refine ⟨?_, Machine.nodup_keepFirst _ _, ?_, UserContestMetadata.ofVerdicts_flatMap_perm firsts, ?_, ?_⟩
  · rw [stored]
    split <;> simp [*]
  · intro id
    exact Machine.mem_map_keepFirst.trans (by simp)
  · intro problemId
    rw [UserContestMetadata.ofVerdicts_get?]
    split
    · next empty => rw [empty]; rfl
    · rfl
  · intro complete
    have delivered : deliveriesFor c u deliveries ≠ [] := by
      obtain ⟨delivery, last, _⟩ := complete
      intro none
      rw [none] at last
      contradiction
    rw [score?_of_lastComplete complete]
    change (redis.metadata c u).map _ = _
    rw [stored, if_neg delivered, Option.map_some]

end JudgeSelf.LeaderboardService
