import JudgeSelf.Model.Leaderboard.Recorded

/-! # The verdicts consumer, one delivery at a time

Model of the callback in `rabbitmq.task.ts`. A delivery is handled by `processLiveVerdict` and then
acknowledged. A crash between the two commands leaves the script's effect in place and the message
unacknowledged, so that the broker delivers it again; the consumer sees one more delivery.
-/

namespace JudgeSelf.LeaderboardService

/-- One delivery of a message; `crashed` when its handling ends between the two commands. -/
structure Delivery where
  verdict : QueueMessage
  crashed : Bool
deriving DecidableEq, Repr

def handleDelivery (redis : Redis) (delivery : Delivery) : Redis :=
  if delivery.crashed then (evalVerdict redis delivery.verdict).2
  else processLiveVerdict redis delivery.verdict

/-- The state after a sequence of deliveries, from an empty Redis. -/
def handleDeliveries (deliveries : List Delivery) : Redis := deliveries.foldl handleDelivery Redis.empty

/-- The deliveries for one user of one contest, in order. -/
def deliveriesFor (contestId userId : String) (deliveries : List Delivery) : List Delivery :=
  deliveries.filter fun delivery => delivery.verdict.Concerns contestId userId

/-- The first deliveries for one user of one contest, in order. -/
def firstVerdicts (contestId userId : String) (deliveries : List Delivery) : List QueueMessage :=
  Machine.keepFirst QueueMessage.submissionId ((deliveriesFor contestId userId deliveries).map Delivery.verdict)

theorem deliveriesFor_concat (c u : String) (deliveries : List Delivery) (delivery : Delivery) :
    deliveriesFor c u (deliveries ++ [delivery]) =
      if delivery.verdict.Concerns c u then deliveriesFor c u deliveries ++ [delivery]
      else deliveriesFor c u deliveries := by
  rw [deliveriesFor, List.filter_append, List.filter_singleton]
  by_cases here : delivery.verdict.Concerns c u <;> simp [here, deliveriesFor]

@[simp] theorem handleDeliveries_concat (deliveries : List Delivery) (delivery : Delivery) :
    handleDeliveries (deliveries ++ [delivery]) = handleDelivery (handleDeliveries deliveries) delivery := by
  simp [handleDeliveries]

/-- Handling changes the entry of the delivery's user as the script does, crash or not. -/
theorem metadata_handleDelivery (redis : Redis) (delivery : Delivery) (c u : String) :
    (handleDelivery redis delivery).metadata c u =
      if delivery.verdict.Concerns c u then
        some (((redis.metadata c u).getD .initial).absorb delivery.verdict)
      else redis.metadata c u := by
  rw [handleDelivery]
  split
  · exact metadata_evalVerdict redis delivery.verdict c u
  · exact metadata_processLiveVerdict redis delivery.verdict c u

/-- Only a complete handling writes the score, and it writes that of the entry it leaves. -/
theorem score?_handleDelivery (redis : Redis) (delivery : Delivery) (c u : String) :
    (handleDelivery redis delivery).score? c u =
      if delivery.verdict.Concerns c u ∧ delivery.crashed = false then
        ((handleDelivery redis delivery).metadata c u).map fun metadata => (computeUserScores metadata).score
      else redis.score? c u := by
  rw [metadata_handleDelivery, handleDelivery]
  by_cases here : delivery.verdict.Concerns c u
  · cases delivery.crashed <;> simp [here]
  · cases delivery.crashed <;> simp [here]

/-- The stored entry after any deliveries is that of the first deliveries for the user. -/
theorem metadata_handleDeliveries (deliveries : List Delivery) (c u : String) :
    (handleDeliveries deliveries).metadata c u =
      if deliveriesFor c u deliveries = [] then none
      else some (UserContestMetadata.ofVerdicts (firstVerdicts c u deliveries)) := by
  have stream : (handleDeliveries deliveries).metadata c u =
      if deliveriesFor c u deliveries = [] then none
      else some (((deliveriesFor c u deliveries).map Delivery.verdict).foldl
        UserContestMetadata.absorb .initial) := by
    induction deliveries using List.reverseRecOn with
    | nil => rfl
    | append_singleton deliveries delivery ih =>
      rw [handleDeliveries_concat, metadata_handleDelivery, deliveriesFor_concat, ih]
      by_cases here : delivery.verdict.Concerns c u
      · by_cases none : deliveriesFor c u deliveries = []
        · simp [here, none]
        · simp [here, none]
      · simp only [here, ↓reduceIte]
  rw [stream, UserContestMetadata.foldl_absorb_initial]
  rfl

/-- The state after complete handlings of the verdicts in order, from an empty Redis. -/
def processLiveVerdicts (verdicts : List QueueMessage) : Redis :=
  verdicts.foldl processLiveVerdict Redis.empty

/-- The verdicts of one user of one contest, in order. -/
def verdictsFor (contestId userId : String) (verdicts : List QueueMessage) : List QueueMessage :=
  verdicts.filter fun verdict => verdict.Concerns contestId userId

private theorem processLiveVerdicts_eq (verdicts : List QueueMessage) :
    processLiveVerdicts verdicts = handleDeliveries (verdicts.map (⟨·, false⟩)) := by
  simp only [processLiveVerdicts, handleDeliveries, List.foldl_map]
  rfl

/-- Verdicts with distinct ids are recorded in the order of handling. -/
theorem metadata_processLiveVerdicts {verdicts : List QueueMessage}
    (distinct : (verdicts.map QueueMessage.submissionId).Nodup) (c u : String) :
    (processLiveVerdicts verdicts).metadata c u =
      if verdictsFor c u verdicts = [] then none
      else some (UserContestMetadata.ofVerdicts (verdictsFor c u verdicts)) := by
  have mine : (deliveriesFor c u (verdicts.map (⟨·, false⟩))).map Delivery.verdict =
      verdictsFor c u verdicts := by
    simp [deliveriesFor, verdictsFor, List.filter_map, Function.comp_def]
  have none : deliveriesFor c u (verdicts.map (⟨·, false⟩)) = [] ↔ verdictsFor c u verdicts = [] := by
    rw [← mine, List.map_eq_nil_iff]
  have all : Machine.keepFirst QueueMessage.submissionId (verdictsFor c u verdicts) = verdictsFor c u verdicts :=
    Machine.keepFirst_of_nodup (distinct.sublist (List.filter_sublist.map _))
  simp only [processLiveVerdicts_eq, metadata_handleDeliveries, firstVerdicts, mine, all, none]

/-- Complete handlings keep the score of every user that of the stored entry. -/
theorem score?_processLiveVerdicts (verdicts : List QueueMessage) (c u : String) :
    (processLiveVerdicts verdicts).score? c u =
      ((processLiveVerdicts verdicts).metadata c u).map fun metadata => (computeUserScores metadata).score := by
  induction verdicts using List.reverseRecOn with
  | nil => rfl
  | append_singleton verdicts verdict ih =>
    rw [processLiveVerdicts, List.foldl_append, List.foldl_cons, List.foldl_nil,
      ← processLiveVerdicts, score?_processLiveVerdict, metadata_processLiveVerdict, ih]
    split <;> rfl

end JudgeSelf.LeaderboardService
