import JudgeSelf.Icpc.Timing
import JudgeSelf.Model.Leaderboard.Aggregated
import JudgeSelf.Model.Leaderboard.Consumer
import JudgeSelf.Model.Leaderboard.Sweep
import JudgeSelf.ToMathlib.Decimal

/-! # Scores before and after the freeze

The live board times a submission by the whole seconds of the clock of `HandleSubmit`, the freeze by
its `created_at`, rounded to the nearest second after the start. The two pipelines give a user the
same score exactly when the drift between the two timings adds up to nothing over the problems of
the user.
-/

namespace JudgeSelf.LeaderboardService

open SubmissionService (ContestData SubmissionRequest classify unix)

/-- A judged RATED submission of a contest, with the readings of the clock and the body of its request. -/
structure RatedSubmission (contest : Contest) where
  row : Submission
  now : ℕ → ℤ
  body : SubmissionRequest
  classified : (classify now contest.contestInfo row.userId body).type = row.type
  rated : row.type = "RATED"
  later : now 2 ≤ row.createdAt * 1000

namespace RatedSubmission

variable {contest : Contest}

def accepted (sub : RatedSubmission contest) : Bool := sub.row.status = "AC"

def rejected (sub : RatedSubmission contest) : Bool := sub.row.status ∈ wrongStatuses

def problemId (sub : RatedSubmission contest) : String := sub.row.problemId

/-- The difference of Unix seconds that `HandleSubmit` takes. -/
def clockSecond (sub : RatedSubmission contest) : ℤ := unix (sub.now 2) - unix (contest.startTime * 1000)

/-- The seconds after the start that the query of the freeze computes. -/
def createdSecond (sub : RatedSubmission contest) : ℤ := epochSeconds contest.startTime sub.row.createdAt

/-- The verdict that the live board gets. -/
def liveVerdict (sub : RatedSubmission contest) : QueueMessage :=
  sub.row.verdict ⟨sub.row.problemId, contest.id⟩ sub.row.status
    (classify sub.now contest.contestInfo sub.row.userId sub.body).relativeSubmissionTime

private theorem relativeSubmittedAt_liveVerdict (sub : RatedSubmission contest) :
    sub.liveVerdict.relativeSubmittedAt = sub.clockSecond := by
  have rated := sub.classified.trans sub.rated
  change (classify _ _ _ _).relativeSubmissionTime = _
  rw [classify] at rated ⊢
  split
  · next practice =>
    rw [if_pos practice] at rated
    exact absurd rated (show "PRACTICE" ≠ "RATED" by decide)
  · rfl

/-- Sum over the problems of a user: how much later the first AC counts by its rounded `created_at` than by
the clock, with 1200 for each wrong attempt that is ahead of it by the one and not by the other. -/
def scoreDrift (userId : String) (handled table : List (RatedSubmission contest)) : ℤ :=
  Icpc.drift accepted rejected problemId clockSecond createdSecond 1200
    (handled.filter fun sub => sub.row.userId = userId)
    ((table.sortByKey fun sub => sub.row.createdAt).filter fun sub => sub.row.userId = userId)

end RatedSubmission

/-- The entry of a stream of verdicts, problem by problem. -/
theorem ofVerdicts_entries_perm (verdicts : List QueueMessage) :
    (UserContestMetadata.ofVerdicts verdicts).problems.entries.Perm
      ((verdicts.map QueueMessage.problemId).dedup.map fun p => (p, statesOn verdicts p)) := by
  have distinct : ((verdicts.map QueueMessage.problemId).dedup.map fun p => (p, statesOn verdicts p)).Nodup :=
    (List.nodup_dedup _).map fun _ _ same => congrArg Prod.fst same
  apply (List.perm_ext_iff_of_nodup ((UserContestMetadata.ofVerdicts verdicts).problems.nodup.of_map _) distinct).mpr
  rintro ⟨p, track⟩
  have present : p ∈ verdicts.map QueueMessage.problemId ↔ statesOn verdicts p ≠ [] := by
    simp [statesOn, List.filter_eq_nil_iff]
  rw [← Record.get?_eq_some_iff, UserContestMetadata.ofVerdicts_get?, List.mem_map]
  simp only [List.mem_dedup, Prod.mk.injEq]
  constructor
  · intro found
    split at found
    · contradiction
    · next some => exact ⟨p, present.mpr some, rfl, Option.some.inj found⟩
  · rintro ⟨_, some, rfl, rfl⟩
    rw [if_neg (present.mp some)]

/-- The standing of a stream of verdicts is that of its verdicts as attempts. -/
theorem standing_ofVerdicts (verdicts : List QueueMessage) :
    standing (UserContestMetadata.ofVerdicts verdicts).problems =
      Icpc.standing (ProblemProblemState.accepted ∘ QueueMessage.state)
        (ProblemProblemState.rejected ∘ QueueMessage.state)
        QueueMessage.relativeSubmittedAt 1200 (Icpc.problems QueueMessage.problemId verdicts) := by
  have arrays := (ofVerdicts_entries_perm verdicts).map Prod.snd
  have states : ((verdicts.map QueueMessage.problemId).dedup.map fun p => (p, statesOn verdicts p)).map Prod.snd =
      (Icpc.problems QueueMessage.problemId verdicts).map (List.map QueueMessage.state) := by
    simp only [Icpc.problems, List.map_map]
    rfl
  rw [states] at arrays
  rw [standing, Icpc.standing_perm arrays, Icpc.standing_map]
  rfl

namespace RatedSubmission

variable {contest : Contest}

/-- What the rules see of verdicts is what they see of the submissions, by the time of the verdicts. -/
theorem standing_map (verdict : RatedSubmission contest → QueueMessage) (time : RatedSubmission contest → ℤ)
    (reads : ∀ sub, (verdict sub).problemId = sub.problemId ∧ (verdict sub).status = sub.row.status ∧
      (verdict sub).relativeSubmittedAt = time sub) (subs : List (RatedSubmission contest)) :
    standing (UserContestMetadata.ofVerdicts (subs.map verdict)).problems =
      Icpc.standing accepted rejected time 1200 (Icpc.problems problemId subs) := by
  have acceptedEq : (ProblemProblemState.accepted ∘ QueueMessage.state) ∘ verdict = accepted :=
    funext fun sub => congrArg (fun status : String => decide (status = "AC")) (reads sub).2.1
  have rejectedEq : (ProblemProblemState.rejected ∘ QueueMessage.state) ∘ verdict = rejected :=
    funext fun sub => congrArg (fun status : String => decide (status ∈ wrongStatuses)) (reads sub).2.1
  have timeEq : QueueMessage.relativeSubmittedAt ∘ verdict = time := funext fun sub => (reads sub).2.2
  have problemEq : QueueMessage.problemId ∘ verdict = problemId := funext fun sub => (reads sub).1
  rw [standing_ofVerdicts, Icpc.standing_problems_map, acceptedEq, rejectedEq, timeEq, problemEq]

/-- The live score of a user with submissions. -/
theorem score?_live {handled : List (RatedSubmission contest)}
    (distinct : (handled.map fun sub => sub.row.id).Nodup) (u : String) :
    (processLiveVerdicts (handled.map liveVerdict)).score? contest.id u =
      let mine := handled.filter fun sub => sub.row.userId = u
      if mine = [] then none
      else some ((Icpc.standing accepted rejected clockSecond 1200 (Icpc.problems problemId mine)).packed
        penaltyOffset) := by
  have ids : ((handled.map liveVerdict).map QueueMessage.submissionId).Nodup := by
    have decimals : (handled.map liveVerdict).map QueueMessage.submissionId =
        (handled.map fun sub => sub.row.id).map toString := by
      rw [List.map_map, List.map_map]
      rfl
    rw [decimals]
    exact distinct.map Nat.toString_injective
  have mine : verdictsFor contest.id u (handled.map liveVerdict) =
      (handled.filter fun sub => sub.row.userId = u).map liveVerdict := by
    rw [verdictsFor, List.filter_map]
    congr 1
    apply List.filter_congr
    intro sub _
    simp [QueueMessage.Concerns, liveVerdict, Submission.verdict, eq_comm]
  rw [score?_processLiveVerdicts, metadata_processLiveVerdicts ids, mine]
  simp only [List.map_eq_nil_iff]
  split
  · rfl
  · rw [Option.map_some, computeUserScores_score,
      standing_map liveVerdict clockSecond fun sub => ⟨rfl, rfl, relativeSubmittedAt_liveVerdict sub⟩]

/-- The score that the freeze writes for a user with submissions. -/
theorem score?_frozen {db : Database} (found : db.contest? contest.id = some contest)
    {table : List (RatedSubmission contest)}
    (stored : db.submissions.filter (fun sub => db.InContest contest.id sub ∧ sub.type = "RATED") = table.map row)
    (u : String) :
    ((frozenResults contest.id db).find? fun result => result.userId = u).map ContestResult.score =
      let mine := (table.sortByKey fun sub => sub.row.createdAt).filter fun sub => sub.row.userId = u
      if mine = [] then none
      else some ((Icpc.standing accepted rejected createdSecond 1200 (Icpc.problems problemId mine)).packed
        penaltyOffset) := by
  have sorted : (table.map row).sortByKey Submission.createdAt =
      (table.sortByKey fun sub => sub.row.createdAt).map row :=
    (List.map_insertionSort _ _ row table fun _ _ _ _ => Iff.rfl).symm
  have mine : verdictsOf contest.id u (db.ratedSubmissions contest.id) =
      ((table.sortByKey fun sub => sub.row.createdAt).filter fun sub => sub.row.userId = u).map fun sub =>
        (db.submissionRow contest.id sub.row).verdict contest.id u := by
    rw [verdictsOf, Database.ratedSubmissions, stored, sorted, List.map_map, List.filter_map, List.map_map]
    rfl
  have time (sub : RatedSubmission contest) :
      (db.submissionRow contest.id sub.row).submittedAt = sub.createdSecond := by
    simp only [Database.submissionRow, found, Option.map_some, Option.getD_some, createdSecond]
  rw [frozenResults_eq]
  dsimp only
  split
  · next none =>
    rw [none, List.map_nil] at mine
    rw [Option.map_eq_none_iff, List.find?_eq_none]
    intro result member same
    obtain ⟨_, some, _⟩ := of_mem_freezeResults member
    rw [of_decide_eq_true same] at some
    exact some mine
  · next some =>
    have verdicts : verdictsOf contest.id u (db.ratedSubmissions contest.id) ≠ [] := by
      rw [mine]
      simpa using some
    obtain ⟨result, member, user⟩ := exists_mem_freezeResults verdicts
    have isSome : ((freezeResults contest.id (db.ratedSubmissions contest.id)).find? fun result =>
        result.userId = u).isSome := by
      rw [List.find?_isSome]
      exact ⟨result, member, decide_eq_true user⟩
    obtain ⟨first, here⟩ := Option.isSome_iff_exists.mp isSome
    have same : first.userId = u := by simpa using List.find?_some here
    subst same
    obtain ⟨_, _, score, _⟩ := of_mem_freezeResults (List.mem_of_find?_eq_some here)
    rw [here, Option.map_some, score, mine, computeUserScores_score,
      standing_map _ createdSecond fun sub => ⟨rfl, rfl, time sub⟩]

end RatedSubmission

/-- Once the verdicts of all RATED submissions are handled once each, in any order, the live score of a user is
the one that the freeze writes exactly when the two timings drift by nothing. -/
theorem frozen_score_eq_live_iff {stores final : Stores} {contest : Contest} {fault : Option FreezeQuery}
    (found : stores.database.contest? contest.id = some contest)
    {table handled : List (RatedSubmission contest)}
    (stored : stores.database.submissions.filter (fun sub =>
      stores.database.InContest contest.id sub ∧ sub.type = "RATED") = table.map RatedSubmission.row)
    (perm : handled.Perm table) (freeze : executeContestHardFreeze fault contest.id stores = (.ok (), final))
    (u : String) :
    (processLiveVerdicts (handled.map RatedSubmission.liveVerdict)).score? contest.id u =
        ((final.database.resultsOf contest.id).find? fun result => result.userId = u).map ContestResult.score ↔
      RatedSubmission.scoreDrift u handled table = 0 := by
  obtain rfl := executeContestHardFreeze_eq_ok freeze
  have distinct : (handled.map fun sub => sub.row.id).Nodup := by
    have ids : ((table.map RatedSubmission.row).map Submission.id).Nodup :=
      stored ▸ stores.database.submissionIds.sublist (List.filter_sublist.map _)
    rw [List.map_map] at ids
    exact (perm.map _).nodup_iff.mpr ids
  have mine : (handled.filter fun sub => sub.row.userId = u).Perm
      ((table.sortByKey fun sub => sub.row.createdAt).filter fun sub => sub.row.userId = u) :=
    (perm.trans (List.sortByKey_perm _ _).symm).filter _
  rw [resultsOf_frozenDatabase, RatedSubmission.score?_live distinct, RatedSubmission.score?_frozen found stored,
    RatedSubmission.scoreDrift, ← Icpc.penalty_sub_of_perm mine]
  have solved := @Icpc.solved_of_perm _ _ RatedSubmission.accepted RatedSubmission.rejected
    RatedSubmission.clockSecond RatedSubmission.createdSecond 1200 _ _ _ RatedSubmission.problemId mine
  have empty : (handled.filter fun sub => sub.row.userId = u) = [] ↔
      ((table.sortByKey fun sub => sub.row.createdAt).filter fun sub => sub.row.userId = u) = [] := by
    rw [← List.length_eq_zero_iff, mine.length_eq, List.length_eq_zero_iff]
  dsimp only
  by_cases none : (handled.filter fun sub => sub.row.userId = u) = []
  · rw [if_pos none, if_pos (empty.mp none), none, empty.mp none]
    simp [Icpc.problems, Icpc.standing]
  · rw [if_neg none, if_neg (mt empty.mpr none), Option.some.injEq, Icpc.Standing.packed, Icpc.Standing.packed, solved]
    omega

/-- A contest of one hour. -/
def hourContest : Contest := ⟨"7", 0, 3600000000, false⟩

/-- The contest with an accepted submission in its first hour, whose row was inserted at `createdAt`. -/
def oneSolve (createdAt : ℤ) : Stores where
  redis := Redis.empty
  database :=
    { contests := [hourContest]
      problems := [⟨"p", "7"⟩]
      submissions := [⟨1, "p", "u", "RATED", "AC", createdAt⟩]
      contestResults := []
      submissionIds := List.nodup_singleton 1 }

/-- Its request, whose clock showed `now` nanoseconds. -/
def solveAt (now createdAt : ℤ) (inside : 0 ≤ now ∧ now ≤ 3600 * 10 ^ 9) (later : now ≤ createdAt * 1000) :
    RatedSubmission hourContest where
  row := ⟨1, "p", "u", "RATED", "AC", createdAt⟩
  now _ := now
  body := SubmissionService.pythonRequest
  classified := by
    rw [classify, if_neg (by simp [hourContest, Contest.contestInfo]; omega)]
  rated := rfl
  later := later

/-- A submission early in its second scores the same before and after the freeze. -/
theorem early_in_second_score_kept :
    executeContestHardFreeze none "7" (oneSolve 60400000) =
        (.ok (), (executeContestHardFreeze none "7" (oneSolve 60400000)).2) ∧
      (processLiveVerdicts [(solveAt 60300000000 60400000 (by decide) (by decide)).liveVerdict]).score? "7" "u" =
        (((executeContestHardFreeze none "7" (oneSolve 60400000)).2.database.resultsOf "7").find? fun result =>
          result.userId = "u").map ContestResult.score := by
  have freeze : executeContestHardFreeze none "7" (oneSolve 60400000) =
      (.ok (), (executeContestHardFreeze none "7" (oneSolve 60400000)).2) := Prod.ext (by decide +kernel) rfl
  exact ⟨freeze, (@frozen_score_eq_live_iff (oneSolve 60400000) _ hourContest _ (by decide)
    [solveAt 60300000000 60400000 (by decide) (by decide)] _ (by decide) (.refl _) freeze "u").mpr (by decide +kernel)⟩

/-- A submission late in its second loses a point in the freeze. -/
theorem late_in_second_loses_a_point :
    executeContestHardFreeze none "7" (oneSolve 59600000) =
        (.ok (), (executeContestHardFreeze none "7" (oneSolve 59600000)).2) ∧
      (processLiveVerdicts [(solveAt 59600000000 59600000 (by decide) (by decide)).liveVerdict]).score? "7" "u" =
        some 9999941 ∧
      (((executeContestHardFreeze none "7" (oneSolve 59600000)).2.database.resultsOf "7").find? fun result =>
        result.userId = "u").map ContestResult.score = some 9999940 :=
  ⟨Prod.ext (by decide +kernel) rfl, by decide +kernel, by decide +kernel⟩

end JudgeSelf.LeaderboardService
