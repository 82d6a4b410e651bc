import JudgeSelf.Icpc.Standing
import JudgeSelf.ToMathlib.Record
import Mathlib.Data.List.TakeWhile
import Mathlib.Tactic.Ring

/-! # Scores of the live leaderboard

Model of `scoring.service.ts` and of the metadata type of `redis.service.ts`. Statuses are the
strings that travel through the queue; the type union of the source is not checked at run time.
Numbers are exact integers. The entries of `problems` are read in the order of `Object.entries`;
`standing_computeUserScores` shows that this order does not matter for the score.
-/

namespace JudgeSelf.LeaderboardService

/-- `env.penaltyOffset`. -/
def penaltyOffset : ℤ := 10000000

structure ProblemProblemState where
  submissionId : String
  relativeSubmittedAt : ℤ
  status : String
deriving DecidableEq, Repr

/-- The entry of one user in the metadata hash of a contest. -/
structure UserContestMetadata where
  problems : Record String (List ProblemProblemState)
  processedSubmissions : List String
deriving DecidableEq

structure ProblemDetail where
  solved : Bool
  wrongAttemptsBeforeAC : ℕ
  scoreTime : ℤ
  submissions : List ProblemProblemState
deriving DecidableEq, Repr

structure UserScore where
  score : ℤ
  solved : ℕ
  penalty : ℤ
  details : Record String ProblemDetail
deriving DecidableEq

/-- The statuses that count as a wrong attempt. -/
def wrongStatuses : List String := ["WA", "TLE", "MLE", "RE"]

/-- The loop over the sorted submissions of one problem: solved, wrong attempts, score time. -/
def scanSubmissions : List ProblemProblemState → ℕ → Bool × ℕ × ℤ
  | [], wrongAttemptsBeforeAC => (false, wrongAttemptsBeforeAC, 0)
  | sub :: rest, wrongAttemptsBeforeAC =>
    if sub.status = "AC" then (true, wrongAttemptsBeforeAC, sub.relativeSubmittedAt)
    else if sub.status ∈ wrongStatuses then scanSubmissions rest (wrongAttemptsBeforeAC + 1)
    else scanSubmissions rest wrongAttemptsBeforeAC

/-- One iteration over `Object.entries(metadata.problems)`, up to the accumulators. -/
def problemDetail (submissions : List ProblemProblemState) : ProblemDetail :=
  let sorted := submissions.sortByKey ProblemProblemState.relativeSubmittedAt
  let (isSolved, wrongAttemptsBeforeAC, scoreTime) := scanSubmissions sorted 0
  ⟨isSolved, wrongAttemptsBeforeAC, scoreTime, sorted⟩

structure ScoreState where
  solvedCount : ℕ
  totalPenalty : ℤ
  details : Record String ProblemDetail

def scoreProblem (state : ScoreState) (entry : String × List ProblemProblemState) : ScoreState :=
  let detail := problemDetail entry.2
  let penaltyForProblem := detail.scoreTime + detail.wrongAttemptsBeforeAC * 20 * 60
  { solvedCount := if detail.solved then state.solvedCount + 1 else state.solvedCount
    totalPenalty := if detail.solved then state.totalPenalty + penaltyForProblem else state.totalPenalty
    details := state.details.set entry.1 detail }

def computeUserScores (metadata : UserContestMetadata) : UserScore :=
  let state := metadata.problems.entries.foldl scoreProblem ⟨0, 0, Record.empty⟩
  { score := state.solvedCount * penaltyOffset - state.totalPenalty
    solved := state.solvedCount
    penalty := state.totalPenalty
    details := state.details }

def ProblemProblemState.accepted (sub : ProblemProblemState) : Bool := sub.status = "AC"

def ProblemProblemState.rejected (sub : ProblemProblemState) : Bool := sub.status ∈ wrongStatuses

theorem ProblemProblemState.not_accepted_of_rejected {sub : ProblemProblemState} (wrong : sub.rejected) :
    sub.accepted = false := by
  simp only [rejected, accepted, decide_eq_true_eq, decide_eq_false_iff_not] at wrong ⊢
  intro accepted
  rw [accepted] at wrong
  exact absurd wrong (by decide)

/-- The time of the first AC of a problem. -/
abbrev acceptedAt (submissions : List ProblemProblemState) : Option ℤ :=
  Icpc.acceptedAt ProblemProblemState.accepted ProblemProblemState.relativeSubmittedAt submissions

/-- The wrong attempts ahead of the first AC, which has time `t`. -/
abbrev rejectedBefore (t : ℤ) (submissions : List ProblemProblemState) : ℕ :=
  Icpc.rejectedBefore ProblemProblemState.accepted ProblemProblemState.rejected
    ProblemProblemState.relativeSubmittedAt t submissions

/-- What one problem adds to the penalty, twenty minutes for a wrong attempt. -/
abbrev problemPenalty (submissions : List ProblemProblemState) : ℤ :=
  Icpc.problemPenalty ProblemProblemState.accepted ProblemProblemState.rejected
    ProblemProblemState.relativeSubmittedAt 1200 submissions

theorem problemPenalty_of_solved {submissions : List ProblemProblemState} {t : ℤ}
    (first : acceptedAt submissions = some t) :
    problemPenalty submissions = t + rejectedBefore t submissions * 1200 :=
  Icpc.problemPenalty_of_solved first

/-- The standing that the ICPC rules give for the problems of a metadata entry. -/
def standing (problems : Record String (List ProblemProblemState)) : Icpc.Standing :=
  Icpc.standing ProblemProblemState.accepted ProblemProblemState.rejected
    ProblemProblemState.relativeSubmittedAt 1200 (problems.entries.map Prod.snd)

/-- The loop stops at the first AC and has counted the wrong attempts ahead of it. -/
theorem scanSubmissions_eq (submissions : List ProblemProblemState) (wrong : ℕ) :
    scanSubmissions submissions wrong =
      ((submissions.find? ProblemProblemState.accepted).isSome,
        wrong + (submissions.takeWhile fun sub => !sub.accepted).countP ProblemProblemState.rejected,
        ((submissions.find? ProblemProblemState.accepted).map
          ProblemProblemState.relativeSubmittedAt).getD 0) := by
  induction submissions generalizing wrong with
  | nil => rfl
  | cons sub rest ih =>
    rw [scanSubmissions]
    by_cases accepted : sub.status = "AC"
    · simp [accepted, ProblemProblemState.accepted]
    · have open_ : sub.accepted = false := by simpa [ProblemProblemState.accepted] using accepted
      by_cases rejected : sub.status ∈ wrongStatuses
      · have counted : sub.rejected = true := by simpa [ProblemProblemState.rejected] using rejected
        simp [accepted, rejected, ih, open_, counted]
        omega
      · have uncounted : sub.rejected = false := by simpa [ProblemProblemState.rejected] using rejected
        simp [accepted, rejected, ih, open_, uncounted]

private theorem countP_takeWhile_of_unsolved {submissions : List ProblemProblemState}
    (unsolved : acceptedAt submissions = none) :
    ((submissions.sortByKey ProblemProblemState.relativeSubmittedAt).takeWhile fun sub =>
      !sub.accepted).countP ProblemProblemState.rejected =
        submissions.countP ProblemProblemState.rejected := by
  have passes : ∀ sub ∈ submissions.sortByKey ProblemProblemState.relativeSubmittedAt,
      (!sub.accepted) = true := by
    intro sub member
    rw [Icpc.acceptedAt_eq_none_iff.mp unsolved sub (List.mem_sortByKey.mp member), Bool.not_false]
  have whole := List.takeWhile_eq_self_iff.mpr passes
  rw [whole, (List.sortByKey_perm _ _).countP_eq]

/-- What the source computes for one problem, from the submissions in the order of recording. -/
theorem problemDetail_eq (submissions : List ProblemProblemState) :
    problemDetail submissions =
      { solved := (acceptedAt submissions).isSome
        wrongAttemptsBeforeAC := match acceptedAt submissions with
          | some t => rejectedBefore t submissions
          | none => submissions.countP ProblemProblemState.rejected
        scoreTime := (acceptedAt submissions).getD 0
        submissions := submissions.sortByKey ProblemProblemState.relativeSubmittedAt } := by
  simp only [problemDetail, scanSubmissions_eq, Nat.zero_add, Icpc.find?_sortByKey]
  rw [← Option.isSome_map (f := ProblemProblemState.relativeSubmittedAt), Icpc.find?_sortByKey]
  congr 1
  split
  · next first => exact Icpc.countP_takeWhile_sortByKey first
  · next unsolved => exact countP_takeWhile_of_unsolved unsolved

private theorem scoreProblem_solvedCount (state : ScoreState) (entry : String × List ProblemProblemState) :
    (scoreProblem state entry).solvedCount =
      state.solvedCount + if (acceptedAt entry.2).isSome then 1 else 0 := by
  simp only [scoreProblem, problemDetail_eq]
  split <;> rfl

private theorem scoreProblem_totalPenalty (state : ScoreState) (entry : String × List ProblemProblemState) :
    (scoreProblem state entry).totalPenalty =
      state.totalPenalty + problemPenalty entry.2 := by
  simp only [scoreProblem, problemDetail_eq]
  rcases first : acceptedAt entry.2 with _ | t
  · simp [problemPenalty, Icpc.problemPenalty_of_unsolved first]
  · rw [problemPenalty_of_solved first]
    simp only [Option.isSome_some, ↓reduceIte, Option.getD_some]
    ring

private theorem foldl_scoreProblem (entries : List (String × List ProblemProblemState)) (state : ScoreState) :
    (entries.foldl scoreProblem state).solvedCount = state.solvedCount +
        (entries.map Prod.snd).countP (fun submissions => (acceptedAt submissions).isSome) ∧
      (entries.foldl scoreProblem state).totalPenalty = state.totalPenalty +
        ((entries.map Prod.snd).map problemPenalty).sum := by
  induction entries generalizing state with
  | nil => simp
  | cons entry rest ih =>
    obtain ⟨solved, penalty⟩ := ih (scoreProblem state entry)
    simp only [List.foldl_cons, List.map_cons, List.countP_cons, List.sum_cons]
    rw [solved, penalty, scoreProblem_solvedCount, scoreProblem_totalPenalty]
    constructor
    · omega
    · ring

/-- The computed numbers that the ICPC rules are about. -/
def UserScore.standing (score : UserScore) : Icpc.Standing := ⟨score.solved, score.penalty⟩

/-- `computeUserScores` counts and adds up as the ICPC rules say. -/
theorem standing_computeUserScores (metadata : UserContestMetadata) :
    (computeUserScores metadata).standing = standing metadata.problems := by
  obtain ⟨solved, penalty⟩ := foldl_scoreProblem metadata.problems.entries ⟨0, 0, Record.empty⟩
  simp only [UserScore.standing, computeUserScores, LeaderboardService.standing, Icpc.standing, solved,
    penalty, Nat.zero_add, Int.zero_add]

theorem computeUserScores_solved (metadata : UserContestMetadata) :
    (computeUserScores metadata).solved = (standing metadata.problems).solved :=
  congrArg Icpc.Standing.solved (standing_computeUserScores metadata)

theorem computeUserScores_penalty (metadata : UserContestMetadata) :
    (computeUserScores metadata).penalty = (standing metadata.problems).penalty :=
  congrArg Icpc.Standing.penalty (standing_computeUserScores metadata)

theorem computeUserScores_score (metadata : UserContestMetadata) :
    (computeUserScores metadata).score = (standing metadata.problems).packed penaltyOffset := by
  rw [Icpc.Standing.packed, ← computeUserScores_solved, ← computeUserScores_penalty]
  rfl

private theorem details_foldl (entries : List (String × List ProblemProblemState)) (state : ScoreState)
    (distinct : (entries.map Prod.fst).Nodup) (k : String) :
    (entries.foldl scoreProblem state).details.get? k =
      ((entries.find? fun e => e.1 = k).map fun e => problemDetail e.2).or (state.details.get? k) := by
  induction entries generalizing state with
  | nil => rfl
  | cons e rest ih =>
    rw [List.map_cons, List.nodup_cons] at distinct
    have here : (scoreProblem state e).details.get? k =
        if k = e.1 then some (problemDetail e.2) else state.details.get? k := Record.get?_set _ _ _ _
    rw [List.foldl_cons, ih _ distinct.2, here]
    split
    · next same =>
      have later : (rest.find? fun e => e.1 = k) = none := by
        rw [List.find?_eq_none]
        intro other member equal
        rw [← same, ← of_decide_eq_true equal] at distinct
        exact distinct.1 (List.mem_map_of_mem member)
      rw [later, List.find?_cons_of_pos (by simpa using same.symm)]
      rfl
    · next differs => rw [List.find?_cons_of_neg (by simpa using Ne.symm differs)]

/-- The details of a problem are computed from its own array. -/
theorem computeUserScores_details (metadata : UserContestMetadata) (k : String) :
    (computeUserScores metadata).details.get? k = (metadata.problems.get? k).map problemDetail := by
  apply (details_foldl metadata.problems.entries _ metadata.problems.nodup k).trans
  rw [Record.get?_empty, Option.or_none, Record.get?, Option.map_map]
  rfl

/-- What scoring sees of a problem: the time of the first AC and the wrong attempts ahead of it. -/
def outcome (submissions : List ProblemProblemState) : Option (ℤ × ℕ) :=
  (acceptedAt submissions).map fun t => (t, rejectedBefore t submissions)

private theorem problemPenalty_eq_outcome (submissions : List ProblemProblemState) :
    problemPenalty submissions = (outcome submissions).elim 0 fun (t, wrong) => t + wrong * 1200 := by
  rcases first : acceptedAt submissions with _ | t
  · simp [outcome, first, problemPenalty]
  · simp [outcome, first, problemPenalty_of_solved first]

private theorem standing_eq_outcomes (problems : Record String (List ProblemProblemState)) :
    standing problems =
      { solved := (problems.entries.map fun e => outcome e.2).countP Option.isSome
        penalty := ((problems.entries.map fun e => outcome e.2).map fun o : Option (ℤ × ℕ) =>
          o.elim 0 fun (t, wrong) => t + wrong * 1200).sum } := by
  simp only [standing, Icpc.standing, List.countP_map, List.map_map, Icpc.Standing.mk.injEq]
  refine ⟨List.countP_congr ?_, congrArg List.sum (List.map_congr_left ?_)⟩
  · intro e _
    simp [outcome]
  · intro e _
    exact problemPenalty_eq_outcome e.2

/-- The order of the problems and the details within them do not matter for the standing. -/
theorem standing_congr {problems other : Record String (List ProblemProblemState)}
    (agree : ∀ k, (problems.get? k).map outcome = (other.get? k).map outcome) :
    standing problems = standing other := by
  have perm := Record.map_entries_perm (fun _ => outcome) (fun _ => outcome) agree
  rw [standing_eq_outcomes, standing_eq_outcomes, perm.countP_eq, (perm.map _).sum_eq]

/-- The standing adds up the share of one problem, of which there may be nothing yet, and those of the others. -/
theorem standing_eq_others (problems : Record String (List ProblemProblemState)) (k : String) :
    standing problems =
      { solved := (if (acceptedAt ((problems.get? k).getD [])).isSome then 1 else 0) +
          (problems.others k).countP fun e => (acceptedAt e.2).isSome
        penalty := problemPenalty ((problems.get? k).getD []) +
          ((problems.others k).map fun e => problemPenalty e.2).sum } := by
  simp only [standing, Icpc.standing, List.countP_map, List.map_map, Function.comp_def]
  cases found : problems.get? k with
  | none =>
    have share : problemPenalty [] = 0 := rfl
    rw [Record.others_of_absent found, Option.getD_none, share, zero_add, if_neg (by decide), zero_add]
  | some submissions =>
    have perm := Record.perm_cons_others found
    rw [perm.countP_eq, (perm.map _).sum_eq, List.countP_cons, List.map_cons, List.sum_cons, Option.getD_some,
      Nat.add_comm]

/-- Rewriting the array of one problem leaves the shares of the others. -/
theorem standing_set (problems : Record String (List ProblemProblemState)) (k : String)
    (new : List ProblemProblemState) :
    standing (problems.set k new) =
      { solved := (if (acceptedAt new).isSome then 1 else 0) +
          (problems.others k).countP fun e => (acceptedAt e.2).isSome
        penalty := problemPenalty new + ((problems.others k).map fun e => problemPenalty e.2).sum } := by
  rw [standing_eq_others _ k, Record.get?_set_self, Option.getD_some, Record.others_set]

/-- Rewriting the array of one problem changes the penalty by that problem's share. -/
theorem penalty_set {problems : Record String (List ProblemProblemState)} {k : String}
    {old : List ProblemProblemState} (found : problems.get? k = some old) (new : List ProblemProblemState) :
    (standing (problems.set k new)).penalty =
      (standing problems).penalty - problemPenalty old + problemPenalty new := by
  rw [standing_set, standing_eq_others problems k, found, Option.getD_some]
  ring

end JudgeSelf.LeaderboardService
