import JudgeSelf.Model.Leaderboard.Consumer

/-! # Orders of delivery

Scoring sorts the submissions of a problem by whole seconds, and ties keep the order of arrival. A
set of verdicts gives every user the same row of the board in every order of handling exactly when
no wrong attempt falls into the second of the user's first AC on the same problem.
-/

namespace JudgeSelf.LeaderboardService

/-- Score, solved count and penalty of a user. -/
def boardRow (redis : Redis) (contestId userId : String) : Option ℤ × Option (ℕ × ℤ) :=
  (redis.score? contestId userId, (redis.metadata contestId userId).map fun metadata =>
    ((computeUserScores metadata).solved, (computeUserScores metadata).penalty))

/-- Verdicts of one user on one problem of one contest. -/
def QueueMessage.SameTrack (a b : QueueMessage) : Prop :=
  a.contestId = b.contestId ∧ a.userId = b.userId ∧ a.problemId = b.problemId

instance (a b : QueueMessage) : Decidable (a.SameTrack b) := inferInstanceAs (Decidable (_ ∧ _ ∧ _))

/-- A wrong attempt in the second of the user's first AC on the problem. -/
def TiedRejection (verdicts : List QueueMessage) (wrong : QueueMessage) : Prop :=
  wrong.status ∈ wrongStatuses ∧
    (∃ first ∈ verdicts, first.SameTrack wrong ∧ first.status = "AC" ∧
      first.relativeSubmittedAt = wrong.relativeSubmittedAt) ∧
    ∀ other ∈ verdicts, other.SameTrack wrong → other.status = "AC" →
      wrong.relativeSubmittedAt ≤ other.relativeSubmittedAt

instance (verdicts : List QueueMessage) (wrong : QueueMessage) : Decidable (TiedRejection verdicts wrong) :=
  inferInstanceAs (Decidable (_ ∧ _ ∧ _))

/-- The elements of one track come from the verdicts of that track. -/
theorem mem_statesOn_verdictsFor {verdicts : List QueueMessage} {track : QueueMessage}
    {sub : ProblemProblemState} :
    sub ∈ statesOn (verdictsFor track.contestId track.userId verdicts) track.problemId ↔
      ∃ verdict ∈ verdicts, verdict.SameTrack track ∧ verdict.state = sub := by
  simp only [statesOn, verdictsFor, List.mem_map, List.mem_filter, decide_eq_true_eq,
    QueueMessage.Concerns, QueueMessage.SameTrack, eq_comm (a := track.contestId),
    eq_comm (a := track.userId), and_assoc]

/-- Ties are about the time of the first AC that scoring finds. -/
theorem tiedRejection_iff {verdicts : List QueueMessage} {wrong : QueueMessage} :
    TiedRejection verdicts wrong ↔ wrong.status ∈ wrongStatuses ∧
      acceptedAt (statesOn (verdictsFor wrong.contestId wrong.userId verdicts) wrong.problemId) =
        some wrong.relativeSubmittedAt := by
  apply and_congr_right
  intro _
  rw [acceptedAt, Icpc.acceptedAt_eq_some_iff]
  simp only [mem_statesOn_verdictsFor, ProblemProblemState.accepted, decide_eq_true_eq]
  constructor
  · rintro ⟨⟨first, member, track, status, time⟩, least⟩
    refine ⟨⟨first.state, ⟨first, member, track, rfl⟩, status, time⟩, ?_⟩
    rintro _ ⟨other, present, same, rfl⟩ accepted
    exact least other present same accepted
  · rintro ⟨⟨_, ⟨first, member, track, rfl⟩, status, time⟩, least⟩
    refine ⟨⟨first, member, track, status, time⟩, fun other present same accepted => ?_⟩
    exact least _ ⟨other, present, same, rfl⟩ accepted

/-- The row of a user is a function of the standing of the stored entry. -/
theorem boardRow_processLiveVerdicts (verdicts : List QueueMessage) (c u : String) :
    boardRow (processLiveVerdicts verdicts) c u =
      let row := ((processLiveVerdicts verdicts).metadata c u).map fun metadata => standing metadata.problems
      (row.map (Icpc.Standing.packed penaltyOffset), row.map fun s => (s.solved, s.penalty)) := by
  rw [boardRow, score?_processLiveVerdicts]
  simp only [computeUserScores_score, computeUserScores_solved, computeUserScores_penalty, Option.map_map,
    Function.comp_def]

private theorem statesOn_perm {first second : List QueueMessage} (perm : first.Perm second) (p : String) :
    (statesOn first p).Perm (statesOn second p) := (perm.filter _).map _

/-- Without ties a problem scores the same in every order of recording. -/
private theorem outcome_perm {submissions other : List ProblemProblemState} (perm : submissions.Perm other)
    (clear : ∀ sub ∈ submissions, acceptedAt submissions = some sub.relativeSubmittedAt → sub.rejected = false) :
    outcome submissions = outcome other := by
  rw [outcome, outcome, acceptedAt, acceptedAt, ← Icpc.acceptedAt_perm perm]
  rcases first : Icpc.acceptedAt ProblemProblemState.accepted ProblemProblemState.relativeSubmittedAt
    submissions with _ | t
  · rfl
  · have here : ∀ sub ∈ submissions, sub.relativeSubmittedAt = t → sub.rejected = false :=
      fun sub member same => clear sub member (by rw [acceptedAt, first, same])
    have there : ∀ sub ∈ other, sub.relativeSubmittedAt = t → sub.rejected = false :=
      fun sub member => here sub (perm.mem_iff.mpr member)
    rw [Option.map_some, Option.map_some, rejectedBefore, rejectedBefore,
      Icpc.rejectedBefore_of_clear here, Icpc.rejectedBefore_of_clear there, perm.countP_eq]

/-- Verdicts without ties give the same standing in every order of recording. -/
theorem standing_ofVerdicts_perm {first second : List QueueMessage} (perm : first.Perm second)
    (clear : ∀ p, ∀ sub ∈ statesOn first p,
      acceptedAt (statesOn first p) = some sub.relativeSubmittedAt → sub.rejected = false) :
    standing (UserContestMetadata.ofVerdicts first).problems =
      standing (UserContestMetadata.ofVerdicts second).problems := by
  apply standing_congr
  intro p
  have arrays := statesOn_perm perm p
  rw [UserContestMetadata.ofVerdicts_get?, UserContestMetadata.ofVerdicts_get?]
  by_cases empty : statesOn first p = []
  · rw [empty] at arrays
    rw [if_pos empty, if_pos arrays.symm.eq_nil]
  · have nonempty : statesOn second p ≠ [] := fun none => empty (List.Perm.eq_nil (none ▸ arrays))
    rw [if_neg empty, if_neg nonempty, Option.map_some, Option.map_some, outcome_perm arrays (clear p)]

/-- A tied wrong attempt counts when it is recorded first and not when it is recorded last. -/
theorem penalty_of_tie {rest : List QueueMessage} {wrong : QueueMessage}
    (rejected : wrong.status ∈ wrongStatuses)
    (first : acceptedAt (statesOn rest wrong.problemId) = some wrong.relativeSubmittedAt) :
    (standing (UserContestMetadata.ofVerdicts (wrong :: rest)).problems).penalty =
      (standing (UserContestMetadata.ofVerdicts (rest ++ [wrong])).problems).penalty + 1200 := by
  have counts : wrong.state.rejected = true := decide_eq_true rejected
  have unaccepted := ProblemProblemState.not_accepted_of_rejected counts
  have ahead : statesOn (wrong :: rest) wrong.problemId = wrong.state :: statesOn rest wrong.problemId := by
    simp [statesOn]
  have behind : statesOn (rest ++ [wrong]) wrong.problemId = statesOn rest wrong.problemId ++ [wrong.state] := by
    simp [statesOn]
  have stored : (UserContestMetadata.ofVerdicts (rest ++ [wrong])).problems.get? wrong.problemId =
      some (statesOn rest wrong.problemId ++ [wrong.state]) := by
    rw [UserContestMetadata.ofVerdicts_get?, behind, if_neg (by simp)]
  have moved : standing (UserContestMetadata.ofVerdicts (wrong :: rest)).problems =
      standing ((UserContestMetadata.ofVerdicts (rest ++ [wrong])).problems.set wrong.problemId
        (wrong.state :: statesOn rest wrong.problemId)) := by
    apply standing_congr
    intro p
    rw [Record.get?_set, UserContestMetadata.ofVerdicts_get?]
    by_cases same : p = wrong.problemId
    · subst same
      rw [if_pos rfl, ahead, if_neg (List.cons_ne_nil _ _)]
    · have elsewhere : statesOn (wrong :: rest) p = statesOn (rest ++ [wrong]) p := by
        simp [statesOn, Ne.symm same]
      rw [if_neg same, UserContestMetadata.ofVerdicts_get?, elsewhere]
  have firstAhead : acceptedAt (wrong.state :: statesOn rest wrong.problemId) = some wrong.relativeSubmittedAt := by
    rw [acceptedAt, Icpc.acceptedAt, List.filter_cons_of_neg (by simp [unaccepted])]
    exact first
  have firstBehind : acceptedAt (statesOn rest wrong.problemId ++ [wrong.state]) =
      some wrong.relativeSubmittedAt := by
    rw [acceptedAt, Icpc.acceptedAt_perm (List.perm_append_singleton _ _)]
    exact firstAhead
  have counted : rejectedBefore wrong.relativeSubmittedAt (wrong.state :: statesOn rest wrong.problemId) =
      rejectedBefore wrong.relativeSubmittedAt (statesOn rest wrong.problemId) + 1 :=
    @Icpc.rejectedBefore_insert _ _ _ _ _ _ _ [] _ _ counts unaccepted (.inr ⟨rfl, by simp⟩)
  have uncounted : rejectedBefore wrong.relativeSubmittedAt (statesOn rest wrong.problemId ++ [wrong.state]) =
      rejectedBefore wrong.relativeSubmittedAt (statesOn rest wrong.problemId) := by
    obtain ⟨⟨sub, member, accepted, time⟩, _⟩ := Icpc.acceptedAt_eq_some_iff.mp first
    exact Icpc.rejectedBefore_concat rfl ⟨sub, member, time, accepted⟩
  rw [moved, penalty_set stored, problemPenalty_of_solved firstAhead, problemPenalty_of_solved firstBehind,
    counted, uncounted]
  push_cast
  ring

/-- The standing behind the row of a user whose verdicts have distinct ids. -/
private theorem standing_processLiveVerdicts {verdicts : List QueueMessage}
    (distinct : (verdicts.map QueueMessage.submissionId).Nodup) (c u : String) :
    ((processLiveVerdicts verdicts).metadata c u).map (fun metadata => standing metadata.problems) =
      if verdictsFor c u verdicts = [] then none
      else some (standing (UserContestMetadata.ofVerdicts (verdictsFor c u verdicts)).problems) := by
  rw [metadata_processLiveVerdicts distinct]
  split <;> rfl

/-- Handling a tied wrong attempt first or last leaves its user with different penalties. -/
theorem boardRow_ne_of_tie {rest : List QueueMessage} {wrong : QueueMessage}
    (distinct : ((wrong :: rest).map QueueMessage.submissionId).Nodup)
    (tied : TiedRejection (wrong :: rest) wrong) :
    boardRow (processLiveVerdicts (wrong :: rest)) wrong.contestId wrong.userId ≠
      boardRow (processLiveVerdicts (rest ++ [wrong])) wrong.contestId wrong.userId := by
  intro equal
  have distinctLast : ((rest ++ [wrong]).map QueueMessage.submissionId).Nodup :=
    ((List.perm_append_singleton wrong rest).map _).nodup_iff.mpr distinct
  have head : verdictsFor wrong.contestId wrong.userId (wrong :: rest) =
      wrong :: verdictsFor wrong.contestId wrong.userId rest := by
    simp [verdictsFor, QueueMessage.Concerns]
  have last : verdictsFor wrong.contestId wrong.userId (rest ++ [wrong]) =
      verdictsFor wrong.contestId wrong.userId rest ++ [wrong] := by
    simp [verdictsFor, QueueMessage.Concerns]
  obtain ⟨rejected, first⟩ := tiedRejection_iff.mp tied
  have unaccepted : wrong.state.accepted = false :=
    ProblemProblemState.not_accepted_of_rejected (decide_eq_true rejected)
  have firstRest : acceptedAt (statesOn (verdictsFor wrong.contestId wrong.userId rest) wrong.problemId) =
      some wrong.relativeSubmittedAt := by
    rw [← first, head, acceptedAt, acceptedAt, Icpc.acceptedAt, Icpc.acceptedAt]
    simp [statesOn, unaccepted]
  have differ := penalty_of_tie rejected firstRest
  rw [boardRow_processLiveVerdicts, boardRow_processLiveVerdicts, standing_processLiveVerdicts distinct,
    standing_processLiveVerdicts distinctLast, head, last, if_neg (List.cons_ne_nil _ _),
    if_neg (by simp)] at equal
  simp only [Option.map_some, Prod.mk.injEq, Option.some.injEq] at equal
  omega

/-- Ties do not depend on the order of the verdicts. -/
theorem tiedRejection_perm {first second : List QueueMessage} (perm : first.Perm second)
    {wrong : QueueMessage} : TiedRejection first wrong ↔ TiedRejection second wrong := by
  simp only [TiedRejection, perm.mem_iff]

/-- The row of a user without ties is the same in every order of handling. -/
theorem boardRow_perm_of_clear {first second : List QueueMessage} (perm : first.Perm second)
    (distinct : (first.map QueueMessage.submissionId).Nodup)
    (clear : ∀ wrong ∈ first, ¬ TiedRejection first wrong) (c u : String) :
    boardRow (processLiveVerdicts first) c u = boardRow (processLiveVerdicts second) c u := by
  have mine : (verdictsFor c u first).Perm (verdictsFor c u second) := perm.filter _
  have empty : verdictsFor c u first = [] ↔ verdictsFor c u second = [] :=
    ⟨fun none => (none ▸ mine).symm.eq_nil, fun none => (none ▸ mine).eq_nil⟩
  have untied : ∀ p, ∀ sub ∈ statesOn (verdictsFor c u first) p,
      acceptedAt (statesOn (verdictsFor c u first) p) = some sub.relativeSubmittedAt →
        sub.rejected = false := by
    intro p sub member tied
    obtain ⟨wrong, present, rfl⟩ := List.mem_map.mp member
    rw [List.mem_filter, decide_eq_true_eq] at present
    obtain ⟨concerned, rfl⟩ := present
    rw [verdictsFor, List.mem_filter, decide_eq_true_eq] at concerned
    obtain ⟨present, rfl, rfl⟩ := concerned
    by_contra counts
    exact clear wrong present (tiedRejection_iff.mpr ⟨of_decide_eq_true (eq_true_of_ne_false counts), tied⟩)
  rw [boardRow_processLiveVerdicts, boardRow_processLiveVerdicts, standing_processLiveVerdicts distinct,
    standing_processLiveVerdicts ((perm.map _).nodup_iff.mp distinct), standing_ofVerdicts_perm mine untied]
  simp only [empty]

/-- The board is the same for all orders of handling exactly when no wrong attempt is tied. -/
theorem delivery_order_irrelevant_iff {verdicts : List QueueMessage}
    (distinct : (verdicts.map QueueMessage.submissionId).Nodup) :
    (∀ first second : List QueueMessage, first.Perm verdicts → second.Perm verdicts → ∀ c u,
        boardRow (processLiveVerdicts first) c u = boardRow (processLiveVerdicts second) c u) ↔
      ∀ wrong ∈ verdicts, ¬ TiedRejection verdicts wrong := by
  constructor
  · intro same wrong member tied
    obtain ⟨front, back, rfl⟩ := List.append_of_mem member
    have isFirst : (wrong :: (front ++ back)).Perm (front ++ wrong :: back) := List.perm_middle.symm
    have isLast : (front ++ back ++ [wrong]).Perm (front ++ wrong :: back) :=
      (List.perm_append_singleton _ _).trans isFirst
    exact boardRow_ne_of_tie ((isFirst.map _).nodup_iff.mpr distinct) ((tiedRejection_perm isFirst).mpr tied)
      (same _ _ isFirst isLast _ _)
  · intro clear first second isFirst isSecond c u
    refine boardRow_perm_of_clear (isFirst.trans isSecond.symm) ((isFirst.map _).nodup_iff.mpr distinct) ?_ c u
    intro wrong member tied
    exact clear wrong (isFirst.mem_iff.mp member) ((tiedRejection_perm isFirst).mp tied)

/-- A wrong attempt one second ahead of the AC counts twenty minutes in either order. -/
theorem delivery_order_irrelevant_untied :
    boardRow (processLiveVerdicts [⟨"s1", "c", "u", "p", "WA", 59⟩, ⟨"s2", "c", "u", "p", "AC", 60⟩]) "c" "u" =
      boardRow (processLiveVerdicts [⟨"s2", "c", "u", "p", "AC", 60⟩, ⟨"s1", "c", "u", "p", "WA", 59⟩]) "c" "u" :=
  (delivery_order_irrelevant_iff (by decide)).mpr (by decide) _ _ (List.Perm.refl _) (List.Perm.swap _ _ _) _ _

/-- A wrong attempt in the second of the AC costs 1200 if it is handled first and nothing otherwise. -/
theorem tied_rejection_order_matters :
    boardRow (processLiveVerdicts [⟨"s1", "c", "u", "p", "WA", 60⟩, ⟨"s2", "c", "u", "p", "AC", 60⟩]) "c" "u" =
        (some 9998740, some (1, 1260)) ∧
      boardRow (processLiveVerdicts [⟨"s2", "c", "u", "p", "AC", 60⟩, ⟨"s1", "c", "u", "p", "WA", 60⟩]) "c" "u" =
        (some 9999940, some (1, 60)) := by
  decide

end JudgeSelf.LeaderboardService
