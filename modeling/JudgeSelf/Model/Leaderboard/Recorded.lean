import JudgeSelf.Model.Leaderboard.Redis

/-! # What a metadata entry records

`UserContestMetadata.ofVerdicts` records verdicts one after another into the initial entry. The
idempotency check of the script makes a stream of verdicts leave the entry of its first deliveries
(`foldl_absorb_initial`), and that entry holds each of them once, in the array of its problem.
-/

namespace JudgeSelf.LeaderboardService

/-- The array element the script inserts for a verdict. -/
def QueueMessage.state (verdict : QueueMessage) : ProblemProblemState :=
  ⟨verdict.submissionId, verdict.relativeSubmittedAt, verdict.status⟩

/-- The elements for the verdicts on one problem, in order. -/
def statesOn (verdicts : List QueueMessage) (problemId : String) : List ProblemProblemState :=
  (verdicts.filter fun verdict => verdict.problemId = problemId).map QueueMessage.state

namespace UserContestMetadata

/-- The entry after recording the verdicts one after another, with no idempotency check. -/
def ofVerdicts (verdicts : List QueueMessage) : UserContestMetadata := verdicts.foldl record initial

@[simp] theorem ofVerdicts_nil : ofVerdicts [] = initial := rfl

@[simp] theorem ofVerdicts_concat (verdicts : List QueueMessage) (verdict : QueueMessage) :
    ofVerdicts (verdicts ++ [verdict]) = (ofVerdicts verdicts).record verdict := by
  simp [ofVerdicts]

/-- A stream of verdicts is recorded as its first deliveries. -/
theorem foldl_absorb_initial (verdicts : List QueueMessage) :
    verdicts.foldl absorb initial = ofVerdicts (Machine.keepFirst QueueMessage.submissionId verdicts) :=
  Machine.foldl_absorb (fun _ _ => rfl) rfl verdicts

theorem ofVerdicts_processedSubmissions (verdicts : List QueueMessage) :
    (ofVerdicts verdicts).processedSubmissions = verdicts.map QueueMessage.submissionId := by
  induction verdicts using List.reverseRecOn with
  | nil => rfl
  | append_singleton verdicts verdict ih => simp [record, ih]

/-- The array of a problem holds its verdicts in order; a problem without verdicts has no array. -/
theorem ofVerdicts_get? (verdicts : List QueueMessage) (problemId : String) :
    (ofVerdicts verdicts).problems.get? problemId =
      if statesOn verdicts problemId = [] then none else some (statesOn verdicts problemId) := by
  induction verdicts using List.reverseRecOn with
  | nil => rfl
  | append_singleton verdicts verdict ih =>
    rw [ofVerdicts_concat, record, Record.get?_set]
    by_cases same : problemId = verdict.problemId
    · subst same
      have track : ((ofVerdicts verdicts).problems.get? verdict.problemId).getD [] =
          statesOn verdicts verdict.problemId := by
        rw [ih]
        split
        · next none => rw [none]; rfl
        · rfl
      simp [track, statesOn, QueueMessage.state]
    · have unchanged : statesOn (verdicts ++ [verdict]) problemId = statesOn verdicts problemId := by
        simp [statesOn, Ne.symm same]
      rw [if_neg same, ih, unchanged]

/-- Recording adds one element to the arrays and leaves all others. -/
theorem record_flatMap_perm (metadata : UserContestMetadata) (verdict : QueueMessage) :
    ((metadata.record verdict).problems.entries.flatMap Prod.snd).Perm
      (verdict.state :: metadata.problems.entries.flatMap Prod.snd) := by
  have written := (metadata.problems.set_perm verdict.problemId
    ((metadata.problems.get? verdict.problemId).getD [] ++ [verdict.state])).flatMap_right Prod.snd
  apply written.trans
  cases found : metadata.problems.get? verdict.problemId with
  | none => rw [Record.others_of_absent found]; rfl
  | some track =>
    have stored := (Record.perm_cons_others found).flatMap_right Prod.snd
    refine List.Perm.trans ?_ (stored.symm.cons verdict.state)
    simp only [List.flatMap_cons, Option.getD_some, List.append_assoc]
    exact List.perm_middle

/-- Over all arrays each recorded verdict stands once. -/
theorem ofVerdicts_flatMap_perm (verdicts : List QueueMessage) :
    ((ofVerdicts verdicts).problems.entries.flatMap Prod.snd).Perm (verdicts.map QueueMessage.state) := by
  induction verdicts using List.reverseRecOn with
  | nil => rfl
  | append_singleton verdicts verdict ih =>
    rw [ofVerdicts_concat, List.map_append, List.map_singleton]
    exact (record_flatMap_perm _ verdict).trans
      ((ih.cons _).trans (List.perm_append_singleton _ _).symm)

/-- All recorded submissions of the user. -/
def submissions (metadata : UserContestMetadata) : List ProblemProblemState :=
  metadata.problems.entries.flatMap Prod.snd

/-- The processed ids are those of the recorded submissions, each once. -/
structure WellFormed (metadata : UserContestMetadata) : Prop where
  ids : (metadata.submissions.map ProblemProblemState.submissionId).Perm metadata.processedSubmissions
  nodup : metadata.processedSubmissions.Nodup

theorem wellFormed_initial : initial.WellFormed := ⟨.refl _, List.nodup_nil⟩

theorem mem_processedSubmissions_absorb {metadata : UserContestMetadata} {verdict : QueueMessage} {id : String} :
    id ∈ (metadata.absorb verdict).processedSubmissions ↔
      id ∈ metadata.processedSubmissions ∨ id = verdict.submissionId := by
  rw [absorb, Machine.absorb]
  split
  · next seen =>
    refine ⟨.inl, ?_⟩
    rintro (before | rfl)
    · exact before
    · exact seen
  · simp [record]

/-- What a message adds to the recorded submissions, unless its id is processed. -/
theorem mem_submissions_absorb {metadata : UserContestMetadata} {verdict : QueueMessage}
    {sub : ProblemProblemState} (member : sub ∈ (metadata.absorb verdict).submissions) :
    sub ∈ metadata.submissions ∨
      sub = verdict.state ∧ verdict.submissionId ∉ metadata.processedSubmissions := by
  rw [absorb, Machine.absorb] at member
  split at member
  · exact .inl member
  · next fresh =>
    rcases List.mem_cons.mp ((record_flatMap_perm metadata verdict).mem_iff.mp member) with rfl | before
    · exact .inr ⟨rfl, fresh⟩
    · exact .inl before

theorem WellFormed.absorb {metadata : UserContestMetadata} (wellFormed : metadata.WellFormed)
    (verdict : QueueMessage) : (metadata.absorb verdict).WellFormed := by
  rw [UserContestMetadata.absorb, Machine.absorb]
  split
  · exact wellFormed
  · next fresh =>
    refine ⟨?_, ?_⟩
    · apply ((record_flatMap_perm metadata verdict).map _).trans
      exact ((wellFormed.ids.cons _).trans (List.perm_append_singleton _ _).symm)
    · change (metadata.processedSubmissions ++ [verdict.submissionId]).Nodup
      rw [← List.concat_eq_append, List.nodup_concat]
      exact ⟨fresh, wellFormed.nodup⟩

/-- A processed id is recorded by exactly one submission. -/
theorem WellFormed.exists_unique {metadata : UserContestMetadata} (wellFormed : metadata.WellFormed)
    {id : String} (processed : id ∈ metadata.processedSubmissions) :
    ∃ sub, metadata.submissions.filter (fun sub => sub.submissionId = id) = [sub] := by
  have once : (metadata.submissions.filter fun sub => sub.submissionId = id).length = 1 := by
    have counted := List.count_eq_one_of_mem wellFormed.nodup processed
    rw [← wellFormed.ids.count_eq, List.count, List.countP_map, List.countP_eq_length_filter] at counted
    rw [← counted]
    congr 1
  exact List.length_eq_one_iff.mp once

end UserContestMetadata

end JudgeSelf.LeaderboardService
