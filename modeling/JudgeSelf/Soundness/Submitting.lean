import JudgeSelf.Model.Submission.Submit

/-! # All or nothing

A request is to leave one row and one message behind if it is answered 202, and neither otherwise.
The compensating delete achieves that for a publishing that fails before the broker has the message.
It does not for a publish call that returns an error, after which the handler panics, nor for a
message that the broker takes without confirming it in time.
-/

namespace JudgeSelf.SubmissionService

/-- What is left of a request, by its answer. -/
def AllOrNothing (stores : Stores) (answer : Response × Stores) : Prop :=
  match answer.1 with
  | .accepted id => ∃ row message, row.id = id ∧ message.submissionId = id ∧
      answer.2.rows = stores.rows ++ [row] ∧ answer.2.broker = stores.broker.publish (.submission message)
  | _ => answer.2.rows = stores.rows ∧ answer.2.broker = stores.broker

/-- A valid request, answered by working database calls. -/
structure Valid (calls : Calls) (stores : Stores) (problemData : ProblemData) (subId : String) : Prop where
  issued : stores.Issued
  problem : calls.problem = .ok problemData
  created : calls.newId = .ok subId
  fresh : subId ∉ stores.issued
  deletes : calls.deleteError = none

variable {calls : Calls} {stores : Stores} {problemData : ProblemData} {subId : String}

theorem Valid.beginSubmit_eq (valid : Valid calls stores problemData subId) (userId : String)
    (req : SubmissionRequest) :
    beginSubmit calls userId (some req) stores =
      (.ok (queueMessage subId problemData (classify calls.now problemData.contestInfo userId req)),
        stores.createSubmission subId (classify calls.now problemData.contestInfo userId req)) := by
  simp only [beginSubmit, valid.problem, valid.created]

theorem Valid.handleSubmit_eq (valid : Valid calls stores problemData subId) (userId : String)
    (req : SubmissionRequest) :
    let classified := classify calls.now problemData.contestInfo userId req
    let created := stores.createSubmission subId classified
    handleSubmit calls userId (some req) stores =
      concludeSubmit (publishSubmission calls.publish) none subId
        (if calls.publish.taken then created.enqueue (.submission (queueMessage subId problemData classified))
          else created) := by
  simp only [handleSubmit, valid.beginSubmit_eq, valid.deletes]
  rfl

/-- The handler is all or nothing exactly when the publish call returns no error and the broker takes
no message that it does not confirm. -/
theorem submit_all_or_nothing_iff (valid : Valid calls stores problemData subId) (userId : String)
    (req : SubmissionRequest) :
    AllOrNothing stores (handleSubmit calls userId (some req) stores) ↔
      (∀ err taken, calls.publish ≠ .publishError err taken) ∧ ∀ err, calls.publish ≠ .unconfirmed err true := by
  have rows := Stores.rows_deleteSubmission_createSubmission valid.issued valid.fresh
    (classify calls.now problemData.contestInfo userId req)
  have undone : ∀ err, publishSubmission calls.publish = .failed err → calls.publish.taken = false →
      AllOrNothing stores (handleSubmit calls userId (some req) stores) := by
    intro err failed untaken
    rw [valid.handleSubmit_eq, failed, untaken]
    exact ⟨rows, rfl⟩
  rcases outcome : calls.publish with _ | ⟨err, taken⟩ | deliveryTag | ⟨err, taken⟩ | _
  · exact iff_of_true (undone _ (by rw [outcome]; rfl) (by rw [outcome]; rfl)) (by simp)
  · refine iff_of_false ?_ fun holds => holds.1 err taken rfl
    rw [valid.handleSubmit_eq, outcome]
    -- the handler has panicked, and the row stays
    rintro ⟨kept, -⟩
    have length := congrArg List.length kept
    cases taken <;> simp [publishSubmission, PublishOutcome.taken, concludeSubmit, Stores.createSubmission,
      Stores.enqueue] at length
  · exact iff_of_true (undone _ (by rw [outcome]; rfl) (by rw [outcome]; rfl)) (by simp)
  · cases taken with
    | false => exact iff_of_true (undone _ (by rw [outcome]; rfl) (by rw [outcome]; rfl)) (by simp)
    | true =>
      refine iff_of_false ?_ fun holds => holds.2 err rfl
      rw [valid.handleSubmit_eq, outcome]
      -- the row is deleted, but the message stays in the queue
      rintro ⟨-, kept⟩
      have length := congrArg (fun broker => broker.ready.length) kept
      simp [PublishOutcome.taken, concludeSubmit, publishSubmission, Stores.createSubmission, Stores.enqueue,
        Stores.deleteSubmission, Machine.Broker.publish] at length
  · refine iff_of_true ?_ (by simp)
    rw [valid.handleSubmit_eq, outcome]
    exact ⟨_, _, rfl, rfl, rfl, rfl⟩

private theorem firstMinute_valid (publish : PublishOutcome) :
    Valid (firstMinute publish) noSubmissions ⟨"p", 1, ⟨"c", 0, 7200 * 10 ^ 9⟩⟩ "s" :=
  ⟨List.forall_mem_nil _, rfl, rfl, List.not_mem_nil, rfl⟩

/-- A nacked message leaves nothing behind. -/
theorem nacked_submit_all_or_nothing :
    AllOrNothing noSubmissions (handleSubmit (firstMinute (.nacked 1)) "u"
      (some pythonRequest) noSubmissions) :=
  (submit_all_or_nothing_iff (firstMinute_valid (.nacked 1)) _ _).mpr ⟨nofun, nofun⟩

/-- A failed publish call leaves a row without a message; a message taken without confirmation is
left without a row. -/
theorem half_finished_submit :
    let unpublished := handleSubmit (firstMinute (.publishError "channel/connection is not open" false)) "u"
      (some pythonRequest) noSubmissions
    let unconfirmed := handleSubmit (firstMinute (.unconfirmed "context deadline exceeded" true)) "u"
      (some pythonRequest) noSubmissions
    (unpublished.1 = .aborted ∧
        unpublished.2.rows = [⟨"s", "p", "u", "RATED", "print(0)", "python", "QUEUE", 60⟩] ∧
        ¬ AllOrNothing noSubmissions unpublished) ∧
      unconfirmed.1 = .error 500 "Failed to queue submission" ∧
        unconfirmed.2.broker.ready = [.submission ⟨"s", "print(0)", "python", "p", 1, "RATED", "u", 60⟩] ∧
        ¬ AllOrNothing noSubmissions unconfirmed := by
  refine ⟨⟨by decide +kernel, by decide +kernel, ?_⟩, by decide +kernel, by decide +kernel, ?_⟩
  · rintro ⟨kept, -⟩
    exact absurd kept (by decide +kernel)
  · rintro ⟨-, kept⟩
    exact absurd kept (by decide +kernel)

end JudgeSelf.SubmissionService
