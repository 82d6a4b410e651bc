import JudgeSelf.Model.Messages

/-! # Submissions on their way through the queues

A submission is encoded by the submission service, decoded and encoded again by the engine, and decoded
by the leaderboard service. No reader depends on the order of the members, and the reviver renames each
member of a verdict once.
-/

namespace JudgeSelf

namespace Engine

private theorem addressed_marshal (msg : SubmissionService.QueueMessage) :
    Json.addressed SubmissionData.fields msg.marshal =
      ["submission_id", "source_code", "language", "problem_id", "type", "user_id", "relative_submission_time"] := by
  simp only [Json.addressed, SubmissionService.QueueMessage.marshal, List.filterMap_cons]
  decide +kernel

/-- The version addresses no field; each of the other members writes the field of its name. -/
theorem unmarshal_marshal {msg : SubmissionService.QueueMessage}
    (int64 : -2 ^ 63 ≤ msg.relativeSubmissionTime ∧ msg.relativeSubmissionTime < 2 ^ 63) :
    parseSubmissionData msg.marshal = decode (.submission msg) := by
  have known : ∀ field ∈ SubmissionData.fields, Json.resolve SubmissionData.fields field.name = some field := by
    decide +kernel
  have text (values : Json.Values) (name s : String) (field : ⟨name, .string⟩ ∈ SubmissionData.fields) :
      Json.store SubmissionData.fields values (name, .string s) =
        some (Function.update values name (some (.string s))) :=
    Json.store_of_resolve (known _ field) rfl values
  have read : Json.Kind.int64.decode (.number msg.relativeSubmissionTime) =
      some (some (.number msg.relativeSubmissionTime)) := if_pos int64
  have time (values : Json.Values) :
      Json.store SubmissionData.fields values ("relative_submission_time", .number msg.relativeSubmissionTime) =
        some (Function.update values "relative_submission_time" (some (.number msg.relativeSubmissionTime))) :=
    Json.store_of_resolve (known ⟨_, .int64⟩ (by decide)) read values
  have version (values : Json.Values) :
      Json.store SubmissionData.fields values ("ProblemVersion", .number msg.problemVersion) = some values :=
    Json.store_of_unknown (by decide +kernel) _ values
  rw [parseSubmissionData, Json.unmarshal, SubmissionService.QueueMessage.marshal]
  simp (disch := decide) only [List.foldlM_cons, List.foldlM_nil, text, time, version, Option.bind_eq_bind,
    Option.bind_some, Option.pure_def, Option.map_some]
  simp [Json.Values.string, Json.Values.int64, decode]

/-- The body of a submission is read as `decode` says, whatever the order of its members. -/
theorem parseSubmissionData_of_perm {msg : SubmissionService.QueueMessage}
    (int64 : -2 ^ 63 ≤ msg.relativeSubmissionTime ∧ msg.relativeSubmissionTime < 2 ^ 63) {payload : Json.Text}
    (order : payload.Perm msg.marshal) : parseSubmissionData payload = decode (.submission msg) := by
  have distinct : (Json.addressed SubmissionData.fields msg.marshal).Nodup := by
    rw [addressed_marshal]
    decide
  rw [parseSubmissionData, ← Json.unmarshal_perm order.symm distinct]
  exact unmarshal_marshal int64

end Engine

namespace LeaderboardService

/-- The name under which a member is found afterwards. -/
def renamed (key : String) : String := (keyMap.lookup key).getD key

private theorem reviver_renames {α : Type} : (reviver : Json.Reviver α).Renames renamed where
  keeps this key value same := by
    rw [reviver]
    split
    · rfl
    · next other =>
      split
      · next name found =>
        rw [renamed, found, Option.getD_some] at same
        exact absurd (same ▸ found) other
      · rfl
  moves this key value moved := by
    rw [renamed] at moved ⊢
    cases found : keyMap.lookup key with
    | none => exact absurd (by rw [found, Option.getD_none]) moved
    | some name =>
      rw [found, Option.getD_some] at moved
      rw [reviver, found, if_neg fun same => moved (Option.some.inj same)]
      rfl

private theorem double_of_lt {n : ℤ} (exact : n.natAbs < 2 ^ 53) : double n = n := by
  rw [double, Js.nearest_of_lt exact]
  exact Int.sign_mul_natAbs n

/-- The keys of a verdict in the queue. -/
def wireKeys : List String :=
  ["submission_id", "status", "user_id", "contest_id", "problem_id", "relative_submission_time"]

private theorem renamed_distinct : (wireKeys.map renamed).Nodup := by decide +kernel

/-- No new name is the old one of another member, so that no call of the reviver hits a member it has still to see. -/
theorem renamed_fresh : ∀ key ∈ wireKeys, renamed key ≠ key → renamed key ∉ wireKeys := by decide +kernel

private theorem double_of_mem {msg : Engine.RabbitMQPublisher.QueueMessage}
    (exact : msg.relativeSubmissionTime.natAbs < 2 ^ 53)
    {member : String × Json.Scalar} (present : member ∈ msg.marshal) {n : ℤ} (number : member.2 = .number n) :
    double n = n := by
  have time : member.2 = .number n → n = msg.relativeSubmissionTime := by
    simp only [Engine.RabbitMQPublisher.QueueMessage.marshal, List.mem_cons, List.not_mem_nil, or_false] at present
    rcases present with rfl | rfl | rfl | rfl | rfl | rfl <;> simp [eq_comm]
  rw [time number]
  exact double_of_lt exact

/-- The renamed members of an encoded verdict are its fields, up to the order of the two declarations. -/
theorem renamed_marshal (msg : Engine.RabbitMQPublisher.QueueMessage) :
    (msg.marshal.map fun member => (renamed member.1, some member.2)).Perm (QueueMessage.members
      { submissionId := msg.submissionId
        contestId := msg.contestId
        userId := msg.userId
        problemId := msg.problemId
        status := msg.status
        relativeSubmittedAt := msg.relativeSubmissionTime }) := by
  have reordered {α : Type} (status user contest problem : α) (rest : List α) :
      (status :: user :: contest :: problem :: rest).Perm (contest :: user :: problem :: status :: rest) :=
    (List.perm_middle : ([status, user] ++ contest :: (problem :: rest)).Perm _).trans
      (.cons contest (List.perm_middle : ([user, problem] ++ status :: rest).Perm _).symm)
  exact (reordered _ _ _ _ _).cons _

/-- A verdict is decoded to its fields, whatever the order of its members. -/
theorem parseVerdict_of_perm {msg : Engine.RabbitMQPublisher.QueueMessage}
    (exact : msg.relativeSubmissionTime.natAbs < 2 ^ 53) {content : Json.Text} (order : content.Perm msg.marshal) :
    ∃ object, parseVerdict content = some object ∧ object.entries.Perm (QueueMessage.members
      { submissionId := msg.submissionId
        contestId := msg.contestId
        userId := msg.userId
        problemId := msg.problemId
        status := msg.status
        relativeSubmittedAt := msg.relativeSubmissionTime }) := by
  have keys : (content.map Prod.fst).Perm wireKeys := order.map Prod.fst
  have exactly : ∀ member ∈ content, ∀ n, member.2 = .number n → double n = n :=
    fun member present _ => double_of_mem exact (order.mem_iff.mp present)
  have parsed := Json.entries_parse (keys.nodup_iff.mpr (by decide)) exactly
  have same : (Json.parse double content).keys = content.map Prod.fst := by
    rw [Record.keys, parsed, List.map_map]
    rfl
  refine ⟨_, Json.parseWith_of_renames reviver_renames rfl, ?_⟩
  have defined : ∀ e ∈ (Json.parse double content).entries, e.2 ≠ none := by
    rw [parsed]
    exact List.forall_mem_map.mpr fun _ _ => Option.some_ne_none _
  have distinct : ((Json.parse double content).keys.map renamed).Nodup := by
    rw [same]
    exact (keys.map renamed).nodup_iff.mpr renamed_distinct
  have fresh : ∀ key ∈ (Json.parse double content).keys, renamed key ≠ key →
      renamed key ∉ (Json.parse double content).keys := by
    rw [same]
    intro key present moved inside
    exact renamed_fresh key (keys.mem_iff.mp present) moved (keys.mem_iff.mp inside)
  refine (reviver_renames.internalize_perm defined distinct fresh).trans ?_
  rw [parsed, List.map_map]
  exact (order.map _).trans (renamed_marshal msg)

end LeaderboardService

open Engine (parseSubmissionData postExecute)
open LeaderboardService (parseVerdict)

private theorem published_of_rated {updateSubmission : Engine.Verdict → Option String} {job : Engine.Job}
    {results : List Engine.Models.Result} {ended : Engine.PostExecution}
    (executed : postExecute updateSubmission job results = some ended) (rated : job.submissionData.type = "RATED")
    (stored : ended.error = none) : ended.published.isSome := by
  obtain ⟨verdict, _, rfl⟩ := Option.map_eq_some_iff.mp executed
  split at stored
  · contradiction
  · dsimp only
    rw [if_pos rated]
    rfl

/-- A RATED submission with an exact time, encoded in any order of the members, is decoded by the engine; the verdict
that is stored is published, and encoded in any order it is decoded to the six fields with the submission's ids
and time. -/
theorem identity_survives {message : SubmissionService.QueueMessage} (rated : message.type = "RATED")
    (exact : message.relativeSubmissionTime.natAbs < 2 ^ 53) {payload : Json.Text}
    (order : payload.Perm message.marshal) :
    ∃ data, parseSubmissionData payload = some data ∧
      ∀ updateSubmission problemData results ended,
        postExecute updateSubmission ⟨data, problemData⟩ results = some ended → ended.error = none →
          ended.published.isSome ∧
            ∀ content : Json.Text, content.Perm (Engine.Job.queueMessage ⟨data, problemData⟩ ended.verdict).marshal →
              ∃ object, parseVerdict content = some object ∧ object.entries.Perm
                [("submissionId", some (.string message.submissionId)),
                  ("contestId", some (.string problemData.contestId)), ("userId", some (.string message.userId)),
                  ("problemId", some (.string problemData.problemId)),
                  ("status", some (.string ended.verdict.status)),
                  ("relativeSubmittedAt", some (.number message.relativeSubmissionTime))] := by
  have int64 : -2 ^ 63 ≤ message.relativeSubmissionTime ∧ message.relativeSubmissionTime < 2 ^ 63 := by omega
  refine ⟨_, Engine.parseSubmissionData_of_perm int64 order, ?_⟩
  intro updateSubmission problemData results ended executed stored
  exact ⟨published_of_rated executed rated stored, fun content order =>
    LeaderboardService.parseVerdict_of_perm exact order⟩

/-- What is queued for a request in the first minute of a contest. -/
def pythonMessage : SubmissionService.QueueMessage :=
  SubmissionService.queueMessage "s" ⟨"p", 1, ⟨"c", 0, 7200 * 10 ^ 9⟩⟩
    (SubmissionService.classify (fun _ => 60 * 10 ^ 9) ⟨"c", 0, 7200 * 10 ^ 9⟩ "u" SubmissionService.pythonRequest)

/-- Both bodies are read from the last member to the first, after the only test was passed. -/
theorem reversed_message_survives :
    ∃ data, parseSubmissionData pythonMessage.marshal.reverse = some data ∧
      ∃ ended, postExecute (fun _ => none) ⟨data, ⟨"p", 1000, 256, 1, "cpp", "/problem", "c"⟩⟩
          [⟨1, 0, 0, "AC", "", "", "", ""⟩] = some ended ∧
        ∃ object, parseVerdict (Engine.Job.queueMessage ⟨data, ⟨"p", 1000, 256, 1, "cpp", "/problem", "c"⟩⟩
            ended.verdict).marshal.reverse = some object ∧
          object.entries.Perm
            [("submissionId", some (.string "s")), ("contestId", some (.string "c")), ("userId", some (.string "u")),
              ("problemId", some (.string "p")), ("status", some (.string "AC")),
              ("relativeSubmittedAt", some (.number 60))] := by
  obtain ⟨data, parsed, survives⟩ :=
    identity_survives (by decide +kernel) (by decide +kernel) (List.reverse_perm pythonMessage.marshal)
  refine ⟨data, parsed, _, rfl, ?_⟩
  exact (survives (fun _ => none) ⟨"p", 1000, 256, 1, "cpp", "/problem", "c"⟩ [⟨1, 0, 0, "AC", "", "", "", ""⟩] _ rfl
    rfl).2 _ (List.reverse_perm _)

end JudgeSelf
