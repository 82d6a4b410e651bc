import JudgeSelf.Model.StatusChannel
import Mathlib.Data.List.Induction

/-! # Entries of active submissions

The last message that is handled decides whether a submission has an entry. Only the last message of a run
without failures removes it, and nothing makes that message the last one to arrive.
-/

namespace JudgeSelf.StatusService

open Engine (StatusMessage SubmissionData RunCalls RunEnd runWorker)

/-- The messages about one submission. -/
def about (submissionId : String) (messages : List StatusMessage) : List StatusMessage :=
  messages.filter fun msg => msg.submissionId = submissionId

/-- The entry that a message leaves. -/
def entry (msg : StatusMessage) : Option String := if msg.running then some msg.status else none

private theorem subscribe_apply (active : String → Option String) (msg : StatusMessage) (id : String) :
    subscribe active msg id = if msg.submissionId = id then entry msg else active id := by
  rw [subscribe, entry]
  by_cases same : msg.submissionId = id
  · rw [if_pos same, ← same]
    split <;> rw [Function.update_self]
  · rw [if_neg same]
    split <;> rw [Function.update_of_ne (Ne.symm same)]

private theorem entry_eq_none {msg : StatusMessage} : entry msg = none ↔ msg.running = false := by
  cases running : msg.running <;> simp [entry, running]

/-- The last message about a submission decides, whatever is handled in between. -/
theorem foldl_subscribe (active : String → Option String) (handled : List StatusMessage) (id : String) :
    handled.foldl subscribe active id = ((about id handled).getLast?.map entry).getD (active id) := by
  induction handled using List.reverseRecOn with
  | nil => rfl
  | append_singleton handled msg ih =>
    rw [List.foldl_append, List.foldl_cons, List.foldl_nil, subscribe_apply, ih, about, about, List.filter_append,
      List.filter_singleton]
    by_cases same : msg.submissionId = id
    · simp [same]
    · simp [same]

/-- No call of the run fails, and the execution has a result. -/
def Succeeds (calls : RunCalls) (data : SubmissionData) : Prop :=
  calls.mkdirAll = none ∧ ∃ problemData, calls.preExecute = .ok problemData ∧
    ∃ verdict, Engine.Job.verdict ⟨data, problemData⟩
        (Engine.executeWorker calls.env ⟨data, problemData⟩ calls.world).1 = some verdict ∧
      calls.updateSubmission verdict = none

/-- Messages that say that the submission is running. -/
def Running (data : SubmissionData) (messages : List StatusMessage) : Prop :=
  ∀ msg ∈ messages, msg.running = true ∧ msg.submissionId = data.submissionId

/-- A run that does not get to its end says only that the submission is running; one that does says once, at
the end, that it is not. -/
inductive Messages (calls : RunCalls) (data : SubmissionData) : List StatusMessage → Prop
  | unfinished (first : StatusMessage) (rest : List StatusMessage) (running : Running data (first :: rest))
      (fails : ¬ Succeeds calls data) : Messages calls data (first :: rest)
  | finished (front : List StatusMessage) (last : StatusMessage) (running : Running data front)
      (stopped : last.running = false) (ofRun : last.submissionId = data.submissionId)
      (succeeds : Succeeds calls data) : Messages calls data (front ++ [last])

theorem Messages.ne_nil {calls : RunCalls} {data : SubmissionData} {messages : List StatusMessage}
    (shape : Messages calls data messages) : messages ≠ [] := by
  cases shape with
  | unfinished first rest _ _ => exact List.cons_ne_nil first rest
  | finished front last _ _ _ _ => exact List.concat_ne_nil last front

private theorem messages_runWorker (calls : RunCalls) (data : SubmissionData) :
    Messages calls data (runWorker calls data).1 := by
  have start : Running data [Engine.publishStatusUpdate data none none "Running"] :=
    List.forall_mem_singleton.mpr ⟨rfl, rfl⟩
  rw [runWorker]
  split
  · next err failed =>
    refine .unfinished _ _ start fun succeeds => ?_
    rw [succeeds.1] at failed
    contradiction
  · next made =>
    split
    · next err failed =>
      refine .unfinished _ _ start fun ⟨_, _, loaded, _⟩ => ?_
      rw [loaded] at failed
      contradiction
    · next problemData loaded =>
      have updates : Running data (Engine.publishStatusUpdate data none none "Running" ::
          (Engine.executeUpdates calls.env ⟨data, problemData⟩ calls.world).map
            (Engine.publishStatusUpdate data (some problemData) none)) := by
        refine List.forall_mem_cons.mpr ⟨⟨rfl, rfl⟩, fun msg member => ?_⟩
        obtain ⟨status, _, rfl⟩ := List.mem_map.mp member
        exact ⟨rfl, rfl⟩
      rw [Engine.postExecute]
      cases ended : Engine.Job.verdict ⟨data, problemData⟩
          (Engine.executeWorker calls.env ⟨data, problemData⟩ calls.world).1 with
      | none =>
        refine .unfinished _ _ updates fun ⟨_, other, same, verdict, results, _⟩ => ?_
        rw [loaded] at same
        obtain rfl := Except.ok.inj same
        rw [ended] at results
        contradiction
      | some verdict =>
        cases stored : calls.updateSubmission verdict with
        | some err =>
          simp only [Option.map_some, stored]
          refine .unfinished _ _ updates fun ⟨_, other, same, verdict', results, succeeded⟩ => ?_
          rw [loaded] at same
          obtain rfl := Except.ok.inj same
          rw [ended] at results
          obtain rfl := Option.some.inj results
          rw [stored] at succeeded
          contradiction
        | none =>
          simp only [Option.map_some, stored]
          refine .finished _ _ updates ?_ rfl ⟨made, problemData, loaded, verdict, ended, stored⟩
          simp [Engine.publishStatusUpdate]

/-- After all messages of a run, handled in any order and among messages about other submissions, the submission has
no entry if and only if no call of the run fails and its last message is the last one to be handled. -/
theorem active_entry_removed_iff (calls : RunCalls) (data : SubmissionData) (active : String → Option String)
    (handled : List StatusMessage) (all : (about data.submissionId handled).Perm (runWorker calls data).1) :
    handled.foldl subscribe active data.submissionId = none ↔ Succeeds calls data ∧
      (about data.submissionId handled).getLast? = (runWorker calls data).1.getLast? := by
  rw [foldl_subscribe]
  generalize about data.submissionId handled = mine at all
  have shape := messages_runWorker calls data
  generalize (runWorker calls data).1 = messages at all shape
  obtain ⟨latest, isLast⟩ : ∃ latest, mine.getLast? = some latest := by
    apply Option.ne_none_iff_exists'.mp
    rw [ne_eq, List.getLast?_eq_none_iff]
    rintro rfl
    exact shape.ne_nil all.nil_eq.symm
  have sent : latest ∈ messages := all.mem_iff.mp (List.mem_of_getLast? isLast)
  rw [isLast, Option.map_some, Option.getD_some, entry_eq_none]
  cases shape with
  | unfinished first rest running fails =>
    rw [(running latest sent).1]
    exact ⟨nofun, fun both => absurd both.1 fails⟩
  | finished front last running stopped ofRun succeeds =>
    rw [List.getLast?_concat, Option.some_inj]
    refine ⟨fun removed => ⟨succeeds, ?_⟩, fun both => both.2 ▸ stopped⟩
    rcases List.mem_append.mp sent with before | here
    · rw [(running latest before).1] at removed
      contradiction
    · exact List.mem_singleton.mp here

open Engine (pythonJob idleWorker steadyIsolate)

/-- The calls of a run of `pythonJob`; no run of isolate fails. -/
def sampleCalls (preExecute : Except String Engine.ProblemData) : RunCalls where
  mkdirAll := none
  preExecute := preExecute
  env := steadyIsolate none ""
  world := idleWorker
  updateSubmission _ := none

def sampleMessages : List StatusMessage :=
  (runWorker (sampleCalls (.ok pythonJob.problemData)) pythonJob.submissionData).1

example : sampleMessages.map (fun msg => (msg.running, msg.status)) =
    [(true, "Running"), (true, "Compiling"), (true, "Running on test 1"), (false, "AC")] := by
  decide +kernel

/-- In the order of the worker the entry is removed. -/
theorem messages_in_order : sampleMessages.foldl subscribe (fun _ => none) "s" = none := by
  have mine : about "s" sampleMessages = sampleMessages := by decide +kernel
  refine (active_entry_removed_iff (sampleCalls (.ok pythonJob.problemData)) pythonJob.submissionData _ sampleMessages
    (.of_eq mine)).mpr ⟨?_, congrArg List.getLast? mine⟩
  refine ⟨rfl, _, rfl, _, rfl, rfl⟩

/-- With the first message handled last, and after a failed `PreExecute`, the submission stays active. -/
theorem active_entry_stays :
    ((sampleMessages.rotate 1).Perm sampleMessages ∧
      (sampleMessages.rotate 1).foldl subscribe (fun _ => none) "s" = some "Running") ∧
    (runWorker (sampleCalls (.error "Failed to download problem zip from S3: connection refused"))
      pythonJob.submissionData).1.foldl subscribe (fun _ => none) "s" = some "Running" := by
  refine ⟨⟨List.rotate_perm _ _, ?_⟩, ?_⟩
  · decide +kernel
  · decide +kernel

end JudgeSelf.StatusService
