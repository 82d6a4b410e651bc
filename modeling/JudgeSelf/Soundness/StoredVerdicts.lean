import JudgeSelf.Model.Engine.Logged
import JudgeSelf.Model.Engine.Postgres
import JudgeSelf.ToMathlib.Except

/-! # Verdicts that can be stored

The text of the results is JSON whatever bytes are in the snippets and messages. Only the byte 0 is written as an
escape that `jsonb` refuses, and a time that is not finite has no text; then the verdict is not stored at all.
-/

namespace JudgeSelf.Engine

/-- The update of the submission fails only if the database does not take statements. -/
def Storable (results : List Models.Result) : Prop :=
  ∀ unavailable submissionId status time memory,
    (PostgresClient.updateSubmission unavailable ⟨submissionId, status, time, memory, results⟩).isSome →
      unavailable.isSome

/-- The texts of a result that are not of the engine's own making. -/
def Models.Result.texts (result : Models.Result) : List String :=
  [result.message, result.inputSnippet, result.outputSnippet, result.answerSnippet]

private theorem bytes_status {status : String} (known : status ∈ statuses) : 0 ∉ bytes status := by
  have all : ∀ status ∈ statuses, 0 ∉ bytes status := by decide
  exact all status known

/-- A result has a text that `jsonb` accepts if its time is finite and its texts are free of the byte 0. -/
theorem exists_fields_clean_iff {result : Models.Result} (known : result.status ∈ statuses) :
    (∃ fields, result.fields = .ok fields ∧ ∀ member ∈ fields, Json.Reader.CleanMember member) ↔
      result.time.IsFinite ∧ ∀ text ∈ result.texts, 0 ∉ bytes text := by
  have status := bytes_status known
  rw [Models.Result.fields, Binary64.IsFinite]
  cases result.time with
  | finite negative magnitude =>
    simp only [Json.floatValue, bind, Except.bind, pure, Except.pure, Except.ok.injEq, exists_eq_left']
    simp [Models.Result.texts, Json.Reader.CleanMember, Json.Reader.Clean, status, Binary64.value?, -Prod.forall]
  | infinite negative => exact iff_of_false (by simp [Json.floatValue, bind, Except.bind]) (by simp [Binary64.value?])
  | nan => exact iff_of_false (by simp [Json.floatValue, bind, Except.bind]) (by simp [Binary64.value?])

private theorem storable_iff_accepts {results : List Models.Result} : Storable results ↔
    ∃ structs, results.mapM Models.Result.fields = .ok structs ∧ Json.acceptsJsonb (Json.marshal structs) := by
  simp only [Storable, PostgresClient.updateSubmission, Verdict.jsonData]
  cases results.mapM Models.Result.fields with
  | error err => simp
  | ok structs =>
    by_cases accepted : Json.acceptsJsonb (Json.marshal structs)
    · exact iff_of_true (fun unavailable _ _ _ _ failed => by cases unavailable <;> simp_all) ⟨structs, rfl, accepted⟩
    · simp [accepted]

/-- The condition for results with statuses of the engine. -/
theorem storable_iff {results : List Models.Result} (known : ∀ result ∈ results, result.status ∈ statuses) :
    Storable results ↔ ∀ result ∈ results, result.time.IsFinite ∧ ∀ text ∈ result.texts, 0 ∉ bytes text := by
  simp only [storable_iff_accepts, Json.acceptsJsonb_marshal_iff, Except.exists_mapM_eq_ok_and_iff]
  exact forall₂_congr fun result member => exists_fields_clean_iff (known result member)

/-- What a worker returns for a job can be stored exactly if every time of it is finite, and no message and no snippet
has the byte 0. -/
theorem verdict_storable_iff (env : Environment) (job : Job) (w : World) :
    Storable (executeWorker env job w).1 ↔
      ∀ result ∈ (executeWorker env job w).1, result.time.IsFinite ∧ ∀ text ∈ result.texts, 0 ∉ bytes text :=
  storable_iff (executeWorker_mem_statuses env job w)

/-- An isolate that ends each run without error, and leaves the given output of the first test. -/
def printingIsolate (output : String) : Environment :=
  { steadyIsolate none "" with
    isolate := fun _ command files =>
      match command with
      | .init _ => ⟨none, "/var/lib/isolate/1\n", "", files⟩
      | .run _ _ _ _ => ⟨none, "", "", (files.write (pythonJob.getOutputFilePath 1) output).2⟩ }

/-- A program that prints the byte 0 is accepted by its checker, and its verdict cannot be stored. -/
theorem printed_nul_not_stored :
    (executeWorker (printingIsolate "\x00") pythonJob idleWorker).1.map Models.Result.status = ["AC"] ∧
      (executeWorker (printingIsolate "\x00") pythonJob idleWorker).1.map Models.Result.outputSnippet = ["\x00"] ∧
      ¬ Storable (executeWorker (printingIsolate "\x00") pythonJob idleWorker).1 := by
  refine ⟨by decide +kernel, by decide +kernel, fun storable => ?_⟩
  exact absurd ((storable_iff (executeWorker_mem_statuses _ _ _)).mp storable) (by decide +kernel)

end JudgeSelf.Engine
