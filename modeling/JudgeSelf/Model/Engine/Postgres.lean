import JudgeSelf.Json.Marshal
import JudgeSelf.Model.Engine.Worker

/-! # Storing a verdict

Model of `UpdateSubmission`. The results go to the database as the text that `json.Marshal` makes of them, into a
column of type JSONB. A time that is an infinity or NaN has no such text.
-/

namespace JudgeSelf.Engine

open Json (Struct)

/-- The bytes of a string. -/
def bytes (s : String) : List UInt8 := s.toList.map fun c => UInt8.ofNat c.toNat

/-- The fields of `models.Result` under their JSON names. -/
def Models.Result.fields (result : Models.Result) : Except String Struct := do
  let time ← Json.floatValue result.time
  pure [("test", .int result.test), ("time", time), ("memory", .int result.memory),
    ("status", .string (bytes result.status)), ("message", .string (bytes result.message)),
    ("input_snippet", .string (bytes result.inputSnippet)), ("output_snippet", .string (bytes result.outputSnippet)),
    ("answer_snippet", .string (bytes result.answerSnippet))]

/-- `json.Marshal` of the results. -/
def Verdict.jsonData (verdict : Verdict) : Except String (List Char) :=
  Json.marshal <$> verdict.results.mapM Models.Result.fields

/-- `UpdateSubmission`, with the error of a database that does not take the statement at all. -/
def PostgresClient.updateSubmission (unavailable : Option String) (verdict : Verdict) : Option String :=
  match verdict.jsonData with
  | .error err => some err
  | .ok jsonData =>
    match unavailable with
    | some err => some err
    | none => if Json.acceptsJsonb jsonData then none else some "unsupported Unicode escape sequence"

end JudgeSelf.Engine
