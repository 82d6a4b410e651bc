import JudgeSelf.Model.Leaderboard.Board

/-! # The row of one user

Model of `getUserLeaderboardRow`, and of the rows of both kinds of pages as the objects that they are
at run time. The driver's row has the selected columns, with `BIGINT` as text; reading a column that
is not selected gives `undefined`. A rank of zero is falsy, as is the `null` of an absent member.
-/

namespace JudgeSelf.LeaderboardService

/-- The value of a field. -/
inductive FieldValue
  | undefined
  | number (n : ℤ)
  | string (s : String)
  | details (problemDetails : Record String ProblemDetail)
  /-- The details of a frozen contest: the freeze has taken the ids of the submissions as numbers from their rows. -/
  | frozenDetails (problemDetails : Record String ProblemDetail)
deriving DecidableEq

abbrev RowObject := Record String FieldValue

/-- Reading a field of an object. -/
def RowObject.field (row : RowObject) (name : String) : FieldValue := (row.get? name).getD .undefined

/-- The fields that a `LeaderboardRow` has. -/
def LeaderboardRow.object (row : LeaderboardRow) : RowObject := Record.ofList [
  ("rank", .number row.rank),
  ("userId", .string row.userId),
  ("score", .number row.score),
  ("problemsSolved", .number row.problemsSolved),
  ("penalty", .number row.penalty),
  ("problemDetails", .details row.problemDetails)]

/-- The columns of a row of `contest_results` as the driver maps their types. -/
def ContestResult.columns (result : ContestResult) : RowObject := Record.ofList [
  ("user_id", .string result.userId),
  ("rank", .number result.rank),
  ("score", .string (toString result.score)),
  ("problems_solved", .number result.problemsSolved),
  ("penalty", .string (toString result.penalty)),
  ("problem_details", .frozenDetails result.problemDetails)]

/-- The row of a query that selects the columns. -/
def ContestResult.select (result : ContestResult) (columns : List String) : RowObject :=
  Record.ofList (columns.filterMap fun name => (result.columns.get? name).map fun value => (name, value))

/-- The columns that both queries on `contest_results` select. -/
def resultColumns : List String := ["rank", "user_id", "problems_solved", "penalty", "problem_details"]

def StoredRow.object (row : StoredRow) : RowObject := Record.ofList [
  ("rank", .number row.rank),
  ("user_id", .string row.user_id),
  ("problems_solved", .number row.problems_solved),
  ("penalty", .string row.penalty),
  ("problem_details", .frozenDetails row.problem_details)]

def PageRow.object : PageRow → RowObject
  | .live row => row.object
  | .stored row => row.object

/-- The object that is built from the row of the query for one user. -/
def userRowOf (row : RowObject) : RowObject := Record.ofList [
  ("rank", row.field "rank"),
  ("userId", row.field "user_id"),
  ("score", row.field "score"),
  ("problemsSolved", row.field "problems_solved"),
  ("penalty", row.field "penalty"),
  ("problemDetails", row.field "problem_details")]

def getUserLeaderboardRow (stores : Stores) (contestId userId : String) : Option RowObject :=
  let fromRedis : Option RowObject := do
    let rank ← (stores.redis.zsets (getContestLeaderboardKey contestId)).revRank userId
    if rank ≠ 0 then
      let metadata ← stores.redis.hGet (getContestMetadataKey contestId) userId
      some (liveRow userId (rank + 1) metadata).object
    else none
  let fromDB := ((stores.database.resultsOf contestId).find? fun result => result.userId = userId).map fun result =>
    userRowOf (result.select resultColumns)
  fromRedis.or fromDB

/-- The fields of the object are those of the row. -/
def RowObject.Shows (object : RowObject) (row : LeaderboardRow) : Prop :=
  ∀ name, object.field name = row.object.field name

/-- The rows of a page of results are the rows that its query returns. -/
theorem select_resultColumns (result : ContestResult) :
    result.select resultColumns = result.storedRow.object := rfl

private theorem field_score_object (row : LeaderboardRow) : row.object.field "score" = .number row.score := rfl

/-- No query selects the score. -/
theorem field_score_storedRow (row : StoredRow) : row.object.field "score" = .undefined := rfl

private theorem field_score_userRowOf (row : RowObject) : (userRowOf row).field "score" = row.field "score" := rfl

/-- Nor is it in the object that is built from the row of a query. -/
theorem field_score_userRowOf_select (result : ContestResult) :
    (userRowOf (result.select resultColumns)).field "score" = .undefined := by
  rw [field_score_userRowOf, select_resultColumns]
  exact field_score_storedRow result.storedRow

theorem shows_object (row : LeaderboardRow) : row.object.Shows row := fun _ => rfl

/-- An object without a score shows no row. -/
theorem not_shows_of_undefined {object : RowObject} (score : object.field "score" = .undefined)
    (row : LeaderboardRow) : ¬ object.Shows row := by
  intro shows
  have read := shows "score"
  rw [score, field_score_object] at read
  contradiction

/-- A member that is not the first of the board gets the row of its place. -/
theorem getUserLeaderboardRow_of_revRank {stores : Stores} {c u : String} {k : ℕ} {metadata : UserContestMetadata}
    (rank : (stores.redis.zsets (getContestLeaderboardKey c)).revRank u = some k) (behind : k ≠ 0)
    (stored : stores.redis.metadata c u = some metadata) :
    getUserLeaderboardRow stores c u = some (liveRow u (k + 1) metadata).object := by
  have entry : stores.redis.hGet (getContestMetadataKey c) u = some metadata := stored
  simp [getUserLeaderboardRow, rank, behind, entry]

/-- The first of the board, and whoever is not on it, get what is stored of an earlier freeze. -/
theorem getUserLeaderboardRow_of_falsy {stores : Stores} {c u : String}
    (rank : (stores.redis.zsets (getContestLeaderboardKey c)).revRank u = none ∨
      (stores.redis.zsets (getContestLeaderboardKey c)).revRank u = some 0) :
    getUserLeaderboardRow stores c u = ((stores.database.resultsOf c).find? fun result => result.userId = u).map
      fun result => userRowOf (result.select resultColumns) := by
  rcases rank with absent | first
  · simp [getUserLeaderboardRow, absent]
  · simp [getUserLeaderboardRow, first]

end JudgeSelf.LeaderboardService
