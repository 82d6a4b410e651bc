import JudgeSelf.Sql.Join
import JudgeSelf.Sql.Page

/-! # Submissions in the database

Model of `status.repository.ts` and `problem.repository.ts` of the status service, and of the tables
`submissions` and `problems` in `init.sql`. Of a row the columns stay that the queries read. A UUID is kept as
its 32 digits, a time in microseconds. The driver returns a `BIGINT` as a text and a time as a `Date`.
-/

namespace JudgeSelf.StatusService

structure Submission where
  id : ℤ
  problemId : List Char
  userId : List Char
  status : String
  time : Option ℤ
  memory : Option ℤ
  createdAt : ℤ
deriving DecidableEq, Repr

structure Problem where
  id : List Char
  contestId : ℤ
  problemIndex : Option String
deriving DecidableEq, Repr

structure Database where
  submissions : List Submission
  problems : List Problem
  submissionIds : (submissions.map Submission.id).Nodup
  problemIds : (problems.map Problem.id).Nodup
  references : ∀ s ∈ submissions, s.problemId ∈ problems.map Problem.id
  integers : ∀ s ∈ submissions, -2147483648 ≤ s.id ∧ s.id < 2147483648

inductive SubmissionColumn
  | problemId
  | userId
deriving DecidableEq, Repr

def submissionsTable : Sql.Table SubmissionColumn Submission where
  typeOf _ := .uuid
  value s
    | .problemId => some (.uuid s.problemId)
    | .userId => some (.uuid s.userId)

/-- A row of `submissions s JOIN problems p`. -/
abbrev Joined := Submission × Problem

inductive Column
  | submission (column : SubmissionColumn)
  /-- `p.contest_id`. -/
  | contestId
deriving DecidableEq, Repr

def joinedTable : Sql.Table Column Joined where
  typeOf
    | .submission column => submissionsTable.typeOf column
    | .contestId => .integer
  value row
    | .submission column => submissionsTable.value row.1 column
    | .contestId => some (.integer row.2.contestId)

/-- `submissions s JOIN problems p ON s.problem_id = p.id`. -/
def Database.joined (db : Database) : List Joined :=
  db.submissions.flatMap fun s => (db.problems.filter fun p => s.problemId = p.id).map (s, ·)

/-- `ORDER BY s.created_at DESC`, one run of it. -/
abbrev Order := List.Arrangement fun row : Joined => row.1.createdAt

def uuidText (digits : List Char) : String :=
  "-".intercalate ([(0, 8), (8, 4), (12, 4), (16, 4), (20, 12)].map fun (start, count) =>
    String.ofList ((digits.drop start).take count))

/-- `row.time ?? 0` of a `BIGINT`. -/
inductive Measured
  | text (s : String)
  | number (n : ℤ)
deriving DecidableEq, Repr

def Measured.ofColumn (column : Option ℤ) : Measured := (column.map fun n => .text (toString n)).getD (.number 0)

structure SubmissionRow where
  submissionId : ℤ
  userId : String
  problemId : String
  contestId : ℤ
  problemIndex : Option String
  status : String
  time : Measured
  memory : Measured
  /-- In milliseconds. -/
  createdAt : ℤ
deriving DecidableEq, Repr

def SubmissionRow.ofJoined (row : Joined) : SubmissionRow where
  submissionId := row.1.id
  userId := uuidText row.1.userId
  problemId := uuidText row.1.problemId
  contestId := row.2.contestId
  problemIndex := row.2.problemIndex
  status := row.1.status
  time := .ofColumn row.1.time
  memory := .ofColumn row.1.memory
  createdAt := row.1.createdAt / 1000

/-- An optional text counts where it is not empty. -/
def given (text : Option String) : Option String := text.filter (· ≠ "")

/-- The clauses `LIMIT` and `OFFSET` where there is a limit, and the parameters with theirs. -/
def paged (conditions : List (Column × ℕ)) (params : List String) (page : ℤ) (limit : Option ℕ) :
    Sql.Query Column × List String :=
  match limit with
  | none | some 0 => (⟨conditions, none, none⟩, params)
  | some limit =>
    let limited := params ++ [toString limit]
    let skipped := limited ++ [toString ((page - 1) * limit)]
    (⟨conditions, some limited.length, some skipped.length⟩, skipped)

/-- What both repositories do with their conditions. -/
def listSubmissions (order : Order) (db : Database) (conditions : List (Column × ℕ)) (params : List String) (page : ℤ)
    (limit : Option ℕ) : Except Sql.QueryError (List SubmissionRow) :=
  let (query, params) := paged conditions params page limit
  List.map .ofJoined <$> query.run joinedTable order params db.joined

/-- The conditions on the contest, which is `$1` where it is given, and on the user. -/
def contestConditions (contestId userId : Option String) : List (Column × ℕ) :=
  if (given contestId).isSome then
    (.contestId, 1) :: if (given userId).isSome then [(.submission .userId, 2)] else []
  else if (given userId).isSome then [(.submission .userId, 1)] else []

def contestParams (contestId userId : Option String) : List String :=
  (given contestId).toList ++ (given userId).toList

def getSubmissionsFromDB (order : Order) (db : Database) (contestId userId : Option String) (page : ℤ)
    (limit : Option ℕ) : Except Sql.QueryError (List SubmissionRow) :=
  listSubmissions order db (contestConditions contestId userId) (contestParams contestId userId) page limit

/-- Without a contest the submissions are counted alone. -/
def getSubmissionsCount (db : Database) (contestId userId : Option String) : Except Sql.QueryError ℕ :=
  if (given contestId).isSome then
    Sql.Query.count ⟨(.contestId, 1) :: if (given userId).isSome then [(.submission .userId, 2)] else [], none, none⟩
      joinedTable (contestParams contestId userId) db.joined
  else
    Sql.Query.count ⟨if (given userId).isSome then [(.userId, 1)] else [], none, none⟩
      submissionsTable (contestParams contestId userId) db.submissions

def problemConditions (userId : Option String) : List (SubmissionColumn × ℕ) :=
  (.problemId, 1) :: if (given userId).isSome then [(.userId, 2)] else []

def problemParams (problemId : String) (userId : Option String) : List String := problemId :: (given userId).toList

def getProblemSubmissionsFromDB (order : Order) (db : Database) (problemId : String) (userId : Option String)
    (page : ℤ) (limit : Option ℕ) : Except Sql.QueryError (List SubmissionRow) :=
  listSubmissions order db ((problemConditions userId).map fun (column, n) => (.submission column, n))
    (problemParams problemId userId) page limit

def getProblemSubmissionsCount (db : Database) (problemId : String) (userId : Option String) :
    Except Sql.QueryError ℕ :=
  Sql.Query.count ⟨problemConditions userId, none, none⟩ submissionsTable (problemParams problemId userId)
    db.submissions

private theorem Database.joined_eq (db : Database) :
    db.joined = Sql.join db.submissions db.problems Submission.problemId Problem.id :=
  rfl

theorem Database.mem_joined_iff {db : Database} {row : Joined} :
    row ∈ db.joined ↔ row.1 ∈ db.submissions ∧ row.2 ∈ db.problems ∧ row.2.id = row.1.problemId := by
  rw [joined_eq, Sql.mem_join_iff, eq_comm (a := row.2.id)]

/-- A submission has one problem. -/
theorem Database.problem_unique {db : Database} {p q : Problem} (first : p ∈ db.problems) (second : q ∈ db.problems)
    (same : p.id = q.id) : p = q :=
  List.inj_on_of_nodup_map db.problemIds first second same

/-- The join keeps every submission once, in its place. -/
theorem Database.map_fst_joined (db : Database) : db.joined.map Prod.fst = db.submissions := by
  rw [joined_eq, Sql.map_fst_join db.problemIds db.references]

end JudgeSelf.StatusService
