import JudgeSelf.Model.MainApi.Auth
import JudgeSelf.Model.Polygon.Import
import JudgeSelf.Sql.Select

/-! # The problems of a contest

Model of `problem.controller.ts`, `contest.repository.ts` and `problems.repository.ts` of the main API, of
the tables `contests` and `problems` in `init.sql`, and of `createProblemImport` in the polygon service.
A rejected handler is answered by `errorHandler`, with or without `asyncHandler` around it. Body fields
are strings, where a missing field is empty. Of a row the columns stay that these functions read.
-/

namespace JudgeSelf.MainApi

open PolygonService (ImportCalls ProblemRow importProblem)

structure Contest where
  id : ℤ
  ownerId : String
deriving DecidableEq, Repr

/-- A row of `problems`; a null index says that the problem is deleted. -/
structure Problem where
  contestId : ℤ
  problemIndex : Option String
  row : ProblemRow
deriving DecidableEq

/-- What the partial unique index holds of a row. -/
def Problem.key (problem : Problem) : Option (ℤ × String) := problem.problemIndex.map (problem.contestId, ·)

structure Database where
  contests : List Contest
  problems : List Problem
  contestIds : (contests.map Contest.id).Nodup
  problemIds : (problems.map (·.row.id)).Nodup
  references : ∀ problem ∈ problems, problem.contestId ∈ contests.map Contest.id
  indices : (problems.filterMap Problem.key).Nodup

inductive ContestColumn
  | id
deriving DecidableEq, Repr

def contestsTable : Sql.Table ContestColumn Contest where
  typeOf
    | .id => .integer
  value contest
    | .id => some (.integer contest.id)

inductive ProblemColumn
  | id
  | contestId
  | problemIndex
deriving DecidableEq, Repr

def problemsTable : Sql.Table ProblemColumn Problem where
  typeOf
    | .id => .uuid
    | .contestId => .integer
    | .problemIndex => .text
  value problem
    | .id => (Sql.readUuid problem.row.id).map .uuid
    | .contestId => some (.integer problem.contestId)
    | .problemIndex => problem.problemIndex.map .text

/-- The insertion of `createProblemRecord`, from the columns of the package on. -/
def Database.insertProblem (db : Database) (contestId : String) (problemIndex : Option String) (row : ProblemRow) :
    Except Sql.Error (Problem × Database) :=
  match Sql.readInteger contestId with
  | none => throw (.invalidTextRepresentation .integer contestId)
  | some contestId =>
    let problem : Problem := ⟨contestId, problemIndex, row⟩
    if fresh : row.id ∉ db.problems.map (·.row.id) ∧ ∀ key ∈ problem.key, key ∉ db.problems.filterMap Problem.key then
      if known : contestId ∈ db.contests.map Contest.id then
        pure (problem, {
          db with
          problems := db.problems ++ [problem]
          problemIds := by
            rw [List.map_append, List.map_singleton, ← List.concat_eq_append, List.nodup_concat]
            exact ⟨fresh.1, db.problemIds⟩
          references := by
            intro other member
            rcases List.mem_append.mp member with before | new
            · exact db.references other before
            · rw [List.mem_singleton.mp new]
              exact known
          indices := by
            rw [List.filterMap_append]
            cases key : problem.key with
            | none => simpa [key] using db.indices
            | some indexed =>
              simp only [List.filterMap_cons, key, List.filterMap_nil]
              rw [← List.concat_eq_append, List.nodup_concat]
              exact ⟨fresh.2 indexed key, db.indices⟩ })
      else throw .foreignKeyViolation
    else throw .uniqueViolation

namespace ProblemsRepository

def getProblemsDataByContestId (db : Database) (contestId : String) : Except Sql.Error (List Problem) :=
  Sql.select problemsTable [⟨.contestId, some .uuid, contestId⟩] db.problems

def getProblemByContestIdAndIndex (db : Database) (contestId problemIndex : String) :
    Except Sql.Error (Option Problem) := do
  let rows ← Sql.select problemsTable [⟨.contestId, some .uuid, contestId⟩, ⟨.problemIndex, none, problemIndex⟩]
    db.problems
  pure rows.head?

end ProblemsRepository

/-- `ContestData`. -/
structure ContestData where
  contest : Contest
  problems : Option (List Problem)

/-- `getContestById` of `ContestRepository`. -/
def ContestRepository.getContestById (db : Database) (id : String) (includeProblemData : Bool) :
    Except Sql.Error (Option ContestData) := do
  let rows ← Sql.select contestsTable [⟨.id, some .uuid, id⟩] db.contests
  match rows with
  | [] => pure none
  | contest :: _ =>
    match includeProblemData with
    | true => (fun problems => some ⟨contest, some problems⟩) <$> ProblemsRepository.getProblemsDataByContestId db id
    | false => pure (some ⟨contest, none⟩)

inductive ReplyBody
  | message (text : String)
  | problem (problem : Problem)
  /-- The body `result` of an import. -/
  | result (problem : Problem)
deriving DecidableEq

structure Reply where
  status : ℕ
  body : ReplyBody
deriving DecidableEq

/-- The service, with what the calls of an import of a URL come to. -/
structure PolygonServer where
  calls : String → ImportCalls
  tmpBaseDir : List String
  tree : Machine.Tree

/-- The body of a request to `/api/problems/import`; `none` is a field that is missing. -/
structure ImportRequest where
  polygonUrl : String
  contestId : String
  problemIndex : Option String
deriving DecidableEq, Repr

/-- `importProblem` with the insertion into the table. -/
def importInto (polygon : PolygonServer) (db : Database) (request : ImportRequest) :
    Except String (Problem × Database) := do
  let insert (row : ProblemRow) : Except String (Problem × Database) :=
    (db.insertProblem request.contestId request.problemIndex row).mapError fun _ => "error of the database"
  let (row, _) ← importProblem { polygon.calls request.polygonUrl with insert row := (insert row).map fun _ => () }
    polygon.tmpBaseDir polygon.tree
  insert row

def createProblemImport (polygon : PolygonServer) (db : Database) (request : ImportRequest) : Reply × Database :=
  if request.polygonUrl = "" then (⟨400, .message "polygonUrl is required"⟩, db)
  else if request.contestId = "" then (⟨400, .message "contestId is required"⟩, db)
  else
    match importInto polygon db request with
    | .ok (problem, db) => (⟨201, .result problem⟩, db)
    | .error _ => (⟨500, .message "Internal server error"⟩, db)

/-- `errorHandler`. -/
def errorReply : Reply := ⟨500, .message "Internal server error"⟩

/-- The request of `addProblem` to the polygon service. -/
def importRequest (contestId polygonUrl : String) : ImportRequest where
  polygonUrl := polygonUrl
  contestId := contestId
  problemIndex := none

namespace ProblemController

/-- `addProblem` behind `authenticate`. -/
def addProblem (polygon : PolygonServer) (db : Database) (user : Payload) (contestId problemIndex polygonUrl : String) :
    Reply × Database :=
  if contestId = "" then (⟨400, .message "Valid Contest Id is required"⟩, db)
  else if problemIndex = "" then (⟨400, .message "Valid Problem Index is required"⟩, db)
  else if polygonUrl = "" then (⟨400, .message "Valid Polygon Url is required"⟩, db)
  else
    match ContestRepository.getContestById db contestId true with
    | .error _ => (errorReply, db)
    | .ok none => (⟨404, .message "Invalid Contest Id"⟩, db)
    | .ok (some data) =>
      if data.contest.ownerId ≠ user.id then
        (⟨403, .message "You are not authorized to add problems to this contest"⟩, db)
      else if (data.problems.getD []).any fun problem => problem.problemIndex = some problemIndex then
        (⟨400, .message "Problem with this index already exists"⟩, db)
      else createProblemImport polygon db (importRequest contestId polygonUrl)

def getProblem (db : Database) (contestId problemIndex : String) : Reply :=
  if contestId = "" then ⟨400, .message "Valid Contest Id is required"⟩
  else if problemIndex = "" then ⟨400, .message "Valid Problem Index is required"⟩
  else
    match ProblemsRepository.getProblemByContestIdAndIndex db contestId problemIndex with
    | .error _ => errorReply
    | .ok none => ⟨404, .message "Invalid Problem Index"⟩
    | .ok (some problem) => ⟨200, .problem problem⟩

end ProblemController

end JudgeSelf.MainApi
