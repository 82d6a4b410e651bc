import JudgeSelf.Model.MainApi.Problems

/-! # Problems under an index

The lookups of contests and problems cast the id of a contest to a UUID, while the column is an integer:
the database refuses them for every id. `addProblem` stops there, and the index would be lost on the way
to the polygon service.
-/

namespace JudgeSelf.MainApi

variable {polygon : PolygonServer} {db after : Database} {user : Payload} {contestId problemIndex polygonUrl : String}

private theorem integer_ne_uuid : Sql.ColumnType.integer ≠ Sql.ColumnType.uuid := by decide

private theorem getContestById_ne_ok {includeProblemData : Bool} {found : Option ContestData} :
    ContestRepository.getContestById db contestId includeProblemData ≠ .ok found := by
  intro ran
  rw [ContestRepository.getContestById] at ran
  obtain ⟨rows, selected, _⟩ := Except.bind_eq_ok_iff.mp ran
  exact Sql.select_ne_ok List.mem_cons_self integer_ne_uuid _ _ selected

private theorem getProblemByContestIdAndIndex_ne_ok {found : Option Problem} :
    ProblemsRepository.getProblemByContestIdAndIndex db contestId problemIndex ≠ .ok found := by
  intro ran
  rw [ProblemsRepository.getProblemByContestIdAndIndex] at ran
  obtain ⟨rows, selected, _⟩ := Except.bind_eq_ok_iff.mp ran
  exact Sql.select_ne_ok List.mem_cons_self integer_ne_uuid _ _ selected

/-- Whoever owns the contest, the answer is an internal error, and nothing is imported. -/
theorem addProblem_eq (given : contestId ≠ "" ∧ problemIndex ≠ "" ∧ polygonUrl ≠ "") :
    ProblemController.addProblem polygon db user contestId problemIndex polygonUrl = (errorReply, db) := by
  rw [ProblemController.addProblem, if_neg given.1, if_neg given.2.1, if_neg given.2.2]
  cases found : ContestRepository.getContestById db contestId true with
  | error err => rfl
  | ok data => exact absurd found getContestById_ne_ok

private theorem addProblem_status_ne_created (polygon : PolygonServer) (db : Database) (user : Payload)
    (contestId problemIndex polygonUrl : String) :
    (ProblemController.addProblem polygon db user contestId problemIndex polygonUrl).1.status ≠ 201 := by
  by_cases given : contestId ≠ "" ∧ problemIndex ≠ "" ∧ polygonUrl ≠ ""
  · rw [addProblem_eq given]
    exact show 500 ≠ 201 by decide
  · rw [ProblemController.addProblem]
    split_ifs with noContest noIndex noUrl
    · exact show 400 ≠ 201 by decide
    · exact show 400 ≠ 201 by decide
    · exact show 400 ≠ 201 by decide
    · exact absurd ⟨noContest, noIndex, noUrl⟩ given

/-- No problem of a contest is shown under an index. -/
theorem getProblem_status_ne_ok (db : Database) (contestId problemIndex : String) :
    (ProblemController.getProblem db contestId problemIndex).status ≠ 200 := by
  rw [ProblemController.getProblem]
  split
  · decide
  · split
    · decide
    · cases found : ProblemsRepository.getProblemByContestIdAndIndex db contestId problemIndex with
      | error err => exact show 500 ≠ 200 by decide
      | ok problem => exact absurd found getProblemByContestIdAndIndex_ne_ok

private theorem insertProblem_eq_ok {index : Option String} {row : PolygonService.ProblemRow} {problem : Problem}
    (inserted : db.insertProblem contestId index row = .ok (problem, after)) :
    problem.problemIndex = index ∧ after.problems = db.problems ++ [problem] := by
  rw [Database.insertProblem] at inserted
  split at inserted
  · exact absurd inserted Except.throw_ne_ok
  · dsimp only at inserted
    split at inserted
    · split at inserted
      · obtain ⟨rfl, rfl⟩ := Prod.mk.inj (Except.ok.inj inserted)
        exact ⟨rfl, rfl⟩
      · exact absurd inserted Except.throw_ne_ok
    · exact absurd inserted Except.throw_ne_ok

private theorem importInto_eq_ok {request : ImportRequest} {problem : Problem}
    (imported : importInto polygon db request = .ok (problem, after)) :
    problem.problemIndex = request.problemIndex := by
  rw [importInto] at imported
  obtain ⟨⟨row, _⟩, _, inserted⟩ := Except.bind_eq_ok_iff.mp imported
  dsimp only at inserted
  cases stored : db.insertProblem request.contestId request.problemIndex row with
  | error err =>
    rw [stored] at inserted
    contradiction
  | ok result =>
    rw [stored] at inserted
    obtain rfl := Except.ok.inj inserted
    exact (insertProblem_eq_ok stored).1

private theorem createProblemImport_eq (polygon : PolygonServer) (db : Database) (request : ImportRequest) :
    (createProblemImport polygon db request).1.status ≠ 201 ∨
      ∃ problem after, importInto polygon db request = .ok (problem, after) ∧
        createProblemImport polygon db request = (⟨201, .result problem⟩, after) := by
  rw [createProblemImport]
  split
  · exact .inl (show 400 ≠ 201 by decide)
  · split
    · exact .inl (show 400 ≠ 201 by decide)
    · cases outcome : importInto polygon db request with
      | error err => exact .inl (show 500 ≠ 201 by decide)
      | ok result => exact .inr ⟨result.1, result.2, rfl, rfl⟩

/-- What the polygon service stores for a request of `addProblem` counts as deleted. -/
theorem problemIndex_of_import {problem : Problem}
    (imported : (createProblemImport polygon db (importRequest contestId polygonUrl)).1 = ⟨201, .result problem⟩) :
    problem.problemIndex = none := by
  rcases createProblemImport_eq polygon db (importRequest contestId polygonUrl) with
    refused | ⟨stored, after, ran, created⟩
  · exact absurd (congrArg Reply.status imported) refused
  · rw [created] at imported
    cases imported
    exact importInto_eq_ok ran

/-- What one expects of adding a problem under a free index of one's own contest. -/
structure FoundUnderIndex (polygon : PolygonServer) (db : Database) (user : Payload)
    (contestId problemIndex polygonUrl : String) : Prop where
  added : ∃ problem,
    (ProblemController.addProblem polygon db user contestId problemIndex polygonUrl).1 = ⟨201, .result problem⟩ ∧
      ProblemController.getProblem
        (ProblemController.addProblem polygon db user contestId problemIndex polygonUrl).2 contestId problemIndex =
        ⟨200, .problem problem⟩
  others : ∀ other ≠ problemIndex,
    ProblemController.getProblem
      (ProblemController.addProblem polygon db user contestId problemIndex polygonUrl).2 contestId other =
      ProblemController.getProblem db contestId other
  refused : ∀ otherUrl,
    (ProblemController.addProblem polygon
      (ProblemController.addProblem polygon db user contestId problemIndex polygonUrl).2 user contestId problemIndex
      otherUrl).1.status = 400

/-- Neither is the answer the imported problem, nor is any problem found under an index of any contest. -/
theorem never_found_under_index (polygon : PolygonServer) (db : Database) (user : Payload)
    (contestId problemIndex polygonUrl : String) :
    (∀ problem, (ProblemController.addProblem polygon db user contestId problemIndex polygonUrl).1 ≠
        ⟨201, .result problem⟩) ∧
      (∀ later problem, ProblemController.getProblem later contestId problemIndex ≠ ⟨200, .problem problem⟩) ∧
      ¬ FoundUnderIndex polygon db user contestId problemIndex polygonUrl := by
  have answer (problem : Problem) :
      (ProblemController.addProblem polygon db user contestId problemIndex polygonUrl).1 ≠ ⟨201, .result problem⟩ :=
    fun same => addProblem_status_ne_created polygon db user contestId problemIndex polygonUrl
      (congrArg Reply.status same)
  refine ⟨answer, fun later problem shown => ?_, fun found => ?_⟩
  · exact getProblem_status_ne_ok later contestId problemIndex (by rw [shown])
  · obtain ⟨problem, imported, _⟩ := found.added
    exact answer problem imported

/-- The sample package, under a random id. -/
def uuidCalls : PolygonService.ImportCalls :=
  PolygonService.sampleCallsIn "a0eebc99-9c0b-4ef8-bb6d-6bb9bd380a11" "<div class=\"legend\">The sum.</div>"

def packageServer : PolygonServer := ⟨fun _ => uuidCalls, ["tmp", "polygon"], Machine.Tree.empty⟩

/-- A contest of user `u` without problems. -/
def emptyContest : Database where
  contests := [⟨3, "u"⟩]
  problems := []
  contestIds := List.nodup_singleton 3
  problemIds := List.nodup_nil
  references := fun _ member => absurd member List.not_mem_nil
  indices := List.nodup_nil

/-- The package can be imported with its index; the owner's `addProblem` is answered with an internal error, and
`getProblem` as well. -/
theorem owner_cannot_add_problem :
    (createProblemImport packageServer emptyContest ⟨"https://polygon.codeforces.com/p/sum", "3", some "A"⟩).1.status =
        201 ∧
      (ProblemController.addProblem packageServer emptyContest ⟨"u", "ann"⟩ "3" "A"
        "https://polygon.codeforces.com/p/sum").1 = errorReply ∧
      ProblemController.getProblem (ProblemController.addProblem packageServer emptyContest ⟨"u", "ann"⟩ "3" "A"
        "https://polygon.codeforces.com/p/sum").2 "3" "A" = errorReply := by
  decide +kernel

end JudgeSelf.MainApi
