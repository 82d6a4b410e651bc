import JudgeSelf.Model.Polygon.Js
import JudgeSelf.ToMathlib.Except

/-! # The problem description

Model of `polygon-xml.service.ts` on the object that the XML parser returns: its attributes as `String`
writes them, a missing one as the empty text. What `problem.tags` holds and the constants of the result
are left out.
-/

namespace JudgeSelf.PolygonService

open Js

structure ProblemName where
  language : String
  value : String
deriving DecidableEq

structure Testset where
  name : String
  timeLimit : String
  memoryLimit : String
  testCount : String
deriving DecidableEq

/-- The `source` of a checker or of an interactor. -/
structure FileReference where
  path : String
  type : String
deriving DecidableEq

structure PolygonProblem where
  revision : String
  url : String
  names : List ProblemName
  testsets : List Testset
  /-- The paths of the resource files, where the description has `files`. -/
  files : Option (List String)
  checker : Option FileReference
  interactor : Option FileReference
deriving DecidableEq

structure Resource where
  name : String
  path : String
deriving DecidableEq

structure TestsInfo where
  testSetName : String
  timeLimit : Option ℤ
  memoryLimit : Option ℤ
  testCount : Option ℤ
deriving DecidableEq

structure ParsedProblemXML where
  polygonUrl : String
  polygonRevision : Option ℤ
  problemName : String
  testsInfo : TestsInfo
  checkerSourcePath : String
  checkerLanguage : String
  hasInteractor : Bool
  interactorSourcePath : Option String
  interactorLanguage : Option String
  resources : List Resource
deriving DecidableEq

def extractName (problem : PolygonProblem) : Except String String :=
  match problem.names with
  | [] => throw "No problem name found in the problem. Please ensure the problem has at least one name."
  | first :: rest => pure (((first :: rest).find? (·.language = "english")).getD first).value

/-- `extractResources`; without `files` the access throws. -/
def extractResources (problem : PolygonProblem) : Except String (List Resource) :=
  match problem.files with
  | none => throw "Cannot read properties of undefined (reading 'resources')"
  | some paths =>
    pure <| (paths.filter (· ∉ ["files/problem.tex", "files/statements.ftl", "files/olymp.sty"])).map fun path =>
      ⟨basename path, path⟩

/-- `extractTestsInfo`; NaN is not at most zero. -/
def extractTestsInfo (problem : PolygonProblem) : Except String TestsInfo :=
  match problem.testsets with
  | [] => throw "No testset found in the problem. Please ensure the problem has at least one testset."
  | [testset] =>
    if (parseInt testset.testCount).any (· ≤ 0) then throw "There should be atleast one test in the testset."
    else pure ⟨testset.name, parseInt testset.timeLimit, parseInt testset.memoryLimit, parseInt testset.testCount⟩
  | _ :: _ :: _ =>
    throw "Multiple testsets are not supported yet. Please ensure the problem has only one testset."

def extractCheckerInfo (problem : PolygonProblem) : Except String FileReference :=
  match problem.checker with
  | none => throw "No checker was found. Please add atleast one checker."
  | some source =>
    if source.path = "" then throw "Checker source not found in problem. Are you sure a checker is provided?"
    else if source.type = "" then throw "Checker language is not defined in problem."
    else pure source

def extractInteractorInfo (problem : PolygonProblem) : Except String (Option FileReference) :=
  match problem.interactor with
  | none => pure none
  | some source =>
    if source.path = "" then throw "Interactor source not found in problem. Are you sure an interactor is provided?"
    else if source.type = "" then throw "Interactor language is not defined in problem."
    else pure (some source)

/-- `parseProblemXML` after the XML parser. -/
def parseProblemXML (problem : PolygonProblem) : Except String ParsedProblemXML := do
  let problemName ← extractName problem
  let resources ← extractResources problem
  let testsInfo ← extractTestsInfo problem
  let checkerInfo ← extractCheckerInfo problem
  let interactorInfo ← extractInteractorInfo problem
  pure
    { polygonUrl := problem.url
      polygonRevision := parseInt problem.revision
      problemName := problemName
      testsInfo := testsInfo
      checkerSourcePath := checkerInfo.path
      checkerLanguage := checkerInfo.type
      hasInteractor := problem.interactor.isSome
      interactorSourcePath := interactorInfo.map (·.path)
      interactorLanguage := interactorInfo.map (·.type)
      resources := resources }

theorem resources_of_parseProblemXML {problem : PolygonProblem} {parsed : ParsedProblemXML}
    (parses : parseProblemXML problem = .ok parsed) : extractResources problem = .ok parsed.resources := by
  obtain ⟨_, _, parses⟩ := Except.bind_eq_ok_iff.mp parses
  obtain ⟨resources, extracted, parses⟩ := Except.bind_eq_ok_iff.mp parses
  obtain ⟨_, _, parses⟩ := Except.bind_eq_ok_iff.mp parses
  obtain ⟨_, _, parses⟩ := Except.bind_eq_ok_iff.mp parses
  obtain ⟨_, _, parses⟩ := Except.bind_eq_ok_iff.mp parses
  obtain rfl := Except.ok.inj parses
  exact extracted

theorem notMem_of_mem_extractResources {problem : PolygonProblem} {resources : List Resource}
    (extracted : extractResources problem = .ok resources) {resource : Resource} (member : resource ∈ resources) :
    '/' ∉ resource.name.toList := by
  rw [extractResources] at extracted
  split at extracted
  · exact absurd extracted Except.throw_ne_ok
  · obtain rfl := Except.ok.inj extracted
    obtain ⟨path, _, rfl⟩ := List.mem_map.mp member
    exact notMem_basename path

theorem testsInfo_of_parseProblemXML {problem : PolygonProblem} {parsed : ParsedProblemXML}
    (parses : parseProblemXML problem = .ok parsed) : extractTestsInfo problem = .ok parsed.testsInfo := by
  obtain ⟨_, _, parses⟩ := Except.bind_eq_ok_iff.mp parses
  obtain ⟨_, _, parses⟩ := Except.bind_eq_ok_iff.mp parses
  obtain ⟨testsInfo, extracted, parses⟩ := Except.bind_eq_ok_iff.mp parses
  obtain ⟨_, _, parses⟩ := Except.bind_eq_ok_iff.mp parses
  obtain ⟨_, _, parses⟩ := Except.bind_eq_ok_iff.mp parses
  obtain rfl := Except.ok.inj parses
  exact extracted

theorem testCount_positive {problem : PolygonProblem} {testsInfo : TestsInfo}
    (extracted : extractTestsInfo problem = .ok testsInfo) {n : ℤ} (testCount : testsInfo.testCount = some n) :
    0 < n := by
  rw [extractTestsInfo] at extracted
  split at extracted
  · exact absurd extracted Except.throw_ne_ok
  · split at extracted
    · exact absurd extracted Except.throw_ne_ok
    · next some =>
      obtain rfl := Except.ok.inj extracted
      dsimp only at testCount
      rw [testCount] at some
      simpa using some
  · exact absurd extracted Except.throw_ne_ok

/-- The numbers of the only testset. -/
theorem testsInfo_eq {problem : PolygonProblem} {testset : Testset} (only : problem.testsets = [testset])
    {testsInfo : TestsInfo} (extracted : extractTestsInfo problem = .ok testsInfo) :
    testsInfo =
      ⟨testset.name, parseInt testset.timeLimit, parseInt testset.memoryLimit, parseInt testset.testCount⟩ := by
  rw [extractTestsInfo, only] at extracted
  dsimp only at extracted
  split at extracted
  · contradiction
  · exact (Except.ok.inj extracted).symm

end JudgeSelf.PolygonService
