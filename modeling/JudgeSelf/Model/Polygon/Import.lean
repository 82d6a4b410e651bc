import JudgeSelf.Machine.Tree
import JudgeSelf.Model.Polygon.Xml

/-! # Importing a problem

Model of `polygon-tests.service.ts`, `archive.service.ts`, `createProblemRecord` and `importProblem`. The
archive is the list of its entries in the order of the calls, the names of directories end with a slash.
What the network, the XML parser, the statement and the database come to is given from outside.
-/

namespace JudgeSelf.PolygonService

open Js
open Machine (Node Tree)
open Machine.Path (resolve)

/-- A call that throws an error where it comes to nothing. -/
def attempt {α : Type} (error : String) : Option α → Except String α
  | some a => pure a
  | none => throw error

/-- One iteration of the loop of `fixTestCases`. -/
def fixTestCase (testsDir : List String) (tree : Tree) (entry : String × Node) : Except String Tree :=
  match entry.2 with
  | .directory => pure tree
  | .file _ =>
    let newName := stripZeros entry.1
    if newName = entry.1 then pure tree
    else attempt "EISDIR: illegal operation on a directory, rename"
      (tree.rename (testsDir ++ [entry.1]) (resolve testsDir newName))

def fixTestCases (tree : Tree) (testsDir : List String) : Except String Tree := do
  let entries ← attempt "ENOENT: no such file or directory, scandir" (tree.readdir testsDir)
  entries.foldlM (fixTestCase testsDir) tree

/-- The name of an input file. -/
def testFileName (testCount : ℤ) (i : ℕ) : String := padStart (toString i) (toString testCount).length '0'

/-- One iteration of the last loop of `validateTestCases`. -/
def requireTest (names : List String) (testCount : ℤ) (i : ℕ) : Except String Unit :=
  let fileName := testFileName testCount i
  if fileName ∉ names then throw ("Missing input test file : " ++ fileName)
  else if fileName ++ ".a" ∉ names then throw ("Missing output test file : " ++ fileName ++ ".a")
  else pure ()

/-- The checks of `validateTestCases`. -/
def checkTestCases (tree : Tree) (testsDir : List String) (testCount : Option ℤ) : Except String Unit := do
  let entries ← attempt "ENOENT: no such file or directory, scandir" (tree.readdir testsDir)
  match testCount with
  | none => throw ("Expected NaN test files (Total NaN tests), but found " ++ toString entries.length ++ ".")
  | some n =>
    if (entries.length : ℤ) ≠ n * 2 then
      throw ("Expected " ++ toString (n * 2) ++ " test files (Total " ++ toString n ++ " tests), but found " ++
        toString entries.length ++ ".")
    else
      match entries.find? (·.2 = .directory) with
      | some entry => throw ("Only files are allowed in the test directory: " ++ entry.1)
      | none => (List.range' 1 n.toNat).forM (requireTest (entries.map Prod.fst) n)

/-- `validateTestCases`, with the tree that it leaves. -/
def validateTestCases (tree : Tree) (testsDir : List String) (testCount : Option ℤ) : Except String Tree := do
  let tree ← (if testCount.any (· < 10) then fixTestCases tree testsDir else pure tree)
  checkTestCases tree testsDir testCount
  pure tree

structure Entry where
  name : String
  node : Node
deriving DecidableEq

/-- `archive.file`; a missing file is a warning, which rejects. -/
def archiveFile (tree : Tree) (path : List String) (name : String) : Except String Entry :=
  match tree.get? path with
  | none => throw "Warning while creating zip file: ENOENT: no such file or directory"
  | some (.file content) => pure ⟨name, .file content⟩
  | some .directory => pure ⟨name ++ "/", .directory⟩

/-- The entry for a path below a directory that is archived under a name. -/
def entryBelow? (directory : List String) (name : String) (e : List String × Node) : Option Entry :=
  if directory <+: e.1 ∧ e.1 ≠ directory then
    let joined := name ++ "/" ++ "/".intercalate (e.1.drop directory.length)
    some ⟨match e.2 with
      | .file _ => joined
      | .directory => joined ++ "/", e.2⟩
  else none

/-- `archive.directory`. -/
def archiveDirectory (tree : Tree) (directory : List String) (name : String) : List Entry :=
  tree.nodes.entries.filterMap (entryBelow? directory name)

/-- The interactor, where the problem has one. -/
def archiveInteractor (tree : Tree) (workDir : List String) (parsedData : ParsedProblemXML) :
    Except String (List Entry) :=
  match parsedData.interactorSourcePath with
  | some path =>
    if parsedData.hasInteractor ∧ path ≠ "" then
      (fun e => [e]) <$> archiveFile tree (resolve workDir path) "interactor"
    else pure []
  | none => pure []

/-- `zipProblemFiles`. -/
def zipProblemFiles (tree : Tree) (workDir : List String) (parsedData : ParsedProblemXML) :
    Except String (List Entry) := do
  let tree ← attempt "EISDIR: illegal operation on a directory, open" (tree.write (workDir ++ ["problem.zip"]) "")
  let checker ← archiveFile tree (resolve workDir parsedData.checkerSourcePath) "checker"
  let interactor ← archiveInteractor tree workDir parsedData
  let tests := archiveDirectory tree (resolve workDir parsedData.testsInfo.testSetName) "tests"
  let resources ← parsedData.resources.mapM fun resource =>
    archiveFile tree (resolve workDir resource.path) ("resources/" ++ resource.name)
  pure (checker :: interactor ++ tests ++ ⟨"resources/", .directory⟩ :: resources)

/-- The columns of the table that the engine reads, apart from the contest. -/
structure ProblemRow where
  id : String
  polygonVersion : ℤ
  timeLimit : ℤ
  memoryLimit : ℤ
  testCount : ℤ
  checkerLanguage : String
  problemZipKey : String
deriving DecidableEq

/-- A number in a column of the given width: the database reads the text that the client writes. -/
def column (type : String) (bits : ℕ) : Option ℤ → Except String ℤ
  | none => throw ("invalid input syntax for type " ++ type ++ ": \"NaN\"")
  | some v =>
    let written := v.sign * shortest v.natAbs
    if -2 ^ (bits - 1) ≤ written ∧ written < 2 ^ (bits - 1) then pure written
    else throw ("value \"" ++ toString written ++ "\" is out of range for type " ++ type)

def createProblemRecord (problemId problemZipKey : String) (parsedData : ParsedProblemXML) :
    Except String ProblemRow := do
  let polygonVersion ← column "integer" 32 parsedData.polygonRevision
  let memoryLimit ← column "bigint" 64 parsedData.testsInfo.memoryLimit
  let timeLimit ← column "integer" 32 parsedData.testsInfo.timeLimit
  let testCount ← column "integer" 32 parsedData.testsInfo.testCount
  pure ⟨problemId, polygonVersion, timeLimit, memoryLimit, testCount, parsedData.checkerLanguage, problemZipKey⟩

/-- What the calls of an import come to that leave the repository. -/
structure ImportCalls where
  problemId : String
  /-- The tree with the package in the working directory. -/
  fetchProblemZip : Tree → Except String Tree
  parse : String → Except String PolygonProblem
  extractProblemStatement : Tree → Except String Unit
  uploadToS3 : String → Except String Unit
  insert : ProblemRow → Except String Unit

/-- `importProblem`: the row, and the archive under its key. -/
def importProblem (calls : ImportCalls) (tmpBaseDir : List String) (tree : Tree) :
    Except String (ProblemRow × List Entry) := do
  let workDir := tmpBaseDir ++ [calls.problemId]
  let tree ← attempt "ENOTDIR: not a directory, mkdir" (tree.mkdirAll workDir)
  let tree ← calls.fetchProblemZip tree
  let xmlContent ← attempt "ENOENT: no such file or directory, open" (tree.readFile (workDir ++ ["problem.xml"]))
  let problem ← calls.parse xmlContent
  let parsedData ← parseProblemXML problem
  calls.extractProblemStatement tree
  let tree ← validateTestCases tree (resolve workDir parsedData.testsInfo.testSetName) parsedData.testsInfo.testCount
  let entries ← zipProblemFiles tree workDir parsedData
  let problemZipKey := "problems/" ++ calls.problemId ++ ".zip"
  calls.uploadToS3 problemZipKey
  let row ← createProblemRecord calls.problemId problemZipKey parsedData
  calls.insert row
  pure (row, entries)

/-- The description of the package, before its parts are extracted. -/
def describedProblem (calls : ImportCalls) (tmpBaseDir : List String) (tree : Tree) : Except String PolygonProblem := do
  let workDir := tmpBaseDir ++ [calls.problemId]
  let tree ← attempt "ENOTDIR: not a directory, mkdir" (tree.mkdirAll workDir)
  let tree ← calls.fetchProblemZip tree
  let xmlContent ← attempt "ENOENT: no such file or directory, open" (tree.readFile (workDir ++ ["problem.xml"]))
  calls.parse xmlContent

theorem attempt_eq_ok {α : Type} {error : String} {o : Option α} {a : α} :
    attempt error o = .ok a ↔ o = some a := by
  cases o with
  | none => simp [attempt, throw, throwThe, MonadExceptOf.throw]
  | some b => simp [attempt, pure, Except.pure]

/-- The parts of an archive that completes. -/
theorem zipProblemFiles_parts {tree : Tree} {workDir : List String} {parsedData : ParsedProblemXML}
    {archive : List Entry} (zipped : zipProblemFiles tree workDir parsedData = .ok archive) :
    ∃ written checker interactor resources, tree.write (workDir ++ ["problem.zip"]) "" = some written ∧
      archiveFile written (resolve workDir parsedData.checkerSourcePath) "checker" = .ok checker ∧
      archiveInteractor written workDir parsedData = .ok interactor ∧
      (parsedData.resources.mapM fun resource =>
        archiveFile written (resolve workDir resource.path) ("resources/" ++ resource.name)) = .ok resources ∧
      archive = checker :: interactor ++
        archiveDirectory written (resolve workDir parsedData.testsInfo.testSetName) "tests" ++
          ⟨"resources/", .directory⟩ :: resources := by
  obtain ⟨written, write, zipped⟩ := Except.bind_eq_ok_iff.mp zipped
  obtain ⟨checker, first, zipped⟩ := Except.bind_eq_ok_iff.mp zipped
  obtain ⟨interactor, second, zipped⟩ := Except.bind_eq_ok_iff.mp zipped
  obtain ⟨resources, others, zipped⟩ := Except.bind_eq_ok_iff.mp zipped
  exact ⟨written, checker, interactor, resources, attempt_eq_ok.mp write, first, second, others,
    (Except.ok.inj zipped).symm⟩

/-- The steps of an import that completes. -/
theorem importProblem_steps {calls : ImportCalls} {tmpBaseDir : List String} {tree : Tree} {row : ProblemRow}
    {entries : List Entry} (imported : importProblem calls tmpBaseDir tree = .ok (row, entries)) :
    ∃ made package xmlContent problem parsedData fixed,
      tree.mkdirAll (tmpBaseDir ++ [calls.problemId]) = some made ∧
      calls.fetchProblemZip made = .ok package ∧
      package.readFile (tmpBaseDir ++ [calls.problemId] ++ ["problem.xml"]) = some xmlContent ∧
      calls.parse xmlContent = .ok problem ∧
      parseProblemXML problem = .ok parsedData ∧
      calls.extractProblemStatement package = .ok () ∧
      validateTestCases package (resolve (tmpBaseDir ++ [calls.problemId]) parsedData.testsInfo.testSetName)
        parsedData.testsInfo.testCount = .ok fixed ∧
      zipProblemFiles fixed (tmpBaseDir ++ [calls.problemId]) parsedData = .ok entries ∧
      createProblemRecord calls.problemId ("problems/" ++ calls.problemId ++ ".zip") parsedData = .ok row := by
  obtain ⟨made, mkdir, imported⟩ := Except.bind_eq_ok_iff.mp imported
  obtain ⟨package, fetched, imported⟩ := Except.bind_eq_ok_iff.mp imported
  obtain ⟨xmlContent, read, imported⟩ := Except.bind_eq_ok_iff.mp imported
  obtain ⟨problem, parses, imported⟩ := Except.bind_eq_ok_iff.mp imported
  obtain ⟨parsedData, extracted, imported⟩ := Except.bind_eq_ok_iff.mp imported
  obtain ⟨⟨⟩, stated, imported⟩ := Except.bind_eq_ok_iff.mp imported
  obtain ⟨fixed, validated, imported⟩ := Except.bind_eq_ok_iff.mp imported
  obtain ⟨archive, zipped, imported⟩ := Except.bind_eq_ok_iff.mp imported
  obtain ⟨_, _, imported⟩ := Except.bind_eq_ok_iff.mp imported
  obtain ⟨created, inserted, imported⟩ := Except.bind_eq_ok_iff.mp imported
  obtain ⟨_, _, imported⟩ := Except.bind_eq_ok_iff.mp imported
  obtain ⟨rfl, rfl⟩ := Prod.mk.inj (Except.ok.inj imported)
  exact ⟨made, package, xmlContent, problem, parsedData, fixed, attempt_eq_ok.mp mkdir, fetched,
    attempt_eq_ok.mp read, parses, extracted, stated, validated, zipped, inserted⟩

/-- What an import that completes has gone through. -/
theorem importProblem_eq_ok {calls : ImportCalls} {tmpBaseDir : List String} {tree : Tree} {row : ProblemRow}
    {entries : List Entry} (imported : importProblem calls tmpBaseDir tree = .ok (row, entries)) :
    ∃ problem parsedData package fixed, describedProblem calls tmpBaseDir tree = .ok problem ∧
      parseProblemXML problem = .ok parsedData ∧
      (package.readFile (tmpBaseDir ++ [calls.problemId] ++ ["problem.xml"])).isSome ∧
      validateTestCases package (resolve (tmpBaseDir ++ [calls.problemId]) parsedData.testsInfo.testSetName)
        parsedData.testsInfo.testCount = .ok fixed ∧
      zipProblemFiles fixed (tmpBaseDir ++ [calls.problemId]) parsedData = .ok entries ∧
      createProblemRecord calls.problemId ("problems/" ++ calls.problemId ++ ".zip") parsedData = .ok row := by
  obtain ⟨made, package, xmlContent, problem, parsedData, fixed, mkdir, fetched, read, parses, extracted, _, validated,
    zipped, inserted⟩ := importProblem_steps imported
  refine ⟨problem, parsedData, package, fixed, ?_, extracted, ?_, validated, zipped, inserted⟩
  · exact Except.bind_eq_ok_iff.mpr ⟨made, attempt_eq_ok.mpr mkdir, Except.bind_eq_ok_iff.mpr ⟨package, fetched,
      Except.bind_eq_ok_iff.mpr ⟨xmlContent, attempt_eq_ok.mpr read, parses⟩⟩⟩
  · rw [read]
    rfl

/-- What a column holds is what the client wrote. -/
theorem column_eq_ok {type : String} {bits : ℕ} {number : Option ℤ} {stored : ℤ}
    (written : column type bits number = .ok stored) :
    ∃ v, number = some v ∧ stored = v.sign * shortest v.natAbs ∧
      -2 ^ (bits - 1) ≤ stored ∧ stored < 2 ^ (bits - 1) := by
  cases number with
  | none => contradiction
  | some v =>
    rw [column] at written
    split at written
    · next fits =>
      obtain rfl := Except.ok.inj written
      exact ⟨v, rfl, rfl, fits⟩
    · contradiction

/-- A natural number in a column. -/
theorem column_natCast {type : String} {bits n : ℕ} {stored : ℤ}
    (written : column type bits (some (n : ℤ)) = .ok stored) :
    stored = shortest n ∧ stored < 2 ^ (bits - 1) := by
  obtain ⟨v, same, value, _, bound⟩ := column_eq_ok written
  obtain rfl := Option.some.inj same
  refine ⟨?_, bound⟩
  rw [value, Int.natAbs_natCast]
  cases n with
  | zero => rw [shortest_of_lt (by decide)]; rfl
  | succ n => rw [Int.sign_eq_one_of_pos (by omega), one_mul]

theorem createProblemRecord_eq_ok {problemId problemZipKey : String} {parsedData : ParsedProblemXML} {row : ProblemRow}
    (created : createProblemRecord problemId problemZipKey parsedData = .ok row) :
    column "bigint" 64 parsedData.testsInfo.memoryLimit = .ok row.memoryLimit ∧
      column "integer" 32 parsedData.testsInfo.timeLimit = .ok row.timeLimit ∧
      column "integer" 32 parsedData.testsInfo.testCount = .ok row.testCount := by
  obtain ⟨_, _, created⟩ := Except.bind_eq_ok_iff.mp created
  obtain ⟨_, memoryLimit, created⟩ := Except.bind_eq_ok_iff.mp created
  obtain ⟨_, timeLimit, created⟩ := Except.bind_eq_ok_iff.mp created
  obtain ⟨_, testCount, created⟩ := Except.bind_eq_ok_iff.mp created
  obtain rfl := Except.ok.inj created
  exact ⟨memoryLimit, timeLimit, testCount⟩

def sampleXml : String :=
  "<problem revision=\"3\" url=\"u\"><names><name language=\"english\" value=\"Sum\"/></names>" ++
    "<judging><testset name=\"tests\"><time-limit>1000</time-limit><memory-limit>268435456</memory-limit>" ++
    "<test-count>2</test-count></testset></judging><files><resources><file path=\"files/olymp.sty\"/>" ++
    "<file path=\"files/testlib.h\" type=\"h.g++\"/></resources></files>" ++
    "<assets><checker><source path=\"check.cpp\" type=\"cpp.g++17\"/></checker></assets></problem>"

def sampleProblem : PolygonProblem where
  revision := "3"
  url := "u"
  names := [⟨"english", "Sum"⟩]
  testsets := [⟨"tests", "1000", "268435456", "2"⟩]
  files := some ["files/olymp.sty", "files/testlib.h"]
  checker := some ⟨"check.cpp", "cpp.g++17"⟩
  interactor := none

/-- The directory of the statement in HTML. -/
def htmlDirectory : List String := ["statements", ".html", "english"]

/-- The files of a package with two tests, and its page. -/
def unpackSample (workDir : List String) (page : String) (tree : Tree) : Option Tree := do
  let tree ← tree.write (workDir ++ ["package.zip"]) "PK"
  let tree ← tree.write (workDir ++ ["problem.xml"]) sampleXml
  let tree ← tree.write (workDir ++ ["check.cpp"]) "int main"
  let tree ← tree.mkdir (workDir ++ ["files"])
  let tree ← tree.write (workDir ++ ["files", "olymp.sty"]) "style"
  let tree ← tree.write (workDir ++ ["files", "testlib.h"]) "testlib"
  let tree ← tree.mkdirAll (workDir ++ htmlDirectory)
  let tree ← tree.write (workDir ++ htmlDirectory ++ ["problem.html"]) page
  let tree ← tree.mkdir (workDir ++ ["tests"])
  let tree ← tree.write (workDir ++ ["tests", "01"]) "1 2"
  let tree ← tree.write (workDir ++ ["tests", "01.a"]) "3"
  let tree ← tree.write (workDir ++ ["tests", "02"]) "2 2"
  tree.write (workDir ++ ["tests", "02.a"]) "4"

def sampleCallsIn (problemId page : String) : ImportCalls where
  problemId := problemId
  fetchProblemZip tree := attempt "Failed to unzip file" (unpackSample ["tmp", "polygon", problemId] page tree)
  parse xmlContent := if xmlContent = sampleXml then pure sampleProblem else throw "no problem"
  extractProblemStatement tree :=
    Functor.mapConst () <| attempt "Failed to read problem statement HTML file"
      (tree.readFile (["tmp", "polygon", problemId] ++ htmlDirectory ++ ["problem.html"]))
  uploadToS3 _ := pure ()
  insert _ := pure ()

def sampleCalls : ImportCalls := sampleCallsIn "p" "<div class=\"legend\">The sum of two numbers.</div>"

def sampleRow : ProblemRow := ⟨"p", 3, 1000, 268435456, 2, "cpp.g++17", "problems/p.zip"⟩

def sampleArchive : List Entry :=
  [⟨"checker", .file "int main"⟩, ⟨"tests/1", .file "1 2"⟩, ⟨"tests/1.a", .file "3"⟩, ⟨"tests/2", .file "2 2"⟩,
    ⟨"tests/2.a", .file "4"⟩, ⟨"resources/", .directory⟩, ⟨"resources/testlib.h", .file "testlib"⟩]

theorem import_sample : importProblem sampleCalls ["tmp", "polygon"] Tree.empty = .ok (sampleRow, sampleArchive) := by
  have done : (importProblem sampleCalls ["tmp", "polygon"] Tree.empty).toOption = some (sampleRow, sampleArchive) := by
    decide +kernel
  cases outcome : importProblem sampleCalls ["tmp", "polygon"] Tree.empty with
  | error e =>
    rw [outcome] at done
    contradiction
  | ok result =>
    rw [outcome] at done
    exact congrArg Except.ok (Option.some.inj done)

end JudgeSelf.PolygonService
