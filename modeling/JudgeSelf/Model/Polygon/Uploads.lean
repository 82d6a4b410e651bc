import JudgeSelf.Model.Polygon.Import

/-! # What an import sends

Model of the images in `statement.service.ts` and of the uploads in `importProblem`: the local files whose
bytes are sent, in the archive or as images, listed by their paths. An import that fails later has sent
them too. What cheerio finds in a page is given from outside.
-/

namespace JudgeSelf.PolygonService

open Machine (Node Tree)
open Machine.Path (resolve)

/-- An image of the statement for which `access` has found something. -/
structure StatementImage where
  name : String
  imgSrc : List String
deriving DecidableEq, Repr

def statementImage? (tree : Tree) (workDir : List String) (imgSrc : String) : Option StatementImage :=
  let imgPath := resolve (workDir ++ htmlDirectory) imgSrc
  if (tree.get? imgPath).isSome then some ⟨imgSrc, imgPath⟩ else none

/-- `extractProblemStatement`; `images` gives the `src` of the `img.tex-graphics` of a page. -/
def extractProblemStatement (images : String → List String) (workDir : List String) (tree : Tree) :
    Except String (List StatementImage) := do
  let htmlContent ← attempt "Failed to read problem statement HTML file"
    (tree.readFile (workDir ++ htmlDirectory ++ ["problem.html"]))
  pure ((images htmlContent).filterMap (statementImage? tree workDir))

/-- A file; a directory has no bytes. -/
def filesAt (tree : Tree) (path : List String) : List (List String) :=
  if (tree.readFile path).isSome then [path] else []

/-- A file below a directory. -/
def fileBelow? (directory : List String) (e : List String × Node) : Option (List String) :=
  if directory <+: e.1 ∧ e.1 ≠ directory then
    match e.2 with
    | .file _ => some e.1
    | .directory => none
  else none

def filesBelow (tree : Tree) (directory : List String) : List (List String) :=
  tree.nodes.entries.filterMap (fileBelow? directory)

def interactorFiles (tree : Tree) (workDir : List String) (parsedData : ParsedProblemXML) : List (List String) :=
  match parsedData.interactorSourcePath with
  | some path => if parsedData.hasInteractor ∧ path ≠ "" then filesAt tree (resolve workDir path) else []
  | none => []

/-- Where `zipProblemFiles` reads the files of the archive. -/
def archivedFiles (tree : Tree) (workDir : List String) (parsedData : ParsedProblemXML) : List (List String) :=
  filesAt tree (resolve workDir parsedData.checkerSourcePath) ++ interactorFiles tree workDir parsedData ++
    filesBelow tree (resolve workDir parsedData.testsInfo.testSetName) ++
    parsedData.resources.flatMap fun resource => filesAt tree (resolve workDir resource.path)

/-- What the uploads start from: the tree with the archive, and what the package is said to hold. -/
structure Prepared where
  tree : Tree
  parsedData : ParsedProblemXML
  images : List StatementImage

/-- `importProblem` up to the first upload. -/
def prepareUploads (calls : ImportCalls) (images : String → List String) (tmpBaseDir : List String) (tree : Tree) :
    Except String Prepared := do
  let workDir := tmpBaseDir ++ [calls.problemId]
  let tree ← attempt "ENOTDIR: not a directory, mkdir" (tree.mkdirAll workDir)
  let tree ← calls.fetchProblemZip tree
  let xmlContent ← attempt "ENOENT: no such file or directory, open" (tree.readFile (workDir ++ ["problem.xml"]))
  let problem ← calls.parse xmlContent
  let parsedData ← parseProblemXML problem
  let images ← extractProblemStatement images workDir tree
  let tree ← validateTestCases tree (resolve workDir parsedData.testsInfo.testSetName) parsedData.testsInfo.testCount
  let _ ← zipProblemFiles tree workDir parsedData
  let tree ← attempt "EISDIR: illegal operation on a directory, open" (tree.write (workDir ++ ["problem.zip"]) "")
  pure ⟨tree, parsedData, images⟩

/-- The loop over the images ends with the first one that cannot be read or uploaded. -/
def uploadImages (calls : ImportCalls) (tree : Tree) : List StatementImage → List (List String)
  | [] => []
  | img :: rest =>
    if (tree.readFile img.imgSrc).isSome then
      img.imgSrc :: match calls.uploadToS3 ("images/" ++ calls.problemId ++ "/" ++ img.name) with
        | .ok _ => uploadImages calls tree rest
        | .error _ => []
    else []

/-- The files that an import has sent when it ends, with or without an error. -/
def sentFiles (calls : ImportCalls) (images : String → List String) (tmpBaseDir : List String) (tree : Tree) :
    List (List String) :=
  match prepareUploads calls images tmpBaseDir tree with
  | .error _ => []
  | .ok prepared =>
    archivedFiles prepared.tree (tmpBaseDir ++ [calls.problemId]) prepared.parsedData ++
      match calls.uploadToS3 ("problems/" ++ calls.problemId ++ ".zip") with
      | .ok _ => uploadImages calls prepared.tree prepared.images
      | .error _ => []

/-- The bytes in an entry. -/
def Entry.contents (entry : Entry) : List String :=
  match entry.node with
  | .file content => [content]
  | .directory => []

variable {tree : Tree} {workDir : List String} {parsedData : ParsedProblemXML}

private theorem contents_archiveFile {path : List String} {name : String} {entry : Entry}
    (archived : archiveFile tree path name = .ok entry) :
    entry.contents = (filesAt tree path).filterMap tree.readFile := by
  rw [archiveFile] at archived
  split at archived
  · exact absurd archived Except.throw_ne_ok
  · next content found =>
    obtain rfl := Except.ok.inj archived
    have read : tree.readFile path = some content := by rw [Tree.readFile, found]
    have single : filesAt tree path = [path] := by
      rw [filesAt, read]
      rfl
    rw [single, List.filterMap_cons_some read]
    rfl
  · next found =>
    obtain rfl := Except.ok.inj archived
    have read : tree.readFile path = none := by rw [Tree.readFile, found]
    rw [filesAt, read]
    rfl

private theorem contents_archiveDirectory (directory : List String) (name : String) :
    (archiveDirectory tree directory name).flatMap Entry.contents =
      (filesBelow tree directory).filterMap tree.readFile := by
  suffices ∀ entries ⊆ tree.nodes.entries, (entries.filterMap (entryBelow? directory name)).flatMap Entry.contents =
      (entries.filterMap (fileBelow? directory)).filterMap tree.readFile from this _ (List.Subset.refl _)
  intro entries listed
  induction entries with
  | nil => rfl
  | cons e rest ih =>
    have tail := ih fun other member => listed (List.mem_cons_of_mem e member)
    have found : tree.get? e.1 = some e.2 := Record.get?_eq_some_iff.mpr (listed List.mem_cons_self)
    rw [List.filterMap_cons, List.filterMap_cons, entryBelow?, fileBelow?]
    split_ifs
    · cases node : e.2 with
      | file content =>
        have read : tree.readFile e.1 = some content := by rw [Tree.readFile, found, node]
        rw [List.flatMap_cons, tail]
        simp only [Entry.contents, List.filterMap_cons, read, List.singleton_append]
      | directory =>
        rw [List.flatMap_cons, tail]
        rfl
    · exact tail

private theorem contents_archiveInteractor {archive : List Entry}
    (archived : archiveInteractor tree workDir parsedData = .ok archive) :
    archive.flatMap Entry.contents = (interactorFiles tree workDir parsedData).filterMap tree.readFile := by
  rw [archiveInteractor] at archived
  cases source : parsedData.interactorSourcePath with
  | none =>
    rw [source] at archived
    obtain rfl := Except.ok.inj archived
    rw [interactorFiles, source]
    rfl
  | some path =>
    simp only [source] at archived
    simp only [interactorFiles, source]
    split at archived
    · next given =>
      obtain ⟨interactor, one, rfl⟩ := Except.map_eq_ok_iff.mp archived
      rw [if_pos given, List.flatMap_singleton, contents_archiveFile one]
    · next missing =>
      obtain rfl := Except.ok.inj archived
      rw [if_neg missing]
      rfl

/-- The bytes in the archive are those of the files that are read. -/
theorem contents_zipProblemFiles {archive : List Entry}
    (zipped : zipProblemFiles tree workDir parsedData = .ok archive) :
    ∃ written, tree.write (workDir ++ ["problem.zip"]) "" = some written ∧
      archive.flatMap Entry.contents = (archivedFiles written workDir parsedData).filterMap written.readFile := by
  obtain ⟨written, checker, interactor, resources, write, first, second, others, rfl⟩ := zipProblemFiles_parts zipped
  refine ⟨written, write, ?_⟩
  have resourceFiles : resources.flatMap Entry.contents =
      (parsedData.resources.flatMap fun resource => filesAt written (resolve workDir resource.path)).filterMap
        written.readFile := by
    rw [List.filterMap_flatMap]
    exact Except.flatMap_mapM_eq_ok (fun _ _ archived => contents_archiveFile archived) others
  simp only [List.flatMap_cons, List.flatMap_append, contents_archiveFile first, contents_archiveInteractor second,
    contents_archiveDirectory, resourceFiles, archivedFiles, List.filterMap_append, List.append_assoc]
  rfl

/-- An import that completes has come to its uploads, with the same archive. -/
theorem prepareUploads_of_importProblem {calls : ImportCalls} {images : String → List String} {tmpBaseDir : List String}
    {row : ProblemRow} {archive : List Entry}
    (statement : calls.extractProblemStatement = fun tree =>
      (extractProblemStatement images (tmpBaseDir ++ [calls.problemId]) tree).map fun _ => ())
    (imported : importProblem calls tmpBaseDir tree = .ok (row, archive)) :
    ∃ prepared, prepareUploads calls images tmpBaseDir tree = .ok prepared ∧
      archive.flatMap Entry.contents =
        (archivedFiles prepared.tree (tmpBaseDir ++ [calls.problemId]) prepared.parsedData).filterMap
          prepared.tree.readFile := by
  obtain ⟨made, package, xmlContent, problem, parsedData, fixed, mkdir, fetched, read, parses, extracted, stated,
    validated, zipped, _⟩ := importProblem_steps imported
  rw [statement] at stated
  obtain ⟨found, images, _⟩ := Except.map_eq_ok_iff.mp stated
  obtain ⟨written, write, contents⟩ := contents_zipProblemFiles zipped
  refine ⟨⟨written, parsedData, found⟩, ?_, contents⟩
  exact Except.bind_eq_ok_iff.mpr ⟨made, attempt_eq_ok.mpr mkdir, Except.bind_eq_ok_iff.mpr ⟨package, fetched,
    Except.bind_eq_ok_iff.mpr ⟨xmlContent, attempt_eq_ok.mpr read, Except.bind_eq_ok_iff.mpr ⟨problem, parses,
    Except.bind_eq_ok_iff.mpr ⟨parsedData, extracted, Except.bind_eq_ok_iff.mpr ⟨found, images,
    Except.bind_eq_ok_iff.mpr ⟨fixed, validated, Except.bind_eq_ok_iff.mpr ⟨archive, zipped,
    Except.bind_eq_ok_iff.mpr ⟨written, attempt_eq_ok.mpr write, rfl⟩⟩⟩⟩⟩⟩⟩⟩⟩

end JudgeSelf.PolygonService
