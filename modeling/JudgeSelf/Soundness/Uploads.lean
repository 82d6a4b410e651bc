import JudgeSelf.Machine.Containment
import JudgeSelf.Model.Polygon.Uploads
import JudgeSelf.Soundness.PackageLayout

/-! # Files from outside of the work directory

The paths of a package are joined to the work directory and never checked. An import sends nothing but
files of its work directory exactly when each of the paths that leads to a file is confined to that
directory: where `..` does not lead above it.
-/

namespace JudgeSelf.PolygonService

open Machine (Node Tree)
open Machine.Path (resolve Confined confined_iff confined_nil_iff)

variable {tree : Tree} {tmpBaseDir workDir directory : List String} {problemId : String}
  {parsedData : ParsedProblemXML}

/-- A path of the package, read in a directory of the work directory, leads to no file or is confined. -/
def Harmless (tree : Tree) (tmpBaseDir : List String) (problemId : String) (below : List String)
    (path : String) : Prop :=
  (tree.readFile (resolve (tmpBaseDir ++ [problemId] ++ below) path)).isSome → Confined tmpBaseDir problemId below path

/-- The paths that the archive is made of. -/
structure HarmlessArchive (tree : Tree) (tmpBaseDir : List String) (problemId : String)
    (parsedData : ParsedProblemXML) : Prop where
  checker : Harmless tree tmpBaseDir problemId [] parsedData.checkerSourcePath
  interactor : ∀ path ∈ parsedData.interactorSourcePath, parsedData.hasInteractor ∧ path ≠ "" →
    Harmless tree tmpBaseDir problemId [] path
  tests : Confined tmpBaseDir problemId [] parsedData.testsInfo.testSetName
  resources : ∀ resource ∈ parsedData.resources, Harmless tree tmpBaseDir problemId [] resource.path

/-- The loop gets past an image. -/
def Uploaded (calls : ImportCalls) (tree : Tree) (img : StatementImage) : Prop :=
  (tree.readFile img.imgSrc).isSome ∧
    ∃ sent, calls.uploadToS3 ("images/" ++ calls.problemId ++ "/" ++ img.name) = .ok sent

/-- The images that the loop gets to. -/
def HarmlessImages (calls : ImportCalls) (tmpBaseDir : List String) (prepared : Prepared) : Prop :=
  (∃ sent, calls.uploadToS3 ("problems/" ++ calls.problemId ++ ".zip") = .ok sent) →
    ∀ before img after, prepared.images = before ++ img :: after →
      (∀ other ∈ before, Uploaded calls prepared.tree other) →
        Harmless prepared.tree tmpBaseDir calls.problemId htmlDirectory img.name

private theorem filesAt_inside_iff {path : List String} :
    (∀ file ∈ filesAt tree path, workDir <+: file) ↔ ((tree.readFile path).isSome → workDir <+: path) := by
  rw [filesAt]
  split
  · next isFile => simp [isFile]
  · next missing => simp [missing]

private theorem filesAt_harmless_iff {path : String} :
    (∀ file ∈ filesAt tree (resolve (tmpBaseDir ++ [problemId]) path), tmpBaseDir ++ [problemId] <+: file) ↔
      Harmless tree tmpBaseDir problemId [] path := by
  rw [filesAt_inside_iff, Harmless, confined_nil_iff, List.append_nil]

private theorem interactorFiles_harmless_iff :
    (∀ file ∈ interactorFiles tree (tmpBaseDir ++ [problemId]) parsedData, tmpBaseDir ++ [problemId] <+: file) ↔
      ∀ path ∈ parsedData.interactorSourcePath, parsedData.hasInteractor ∧ path ≠ "" →
        Harmless tree tmpBaseDir problemId [] path := by
  rw [interactorFiles]
  cases parsedData.interactorSourcePath with
  | none => simp
  | some path =>
    dsimp only
    split
    · next given => simp [filesAt_harmless_iff, given]
    · next missing =>
      refine iff_of_true (fun _ member => absurd member List.not_mem_nil) fun other same given => ?_
      obtain rfl := Option.some.inj same
      exact absurd given missing

private theorem prefix_of_mem_filesBelow {file : List String} (member : file ∈ filesBelow tree directory) :
    directory <+: file := by
  obtain ⟨e, _, selected⟩ := List.mem_filterMap.mp member
  rw [fileBelow?] at selected
  split at selected
  · next below =>
    split at selected
    · exact Option.some.inj selected ▸ below.1
    · contradiction
  · contradiction

private theorem mem_filesBelow {name content : String} (file : tree.get? (directory ++ [name]) = some (.file content)) :
    directory ++ [name] ∈ filesBelow tree directory := by
  refine List.mem_filterMap.mpr ⟨_, Record.get?_eq_some_iff.mp file, ?_⟩
  rw [fileBelow?, if_pos ⟨List.prefix_append _ _, by simp⟩]

/-- There is a test, and it is no directory as the work directory is. -/
theorem filesBelow_inside_iff {n : ℤ} (holds : HoldsTests tree directory n) (positive : 0 < n)
    (isDirectory : tree.get? workDir = some .directory) :
    (∀ file ∈ filesBelow tree directory, workDir <+: file) ↔ workDir <+: directory := by
  constructor
  · intro inside
    have first : testFileName n 1 ∈ testNames n := mem_testNames.mpr ⟨1, le_rfl, by omega, .inl rfl⟩
    obtain ⟨content, file⟩ := holds.files _ first
    rcases List.prefix_concat_iff.mp (inside _ (mem_filesBelow file)) with whole | above
    · rw [whole, file] at isDirectory
      exact absurd isDirectory (by simp)
    · exact above
  · exact fun above file member => above.trans (prefix_of_mem_filesBelow member)

private theorem archivedFiles_inside_iff {n : ℤ}
    (holds : HoldsTests tree (resolve (tmpBaseDir ++ [problemId]) parsedData.testsInfo.testSetName) n)
    (positive : 0 < n) (isDirectory : tree.get? (tmpBaseDir ++ [problemId]) = some .directory) :
    (∀ file ∈ archivedFiles tree (tmpBaseDir ++ [problemId]) parsedData, tmpBaseDir ++ [problemId] <+: file) ↔
      HarmlessArchive tree tmpBaseDir problemId parsedData := by
  have tests := filesBelow_inside_iff holds positive isDirectory
  rw [← confined_nil_iff] at tests
  simp only [archivedFiles, List.forall_mem_append, List.forall_mem_flatMap, filesAt_harmless_iff,
    interactorFiles_harmless_iff, tests]
  constructor
  · rintro ⟨⟨⟨checker, interactor⟩, tests⟩, resources⟩
    exact ⟨checker, interactor, tests, resources⟩
  · rintro ⟨checker, interactor, tests, resources⟩
    exact ⟨⟨⟨checker, interactor⟩, tests⟩, resources⟩

private theorem mem_uploadImages {calls : ImportCalls} {images : List StatementImage} {file : List String} :
    file ∈ uploadImages calls tree images ↔ ∃ before img after, images = before ++ img :: after ∧
      (∀ other ∈ before, Uploaded calls tree other) ∧ (tree.readFile img.imgSrc).isSome ∧ file = img.imgSrc := by
  induction images with
  | nil => simp [uploadImages]
  | cons first rest ih =>
    rw [uploadImages]
    constructor
    · intro member
      split at member
      · next isFile =>
        rcases List.mem_cons.mp member with rfl | later
        · exact ⟨[], first, rest, rfl, List.forall_mem_nil _, isFile, rfl⟩
        · split at later
          · next sent uploaded =>
            obtain ⟨before, img, after, rfl, reached, found, same⟩ := ih.mp later
            exact ⟨first :: before, img, after, rfl, List.forall_mem_cons.mpr ⟨⟨isFile, sent, uploaded⟩, reached⟩,
              found, same⟩
          · exact absurd later List.not_mem_nil
      · exact absurd member List.not_mem_nil
    · rintro ⟨before, img, after, same, reached, isFile, rfl⟩
      cases before with
      | nil =>
        obtain ⟨rfl, rfl⟩ := List.cons.inj same
        rw [if_pos isFile]
        exact List.mem_cons_self
      | cons other before =>
        obtain ⟨rfl, rfl⟩ := List.cons.inj same
        obtain ⟨⟨isFirst, sent, uploaded⟩, reached⟩ := List.forall_mem_cons.mp reached
        rw [if_pos isFirst, uploaded]
        exact List.mem_cons_of_mem _ (ih.mpr ⟨before, img, after, rfl, reached, isFile, rfl⟩)

private theorem imgSrc_of_extractProblemStatement {images : String → List String} {found : List StatementImage}
    (extracted : extractProblemStatement images workDir tree = .ok found) {img : StatementImage}
    (member : img ∈ found) :
    img.imgSrc = resolve (workDir ++ htmlDirectory) img.name := by
  obtain ⟨htmlContent, _, extracted⟩ := Except.bind_eq_ok_iff.mp extracted
  obtain rfl := Except.ok.inj extracted
  obtain ⟨src, _, exists_⟩ := List.mem_filterMap.mp member
  simp only [statementImage?] at exists_
  split at exists_
  · obtain rfl := Option.some.inj exists_
    rfl
  · contradiction

/-- What an import has come to before its first upload. -/
theorem prepareUploads_eq_ok {calls : ImportCalls} {images : String → List String} {prepared : Prepared}
    (prepares : prepareUploads calls images tmpBaseDir tree = .ok prepared) :
    (∃ n, 0 < n ∧ HoldsTests prepared.tree
        (resolve (tmpBaseDir ++ [calls.problemId]) prepared.parsedData.testsInfo.testSetName) n) ∧
      prepared.tree.get? (tmpBaseDir ++ [calls.problemId]) = some .directory ∧
      ∀ img ∈ prepared.images,
        img.imgSrc = resolve (tmpBaseDir ++ [calls.problemId] ++ htmlDirectory) img.name := by
  obtain ⟨made, mkdir, prepares⟩ := Except.bind_eq_ok_iff.mp prepares
  obtain ⟨package, fetched, prepares⟩ := Except.bind_eq_ok_iff.mp prepares
  obtain ⟨xmlContent, read, prepares⟩ := Except.bind_eq_ok_iff.mp prepares
  obtain ⟨problem, parses, prepares⟩ := Except.bind_eq_ok_iff.mp prepares
  obtain ⟨parsedData, extracted, prepares⟩ := Except.bind_eq_ok_iff.mp prepares
  obtain ⟨found, statement, prepares⟩ := Except.bind_eq_ok_iff.mp prepares
  obtain ⟨fixed, validated, prepares⟩ := Except.bind_eq_ok_iff.mp prepares
  obtain ⟨entries, zipped, prepares⟩ := Except.bind_eq_ok_iff.mp prepares
  obtain ⟨written, write, prepares⟩ := Except.bind_eq_ok_iff.mp prepares
  obtain rfl := Except.ok.inj prepares
  have write := attempt_eq_ok.mp write
  have hasXml : (package.readFile (tmpBaseDir ++ [calls.problemId] ++ ["problem.xml"])).isSome := by
    rw [attempt_eq_ok.mp read]
    rfl
  obtain ⟨checked, keepsXml⟩ := validateTestCases_eq_ok validated
  obtain ⟨n, testCount, _, holds⟩ := holdsTests_of_checkTestCases checked
  refine ⟨⟨n, ?_, holdsTests_write holds (notPrefix_workDir holds (keepsXml hasXml)) write⟩, ?_,
    fun img => imgSrc_of_extractProblemStatement statement⟩
  · exact testCount_positive (testsInfo_of_parseProblemXML extracted) testCount
  · have archive : (written.get? (tmpBaseDir ++ [calls.problemId] ++ ["problem.zip"])).isSome := by
      rw [Tree.get?_write write, if_pos rfl]
      rfl
    exact Tree.parent archive

private theorem uploadImages_inside_iff {calls : ImportCalls} {prepared : Prepared}
    (named : ∀ img ∈ prepared.images,
      img.imgSrc = resolve (tmpBaseDir ++ [calls.problemId] ++ htmlDirectory) img.name) :
    (∀ file ∈ uploadImages calls prepared.tree prepared.images, tmpBaseDir ++ [calls.problemId] <+: file) ↔
      ∀ before img after, prepared.images = before ++ img :: after →
        (∀ other ∈ before, Uploaded calls prepared.tree other) →
          Harmless prepared.tree tmpBaseDir calls.problemId htmlDirectory img.name := by
  have sameSrc {before after : List StatementImage} {img : StatementImage}
      (split : prepared.images = before ++ img :: after) :
      img.imgSrc = resolve (tmpBaseDir ++ [calls.problemId] ++ htmlDirectory) img.name :=
    named img (split ▸ List.mem_append_right before List.mem_cons_self)
  simp only [mem_uploadImages, Harmless, confined_iff]
  constructor
  · intro inside before img after split reached isFile
    rw [← sameSrc split] at isFile ⊢
    exact inside _ ⟨before, img, after, split, reached, isFile, rfl⟩
  · rintro harmless _ ⟨before, img, after, split, reached, isFile, rfl⟩
    rw [sameSrc split] at isFile ⊢
    exact harmless before img after split reached isFile

/-- An import sends only files of its work directory exactly if it fails before its first upload, or every path of the
package that leads to a file is confined to the work directory: `..` never leads above it, unless the path comes
back by the random name of the directory. -/
theorem sends_work_files_iff (calls : ImportCalls) (images : String → List String) (tmpBaseDir : List String)
    (tree : Tree) :
    (∀ file ∈ sentFiles calls images tmpBaseDir tree, tmpBaseDir ++ [calls.problemId] <+: file) ↔
      ∀ prepared, prepareUploads calls images tmpBaseDir tree = .ok prepared →
        HarmlessArchive prepared.tree tmpBaseDir calls.problemId prepared.parsedData ∧
          HarmlessImages calls tmpBaseDir prepared := by
  rw [sentFiles]
  cases prepares : prepareUploads calls images tmpBaseDir tree with
  | error err => simp
  | ok prepared =>
    obtain ⟨⟨n, positive, holds⟩, isDirectory, named⟩ := prepareUploads_eq_ok prepares
    simp only [Except.ok.injEq, forall_eq', List.forall_mem_append, HarmlessImages]
    rw [archivedFiles_inside_iff holds positive isDirectory]
    refine and_congr_right fun _ => ?_
    cases uploaded : calls.uploadToS3 ("problems/" ++ calls.problemId ++ ".zip") with
    | error err => simp
    | ok sent =>
      dsimp only
      rw [uploadImages_inside_iff named]
      exact ⟨fun harmless _ => harmless, fun harmless => harmless ⟨sent, rfl⟩⟩

def passwordImage : String := "<img class=\"tex-graphics\" src=\"../../../../../../etc/passwd\">"

def illustratedCalls : ImportCalls := sampleCallsIn "p" passwordImage

def imagesOf (page : String) : List String := if page = passwordImage then ["../../../../../../etc/passwd"] else []

/-- The file system of the server. -/
def serverTree : Tree :=
  ((Tree.empty.mkdirAll ["etc"]).bind fun tree => tree.write ["etc", "passwd"] "root:x:0:0").getD Tree.empty

/-- The upload of the images sends a file of the server. -/
theorem sends_passwords :
    ["etc", "passwd"] ∈ sentFiles illustratedCalls imagesOf ["tmp", "polygon"] serverTree ∧
      ¬ ["tmp", "polygon"] ++ [illustratedCalls.problemId] <+: ["etc", "passwd"] := by
  decide +kernel

end JudgeSelf.PolygonService
