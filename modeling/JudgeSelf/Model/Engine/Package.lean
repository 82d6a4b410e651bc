import JudgeSelf.Model.Engine.Formatter
import JudgeSelf.Model.Polygon.Import

/-! # Fetching a problem

Model of `GetProblemData`, `Unzip` and `DownloadZip`. Archives are stored and restored as they are, in a
file whose own text does not matter. Of the errors of the file system only the step is kept.
-/

namespace JudgeSelf.Engine

open Machine (Node Tree)
open Machine.Path (resolve)
open PolygonService (Entry ProblemRow attempt)

/-- `GetProblemData` for the row, with the directory that the cache fills in. -/
def getProblemData (row : ProblemRow) (contestId localProblemDir : String) : ProblemData where
  problemId := row.id
  timeLimit := row.timeLimit
  memoryLimit := row.memoryLimit
  testCount := row.testCount
  checkerLanguage := row.checkerLanguage
  localProblemDir := localProblemDir
  contestId := contestId

/-- One iteration of the loop of `Unzip`. -/
def unzipEntry (destination : List String) (tree : Tree) (file : Entry) : Except String Tree := do
  let path := resolve destination file.name
  if destination <+: path ∧ path ≠ destination then
    match file.node with
    | .directory => pure ((tree.mkdirAll path).getD tree)
    | .file content =>
      let tree ← attempt "mkdir: not a directory" (tree.mkdirAll path.dropLast)
      attempt "open: is a directory" (tree.write path content)
  else throw ("illegal file path: /" ++ "/".intercalate path)

def unzip (tree : Tree) (destination : List String) (archive : List Entry) : Except String Tree := do
  let tree ← attempt "mkdir: not a directory" (tree.mkdirAll destination)
  archive.foldlM (unzipEntry destination) tree

/-- `os.Remove` of a file. -/
def removeFile (tree : Tree) (path : List String) : Tree :=
  if h : tree.get? path ≠ some .directory then tree.remove path h else tree

/-- `DownloadZip` of the archive. -/
def downloadZip (tree : Tree) (destination : List String) (downloaded : String) (archive : List Entry) :
    Except String Tree := do
  let tree := (tree.mkdirAll destination).getD tree
  let tmpFilePath := destination ++ ["temp.zip"]
  let tree ← attempt "Failed to create destinationFolder file to download file" (tree.write tmpFilePath downloaded)
  let tree ← unzip tree destination archive
  pure (removeFile tree tmpFilePath)

variable {tree after : Tree} {destination path : List String} {archive : List Entry} {file : Entry}

/-- What is there stays, though a file may be replaced. -/
def Keeps (tree after : Tree) : Prop :=
  (∀ path, tree.get? path = some .directory → after.get? path = some .directory) ∧
    ∀ path content, tree.get? path = some (.file content) → ∃ content', after.get? path = some (.file content')

theorem Keeps.refl (tree : Tree) : Keeps tree tree := ⟨fun _ => id, fun _ content present => ⟨content, present⟩⟩

theorem Keeps.trans {next : Tree} (first : Keeps tree next) (second : Keeps next after) : Keeps tree after :=
  ⟨fun path present => second.1 path (first.1 path present), fun path content present =>
    let ⟨content', next⟩ := first.2 path content present
    second.2 path content' next⟩

theorem Keeps.isSome (keeps : Keeps tree after) (present : (tree.get? path).isSome) : (after.get? path).isSome := by
  obtain ⟨node, found⟩ := Option.isSome_iff_exists.mp present
  cases node with
  | directory => rw [keeps.1 path found]; rfl
  | file content =>
    obtain ⟨content', found'⟩ := keeps.2 path content found
    rw [found']
    rfl

private theorem keeps_mkdirAll (made : tree.mkdirAll path = some after) : Keeps tree after :=
  ⟨fun _ => Tree.mkdirAll_keeps made, fun _ content present => ⟨content, Tree.mkdirAll_keeps made present⟩⟩

theorem keeps_write {content : String} (written : tree.write path content = some after) : Keeps tree after := by
  refine ⟨fun other present => ?_, fun other before present => ?_⟩
  · rw [Tree.get?_write written, if_neg]
    · exact present
    · rintro rfl
      rw [Tree.write, dif_neg (fun h => h.1 present)] at written
      contradiction
  · rw [Tree.get?_write written]
    split
    · exact ⟨content, rfl⟩
    · exact ⟨before, present⟩

/-- One entry: nothing is lost, something is created along its path alone, and a file is there afterwards. -/
structure Unpacked (destination : List String) (file : Entry) (tree after : Tree) : Prop where
  keeps : Keeps tree after
  creates : ∀ path, (after.get? path).isSome → (tree.get? path).isSome ∨ path <+: resolve destination file.name
  asFile : ∀ content, file.node = .file content → after.get? (resolve destination file.name) = some (.file content)
  asDirectory : file.node = .directory → after = (tree.mkdirAll (resolve destination file.name)).getD tree

private theorem unpacked_of_unzipEntry (unzipped : unzipEntry destination tree file = .ok after) :
    Unpacked destination file tree after := by
  rw [unzipEntry] at unzipped
  split at unzipped
  · split at unzipped
    · next directory =>
      obtain rfl := Except.ok.inj unzipped
      cases made : tree.mkdirAll (resolve destination file.name) with
      | none =>
        exact ⟨.refl tree, fun _ => .inl, fun content same => by rw [directory] at same; contradiction,
          fun _ => by rw [made]⟩
      | some next =>
        exact ⟨keeps_mkdirAll made, fun _ => Tree.mkdirAll_creates made,
          fun content same => by rw [directory] at same; contradiction, fun _ => by rw [made]⟩
    · next content isFile =>
      obtain ⟨next, made, unzipped⟩ := Except.bind_eq_ok_iff.mp unzipped
      have made := PolygonService.attempt_eq_ok.mp made
      have written := PolygonService.attempt_eq_ok.mp unzipped
      refine ⟨(keeps_mkdirAll made).trans (keeps_write written), fun path present => ?_, fun content' same => ?_,
        fun directory => by rw [isFile] at directory; contradiction⟩
      · rw [Tree.get?_write written] at present
        split at present
        · next here => exact .inr (here ▸ List.prefix_rfl)
        · exact (Tree.mkdirAll_creates made present).imp_right (·.trans (List.dropLast_prefix _))
      · rw [isFile] at same
        obtain rfl := Node.file.inj same
        rw [Tree.get?_write written, if_pos rfl]
  · contradiction

/-- All entries: what exists was there before or lies along the path of an entry, and every file is there. -/
theorem unzip_spec (unzipped : archive.foldlM (unzipEntry destination) tree = .ok after) :
    Keeps tree after ∧
      (∀ path, (after.get? path).isSome →
        (tree.get? path).isSome ∨ ∃ file ∈ archive, path <+: resolve destination file.name) ∧
      ∀ file ∈ archive, ∃ before next,
        Keeps tree before ∧ Unpacked destination file before next ∧ Keeps next after := by
  induction archive generalizing tree with
  | nil =>
    obtain rfl := Except.ok.inj unzipped
    exact ⟨.refl tree, fun _ => .inl, fun _ member => absurd member List.not_mem_nil⟩
  | cons first rest ih =>
    rw [List.foldlM_cons] at unzipped
    obtain ⟨next, one, unzipped⟩ := Except.bind_eq_ok_iff.mp unzipped
    have unpacked := unpacked_of_unzipEntry one
    obtain ⟨keeps, creates, files⟩ := ih unzipped
    refine ⟨unpacked.keeps.trans keeps, fun path present => ?_, fun file member => ?_⟩
    · rcases creates path present with before | ⟨file, member, along⟩
      · exact (unpacked.creates path before).imp_right fun along => ⟨first, List.mem_cons_self, along⟩
      · exact .inr ⟨file, List.mem_cons_of_mem _ member, along⟩
    · rcases List.mem_cons.mp member with rfl | later
      · exact ⟨tree, next, .refl tree, unpacked, keeps⟩
      · obtain ⟨before, made, earlier, one, last⟩ := files file later
        exact ⟨before, made, unpacked.keeps.trans earlier, one, last⟩

theorem get?_removeFile {other : List String} (differs : other ≠ path) :
    (removeFile tree path).get? other = tree.get? other := by
  rw [removeFile]
  split
  · rw [Tree.get?_remove, if_neg differs]
  · rfl

/-- A directory after a download: the archive in place of the file that it came in. -/
structure Downloaded (destination : List String) (archive : List Entry) (tree after : Tree) : Prop where
  creates : ∀ path, path ≠ destination ++ ["temp.zip"] → (after.get? path).isSome →
    (tree.get? path).isSome ∨ path <+: destination ∨ ∃ file ∈ archive, path <+: resolve destination file.name
  files : ∀ file ∈ archive, ∀ content, file.node = .file content →
    resolve destination file.name ≠ destination ++ ["temp.zip"] →
      ∃ content', after.get? (resolve destination file.name) = some (.file content')
  directories : ∀ file ∈ archive, file.node = .directory → ∀ name, name ≠ "temp.zip" →
    resolve destination file.name = destination ++ [name] → (after.get? (destination ++ [name])).isSome

theorem downloaded_of_downloadZip {downloaded : String}
    (unpacked : downloadZip tree destination downloaded archive = .ok after) :
    Downloaded destination archive tree after := by
  obtain ⟨written, write, unpacked⟩ := Except.bind_eq_ok_iff.mp unpacked
  obtain ⟨last, unzipped, unpacked⟩ := Except.bind_eq_ok_iff.mp unpacked
  obtain rfl := Except.ok.inj unpacked
  obtain ⟨made, mkdir, unzipped⟩ := Except.bind_eq_ok_iff.mp unzipped
  have write := PolygonService.attempt_eq_ok.mp write
  have mkdir := PolygonService.attempt_eq_ok.mp mkdir
  obtain ⟨_, creates, entries⟩ := unzip_spec unzipped
  refine ⟨fun path differs present => ?_, fun file member content isFile differs => ?_,
    fun file member directory name differs same => ?_⟩
  · rw [get?_removeFile differs] at present
    rcases creates path present with before | along
    · rcases Tree.mkdirAll_creates mkdir before with before | above
      · rw [Tree.get?_write write, if_neg differs] at before
        cases first : tree.mkdirAll destination with
        | none =>
          rw [first] at before
          exact .inl before
        | some initial =>
          rw [first] at before
          exact (Tree.mkdirAll_creates first before).imp_right .inl
      · exact .inr (.inl above)
    · exact .inr (.inr along)
  · obtain ⟨_, next, _, one, keeps⟩ := entries file member
    rw [get?_removeFile differs]
    exact keeps.2 _ content (one.asFile content isFile)
  · obtain ⟨before, next, earlier, one, keeps⟩ := entries file member
    rw [get?_removeFile (fun clash => differs (List.singleton_inj.mp (List.append_cancel_left clash)))]
    apply keeps.isSome
    rw [one.asDirectory directory, same]
    exact Tree.isSome_mkdirAll (earlier.1 _ (Tree.mkdirAll_directory mkdir))

end JudgeSelf.Engine
