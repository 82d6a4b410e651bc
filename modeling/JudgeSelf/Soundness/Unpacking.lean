import JudgeSelf.Model.Engine.Package
import JudgeSelf.Model.Engine.Unzip

/-! # Unpacking stays inside

The prefix test on the cleaned texts is containment of the directory lists, so that an entry is refused
exactly if it names nothing strictly below the destination. The destination itself is made by its text:
where that has `..`, also directories on the way are made that are not above it. On the archives of the
problems, this account of unpacking and the one on directory lists agree.
-/

namespace JudgeSelf.Engine.S3

open Machine (Node Tree)
open Machine.Path (IsName resolve segments)
open Machine.Filepath
open PolygonService (Entry attempt)

/-- The name of an entry leads to the destination itself or out of it. -/
def Outside (destinationFolder name : String) : Prop :=
  resolve (resolve [] destinationFolder) name = resolve [] destinationFolder ∨
    ¬ resolve [] destinationFolder <+: resolve (resolve [] destinationFolder) name

/-- Nothing is made outside of a directory, and no file in its place. -/
structure Inside (destination : List String) (tree after : Tree) : Prop where
  directory : after.get? destination = some .directory
  files : ∀ path content, after.get? path = some (.file content) →
    tree.get? path = some (.file content) ∨ destination <+: path ∧ path ≠ destination
  directories : ∀ path, after.get? path = some .directory →
    tree.get? path = some .directory ∨ destination <+: path

/-- What a run may do to the tree: besides what is inside of the destination, the directories on the way to it
are made. -/
structure StaysInside (destinationFolder : String) (tree after : Tree) : Prop where
  files : ∀ path content, after.get? path = some (.file content) → tree.get? path = some (.file content) ∨
    resolve [] destinationFolder <+: path ∧ path ≠ resolve [] destinationFolder
  directories : ∀ path, after.get? path = some .directory → tree.get? path = some .directory ∨
    resolve [] destinationFolder <+: path ∨ path ∈ passed destinationFolder

variable {destinationFolder : String} {destination path : List String} {tree after last : Tree} {file : ZipFile}

private theorem isName_destination (destinationFolder : String) : ∀ name ∈ resolve [] destinationFolder, IsName name :=
  isName_of_mem_resolve fun _ absurdity => absurd absurdity List.not_mem_nil

private theorem isName_entry (destinationFolder name : String) :
    ∀ part ∈ resolve (resolve [] destinationFolder) name, IsName part :=
  isName_of_mem_resolve (isName_destination destinationFolder)

/-- The test of the source refuses exactly what is outside. -/
theorem hasPrefix_iff (rooted : IsRooted destinationFolder) (other : resolve [] destinationFolder ≠ [])
    (name : String) :
    hasPrefix (join [destinationFolder, name]) (clean destinationFolder ++ "/") = false ↔
      Outside destinationFolder name := by
  rw [join_rooted rooted, clean_rooted rooted, ← Bool.not_eq_true, hasPrefix_render (isName_entry _ _)
    (isName_destination _) other, Outside, not_and_or, not_not, or_comm]

private theorem unzipFile_illegal_iff (rooted : IsRooted destinationFolder) (other : resolve [] destinationFolder ≠ [])
    {text : String} : (unzipFile destinationFolder tree file).2 = some (.illegalPath text) ↔
      text = join [destinationFolder, file.name] ∧ Outside destinationFolder file.name := by
  rw [← hasPrefix_iff rooted other, unzipFile]
  by_cases refused : hasPrefix (join [destinationFolder, file.name]) (clean destinationFolder ++ "/") = false
  · rw [if_pos refused]
    simp [refused, eq_comm]
  · rw [if_neg refused]
    refine iff_of_false (fun failed => ?_) fun claimed => refused claimed.2
    split at failed
    · contradiction
    · dsimp only at failed
      split at failed
      · simp at failed
      · split at failed
        · simp at failed
        · split at failed
          · simp at failed
          · simp at failed

theorem Inside.refl (found : tree.get? destination = some .directory) : Inside destination tree tree :=
  ⟨found, fun _ _ => .inl, fun _ => .inl⟩

theorem Inside.trans (first : Inside destination tree after) (second : Inside destination after last) :
    Inside destination tree last :=
  ⟨second.directory,
    fun path content present => (second.files path content present).elim (first.files path content) .inr,
    fun path present => (second.directories path present).elim (first.directories path) .inr⟩

/-- Directories along a path below. -/
theorem inside_mkdirs (found : tree.get? destination = some .directory) (below : destination <+: path)
    {paths : List (List String)} (along : ∀ other ∈ paths, other <+: path) :
    Inside destination tree (tree.mkdirs paths).1 := by
  refine ⟨Tree.mkdirs_keeps found, fun other content present => ?_, fun other present => ?_⟩
  · rcases Tree.mkdirs_creates present with before | ⟨absurdity, _⟩
    · exact .inl before
    · contradiction
  · rcases Tree.mkdirs_creates present with before | ⟨_, member⟩
    · exact .inl before
    · rcases List.prefix_or_prefix_of_prefix (along other member) below with ⟨rest, rfl⟩ | inside
      · by_cases here : rest = []
        · subst here
          exact .inr (by simp only [List.append_nil, List.prefix_rfl])
        · exact .inl (Tree.ancestor (by simp only [found, Option.isSome_some]) here)
      · exact .inr inside

/-- A file strictly below. -/
theorem inside_write (found : tree.get? destination = some .directory) (below : destination <+: path)
    (proper : path ≠ destination) {content : String} (written : tree.write path content = some after) :
    Inside destination tree after := by
  have wrote (other : List String) := Tree.get?_write written other
  refine ⟨?_, fun other content' present => ?_, fun other present => ?_⟩
  · rw [wrote, if_neg proper.symm]
    exact found
  · rw [wrote] at present
    split at present
    · next here => exact .inr (here ▸ ⟨below, proper⟩)
    · exact .inl present
  · rw [wrote] at present
    split at present
    · exact absurd (Option.some.inj present) Node.noConfusion
    · exact .inl present

private theorem inside_unzipFile (rooted : IsRooted destinationFolder) (other : resolve [] destinationFolder ≠ [])
    (found : tree.get? (resolve [] destinationFolder) = some .directory) :
    Inside (resolve [] destinationFolder) tree (unzipFile destinationFolder tree file).1 := by
  rw [unzipFile]
  by_cases refused : hasPrefix (join [destinationFolder, file.name]) (clean destinationFolder ++ "/") = false
  · rw [if_pos refused]
    exact .refl found
  · rw [if_neg refused]
    have legal := mt (hasPrefix_iff rooted other file.name).mpr refused
    rw [Outside, not_or, not_not] at legal
    obtain ⟨proper, below⟩ := legal
    have names := isName_entry destinationFolder file.name
    rw [join_rooted rooted]
    dsimp only
    split
    · dsimp only
      exact inside_mkdirs found below fun _ => prefix_of_mem_passed_render names
    · -- the file has a last name, and its parent is still at or below the destination
      obtain ⟨front, last, same⟩ : ∃ front last,
          resolve (resolve [] destinationFolder) file.name = front ++ [last] := by
        have some : resolve (resolve [] destinationFolder) file.name ≠ [] := by
          intro root
          rw [root, List.prefix_nil] at below
          exact other below
        exact ⟨_, _, (List.dropLast_append_getLast some).symm⟩
      rw [same] at proper below names ⊢
      have parent : resolve [] destinationFolder <+: front :=
        (List.prefix_concat_iff.mp below).resolve_left (Ne.symm proper)
      rw [dir_render names, resolve_render names]
      have names := (List.forall_mem_append.mp names).1
      have made := inside_mkdirs found parent fun _ => prefix_of_mem_passed_render names
      split
      · exact made
      · split
        · exact made
        · split
          · exact made
          · next written => exact made.trans (inside_write made.directory below proper written)

private theorem inside_unzipFiles (rooted : IsRooted destinationFolder) (other : resolve [] destinationFolder ≠ [])
    {files : List ZipFile} (found : tree.get? (resolve [] destinationFolder) = some .directory) :
    Inside (resolve [] destinationFolder) tree (unzipFiles destinationFolder tree files).1 := by
  induction files generalizing tree with
  | nil => exact .refl found
  | cons file files ih =>
    have one : Inside (resolve [] destinationFolder) tree (unzipFile destinationFolder tree file).1 :=
      inside_unzipFile rooted other found
    rw [unzipFiles]
    split
    · next unpacked =>
      rw [unpacked] at one
      exact one.trans (ih one.directory)
    · next failed =>
      rw [failed] at one
      exact one

/-- A run ends as illegal with the first entry that is not unpacked, if that one is outside. -/
theorem unzipFiles_illegal_iff (rooted : IsRooted destinationFolder) (other : resolve [] destinationFolder ≠ [])
    {files : List ZipFile} {text : String} :
    (unzipFiles destinationFolder tree files).2 = some (.illegalPath text) ↔
      ∃ before file rest, files = before ++ file :: rest ∧ (unzipFiles destinationFolder tree before).2 = none ∧
        text = join [destinationFolder, file.name] ∧ Outside destinationFolder file.name := by
  induction files generalizing tree with
  | nil => simp [unzipFiles]
  | cons file files ih =>
    have illegal : (unzipFile destinationFolder tree file).2 = some (.illegalPath text) ↔
        text = join [destinationFolder, file.name] ∧ Outside destinationFolder file.name :=
      unzipFile_illegal_iff rooted other
    rw [unzipFiles]
    split
    · next tree' unpacked =>
      rw [ih]
      constructor
      · rintro ⟨before, refused, rest, rfl, passed, claim⟩
        exact ⟨file :: before, refused, rest, rfl, by rw [unzipFiles, unpacked]; exact passed, claim⟩
      · rintro ⟨before, refused, rest, same, passed, claim⟩
        cases before with
        | nil =>
          obtain ⟨rfl, rfl⟩ := List.cons.inj same
          rw [unpacked] at illegal
          exact absurd (illegal.mpr claim) (by simp)
        | cons first before =>
          obtain ⟨rfl, rfl⟩ := List.cons.inj same
          rw [unzipFiles, unpacked] at passed
          exact ⟨before, refused, rest, rfl, passed, claim⟩
    · next tree' err failed =>
      rw [failed] at illegal
      dsimp only at illegal ⊢
      rw [illegal]
      constructor
      · exact fun claim => ⟨[], file, files, rfl, rfl, claim⟩
      · rintro ⟨before, refused, rest, same, passed, claim⟩
        cases before with
        | nil =>
          obtain ⟨rfl, rfl⟩ := List.cons.inj same
          exact claim
        | cons first before =>
          obtain ⟨rfl, rfl⟩ := List.cons.inj same
          rw [unzipFiles, failed] at passed
          contradiction

private theorem staysInside_unzip (rooted : IsRooted destinationFolder) (other : resolve [] destinationFolder ≠ [])
    (files : List ZipFile) (tree : Tree) :
    StaysInside destinationFolder tree (unzip destinationFolder files tree).1 := by
  have first : StaysInside destinationFolder tree (tree.mkdirs (passed destinationFolder)).1 := by
    refine ⟨fun path content present => ?_, fun path present => ?_⟩
    · rcases Tree.mkdirs_creates present with before | ⟨absurdity, _⟩
      · exact .inl before
      · contradiction
    · exact (Tree.mkdirs_creates present).imp_right fun made => .inr made.2
  rw [unzip]
  dsimp only
  by_cases refused : (tree.mkdirs (passed destinationFolder)).2 = false
  · rw [if_pos refused]
    exact first
  · rw [if_neg refused]
    have found := Tree.mkdirs_directory (Bool.not_eq_false _ ▸ refused) _ (resolve_mem_passed destinationFolder)
    have inside : Inside (resolve [] destinationFolder) (tree.mkdirs (passed destinationFolder)).1
        (unzipFiles destinationFolder (tree.mkdirs (passed destinationFolder)).1 files).1 :=
      inside_unzipFiles rooted other found
    exact ⟨fun path content present => (inside.files path content present).elim (first.files path content) .inr,
      fun path present => (inside.directories path present).elim (first.directories path)
        fun below => .inr (.inl below)⟩

private theorem unzip_illegal_iff (rooted : IsRooted destinationFolder) (other : resolve [] destinationFolder ≠ [])
    {files : List ZipFile} {text : String} : (unzip destinationFolder files tree).2 = some (.illegalPath text) ↔
      ∃ before file rest, files = before ++ file :: rest ∧ (unzip destinationFolder before tree).2 = none ∧
        text = join [destinationFolder, file.name] ∧ Outside destinationFolder file.name := by
  simp only [unzip]
  by_cases refused : (tree.mkdirs (passed destinationFolder)).2 = false
  · simp [refused]
  · simp only [if_neg refused]
    exact unzipFiles_illegal_iff rooted other

/-- For every absolute destination other than the root: what is unpacked lies inside, next to the directories that
the text of the destination passes through, which are its parents if it has no `..`; an entry is refused as illegal
exactly if it is outside, and a run ends so exactly with the first such entry that it comes to. -/
theorem unzip_stays_inside (rooted : IsRooted destinationFolder) (other : resolve [] destinationFolder ≠ [])
    (files : List ZipFile) (tree : Tree) :
    StaysInside destinationFolder tree (unzip destinationFolder files tree).1 ∧
      (".." ∉ segments destinationFolder → ∀ path ∈ passed destinationFolder, path <+: resolve [] destinationFolder) ∧
      (∀ reached file text, (unzipFile destinationFolder reached file).2 = some (.illegalPath text) ↔
        text = join [destinationFolder, file.name] ∧ Outside destinationFolder file.name) ∧
      ∀ text, (unzip destinationFolder files tree).2 = some (.illegalPath text) ↔
        ∃ before file rest, files = before ++ file :: rest ∧ (unzip destinationFolder before tree).2 = none ∧
          text = join [destinationFolder, file.name] ∧ Outside destinationFolder file.name :=
  ⟨staysInside_unzip rooted other files tree, fun down _ => prefix_of_mem_passed down,
    fun _ _ _ => unzipFile_illegal_iff rooted other, fun _ => unzip_illegal_iff rooted other⟩

def tmpTree : Tree := (Tree.empty.mkdirs [[], ["tmp"]]).1

/-- An entry inside and one in a sibling whose name starts with that of the destination. -/
def siblingEntries : List ZipFile :=
  [⟨"tests//01", false, none, "1", none⟩, ⟨"../p2/./x", false, none, "2", none⟩]

theorem sibling_entries_inside :
    StaysInside "/tmp/p" tmpTree (unzip "/tmp/p" siblingEntries tmpTree).1 ∧
      (".." ∉ segments "/tmp/p" → ∀ path ∈ passed "/tmp/p", path <+: resolve [] "/tmp/p") ∧
      (∀ reached file text, (unzipFile "/tmp/p" reached file).2 = some (.illegalPath text) ↔
        text = join ["/tmp/p", file.name] ∧ Outside "/tmp/p" file.name) ∧
      ∀ text, (unzip "/tmp/p" siblingEntries tmpTree).2 = some (.illegalPath text) ↔
        ∃ before file rest, siblingEntries = before ++ file :: rest ∧ (unzip "/tmp/p" before tmpTree).2 = none ∧
          text = join ["/tmp/p", file.name] ∧ Outside "/tmp/p" file.name :=
  unzip_stays_inside (by decide) (by decide) siblingEntries tmpTree

example : (unzip "/tmp/p" siblingEntries tmpTree).2 = some (.illegalPath "/tmp/p2/x") := by decide +kernel

/-- A directory is made that is neither inside of the destination nor above it. -/
theorem directory_beside_destination : IsRooted "/tmp/x/../d" ∧ resolve [] "/tmp/x/../d" = ["tmp", "d"] ∧
    tmpTree.get? ["tmp", "x"] = none ∧
    (unzip "/tmp/x/../d" [] tmpTree).1.get? ["tmp", "x"] = some .directory ∧
    ¬ ["tmp", "d"] <+: ["tmp", "x"] ∧ ¬ ["tmp", "x"] <+: ["tmp", "d"] := by
  decide +kernel

/-- What the reader of an archive shows of an entry that can be read. -/
def ZipFile.ofEntry (entry : Entry) : ZipFile where
  name := entry.name
  modeDir := entry.node = .directory
  openErr := none
  content :=
    match entry.node with
    | .directory => ""
    | .file content => content
  copyErr := none

/-- What is left of a run for its caller. -/
def report : Tree × Option UnzipError → Except String Tree
  | (tree, none) => .ok tree
  | (_, some err) => .error err.message

variable {entry : Entry} {archive : List Entry}

private theorem isRooted_render (path : List String) : IsRooted (render path) := by
  rw [IsRooted, render, String.toList_append]
  rfl

/-- The mode of an entry says what its name says. -/
theorem isDir_ofEntry (regular : entry.node ≠ .directory → entry.name.toList.getLast? ≠ some '/') :
    (ZipFile.ofEntry entry).isDir = true ↔ entry.node = .directory := by
  rw [ZipFile.isDir, Bool.or_eq_true, ZipFile.ofEntry, decide_eq_true_eq, decide_eq_true_eq, or_iff_left_iff_imp]
  exact fun slash => by_contra fun file => regular file slash

private theorem unzipEntry_eq_report (names : ∀ name ∈ destination, IsName name) (other : destination ≠ [])
    (regular : entry.node ≠ .directory → entry.name.toList.getLast? ≠ some '/') :
    unzipEntry destination tree entry = report (unzipFile (render destination) tree (.ofEntry entry)) := by
  have named : ∀ name ∈ resolve destination entry.name, IsName name := isName_of_mem_resolve names
  have joined : join [render destination, (ZipFile.ofEntry entry).name] = render (resolve destination entry.name) := by
    rw [join_rooted (isRooted_render destination), resolve_render names]
    rfl
  have cleaned : clean (render destination) = render destination := by
    rw [clean_rooted (isRooted_render destination), resolve_render names]
  have test := hasPrefix_render named names other
  have folder := isDir_ofEntry regular
  rw [unzipEntry, unzipFile]
  dsimp only
  rw [joined, cleaned]
  by_cases inside : destination <+: resolve destination entry.name ∧ resolve destination entry.name ≠ destination
  · rw [if_pos inside, if_neg (by rw [test.mpr inside]; simp)]
    cases node : entry.node with
    | directory =>
      rw [if_pos (folder.mpr node), mkdirs_passed_render named]
      rfl
    | file content =>
      have parent : ∃ front last, resolve destination entry.name = front ++ [last] :=
        ⟨_, _, (List.dropLast_append_getLast fun root => other (List.prefix_nil.mp (root ▸ inside.1))).symm⟩
      obtain ⟨front, last, same⟩ := parent
      rw [if_neg (by rw [folder, node]; exact Node.noConfusion)]
      rw [same] at named ⊢
      rw [dir_render named, mkdirs_passed_render (List.forall_mem_append.mp named).1, resolve_render named,
        List.dropLast_concat]
      cases tree.mkdirAll front with
      | none => rfl
      | some made =>
        have text : (ZipFile.ofEntry entry).content = content := by rw [ZipFile.ofEntry, node]
        have read : (ZipFile.ofEntry entry).openErr = none ∧ (ZipFile.ofEntry entry).copyErr = none := ⟨rfl, rfl⟩
        rw [read.1, read.2, text]
        dsimp only [Option.getD_some]
        rw [if_neg (by simp)]
        change attempt "open: is a directory" (made.write (front ++ [last]) content) = _
        cases made.write (front ++ [last]) content <;> rfl
  · rw [if_neg inside, if_pos (Bool.eq_false_of_not_eq_true (mt test.mp inside))]
    rfl

/-- On the archives of the problems the two accounts of unpacking agree: they leave the same tree, or fail with the
same message. -/
theorem unzip_eq_report (names : ∀ name ∈ destination, IsName name) (other : destination ≠ [])
    (regular : ∀ entry ∈ archive, entry.node ≠ .directory → entry.name.toList.getLast? ≠ some '/') :
    Engine.unzip tree destination archive = report (unzip (render destination) (archive.map .ofEntry) tree) := by
  have entries (tree : Tree) : archive.foldlM (unzipEntry destination) tree =
      report (unzipFiles (render destination) tree (archive.map .ofEntry)) := by
    induction archive generalizing tree with
    | nil => rfl
    | cons entry archive ih =>
      obtain ⟨first, rest⟩ := List.forall_mem_cons.mp regular
      rw [List.foldlM_cons, unzipEntry_eq_report names other first, List.map_cons, unzipFiles]
      split
      · next unpacked => rw [unpacked]; exact ih rest _
      · next failed => rw [failed]; rfl
  rw [Engine.unzip, unzip, mkdirs_passed_render names]
  cases tree.mkdirAll destination with
  | none => rfl
  | some made =>
    dsimp only [Option.getD_some]
    rw [if_neg (by simp)]
    exact entries made

end JudgeSelf.Engine.S3
