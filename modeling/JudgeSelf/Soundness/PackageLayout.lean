import JudgeSelf.Model.Engine.Package

/-! # The layout of a package

The importer accepts a directory of tests with as many entries as there are input and answer files, all of
them present: there is no room for any other. It names the files as the engine does, and what it archives
beside them lies elsewhere.
-/

namespace JudgeSelf.PolygonService

open Js
open Machine (Node Tree)
open Machine.Path (resolve)

variable {tree fixed after : Tree} {testsDir workDir : List String} {n : ℤ}

/-- Input and answer files. -/
def testNames (n : ℤ) : List String :=
  (List.range' 1 n.toNat).flatMap fun i => [testFileName n i, testFileName n i ++ ".a"]

private theorem testFileName_eq_zeroPadded (n : ℤ) (i : ℕ) :
    testFileName n i = Go.zeroPadded (toString n).length i := rfl

theorem mem_testNames {name : String} : name ∈ testNames n ↔
    ∃ i : ℕ, 1 ≤ i ∧ i ≤ n ∧ (name = testFileName n i ∨ name = testFileName n i ++ ".a") := by
  simp only [testNames, List.mem_flatMap, List.mem_range'_1, List.mem_cons, List.not_mem_nil, or_false]
  constructor
  · rintro ⟨i, range, same⟩
    exact ⟨i, range.1, by omega, same⟩
  · rintro ⟨i, positive, bound, same⟩
    exact ⟨i, ⟨positive, by omega⟩, same⟩

private theorem isDigit_of_mem_testFileName {i : ℕ} {c : Char} (member : c ∈ (testFileName n i).toList) :
    c.isDigit := by
  rw [testFileName_eq_zeroPadded] at member
  exact Go.isDigit_of_mem_zeroPadded member

/-- The name of an answer file has a dot. -/
theorem testFileName_ne_answer (n : ℤ) (i j : ℕ) : testFileName n i ≠ testFileName n j ++ ".a" := by
  intro same
  have dot : '.' ∈ (testFileName n i).toList := by
    rw [same, String.toList_append]
    exact List.mem_append_right _ (by decide)
  exact absurd (isDigit_of_mem_testFileName dot) (by decide)

private theorem testFileName_inj {i j : ℕ} : testFileName n i = testFileName n j ↔ i = j := by
  rw [testFileName_eq_zeroPadded, testFileName_eq_zeroPadded, Go.zeroPadded_inj]

private theorem nodup_testNames (n : ℤ) : (testNames n).Nodup := by
  rw [testNames, List.nodup_flatMap]
  refine ⟨fun i _ => ?_, (List.nodup_range' 1).imp fun {i j} other => ?_⟩
  · simpa using testFileName_ne_answer n i i
  · rw [Function.onFun, List.disjoint_left]
    intro name inFirst inSecond
    simp only [List.mem_cons, List.not_mem_nil, or_false] at inFirst inSecond
    rcases inFirst with rfl | rfl <;> rcases inSecond with same | same
    · exact other (testFileName_inj.mp same)
    · exact testFileName_ne_answer n i j same
    · exact testFileName_ne_answer n j i same.symm
    · exact other (testFileName_inj.mp ((String.append_left_inj ".a").mp same))

private theorem length_testNames (n : ℤ) : (testNames n).length = 2 * n.toNat := by
  rw [testNames, List.length_flatMap]
  simp [Nat.mul_comm]

/-- A name of a test is made of digits, a dot and the letter `a`. -/
theorem char_of_mem_testNames {name : String} (member : name ∈ testNames n) {c : Char} (inName : c ∈ name.toList) :
    c.isDigit ∨ c = '.' ∨ c = 'a' := by
  obtain ⟨i, _, _, rfl | rfl⟩ := mem_testNames.mp member
  · exact .inl (isDigit_of_mem_testFileName inName)
  · rw [String.toList_append] at inName
    rcases List.mem_append.mp inName with digit | rest
    · exact .inl (isDigit_of_mem_testFileName digit)
    · rcases List.mem_cons.mp rest with dot | last
      · exact .inr (.inl dot)
      · exact .inr (.inr (List.mem_singleton.mp last))

/-- Below the directory there are the files of the tests and nothing else. -/
structure HoldsTests (tree : Tree) (testsDir : List String) (n : ℤ) : Prop where
  directory : tree.get? testsDir = some .directory
  files : ∀ name ∈ testNames n, ∃ content, tree.get? (testsDir ++ [name]) = some (.file content)
  only : ∀ below, below ≠ [] → (tree.get? (testsDir ++ below)).isSome → ∃ name ∈ testNames n, below = [name]

private theorem requireTest_eq_ok {names : List String} {i : ℕ} (required : requireTest names n i = .ok ()) :
    testFileName n i ∈ names ∧ testFileName n i ++ ".a" ∈ names := by
  simp only [requireTest] at required
  split at required
  · exact absurd required Except.throw_ne_ok
  · next input =>
    split at required
    · exact absurd required Except.throw_ne_ok
    · next answer => exact ⟨not_not.mp input, not_not.mp answer⟩

/-- As many different names as there are tests leave no room for another. -/
theorem perm_testNames {names : List String} (count : (names.length : ℤ) = n * 2)
    (required : (List.range' 1 n.toNat).forM (requireTest names n) = .ok ()) : names.Perm (testNames n) := by
  have present : testNames n ⊆ names := by
    intro name member
    obtain ⟨i, positive, bound, same⟩ := mem_testNames.mp member
    obtain ⟨input, answer⟩ := requireTest_eq_ok
      (Except.forM_eq_ok required i (List.mem_range'_1.mpr ⟨positive, by omega⟩))
    rcases same with rfl | rfl
    · exact input
    · exact answer
  have fits : names.length ≤ (testNames n).length := by
    rw [length_testNames]
    omega
  exact ((List.subperm_of_subset (nodup_testNames n) present).perm_of_length_le fits).symm

private theorem readdir_eq_some {entries : List (String × Node)} (read : tree.readdir testsDir = some entries) :
    tree.get? testsDir = some .directory := by
  rw [Tree.readdir] at read
  split at read
  · assumption
  · contradiction

private theorem holdsTests_of_readdir {entries : List (String × Node)} (read : tree.readdir testsDir = some entries)
    (names : (entries.map Prod.fst).Perm (testNames n)) (plain : entries.find? (·.2 = .directory) = none) :
    HoldsTests tree testsDir n := by
  have isFile {name : String} (member : name ∈ testNames n) :
      ∃ content, tree.get? (testsDir ++ [name]) = some (.file content) := by
    obtain ⟨⟨_, node⟩, listed, rfl⟩ := List.mem_map.mp (names.mem_iff.mpr member)
    have found := (Tree.mem_readdir read).mp listed
    cases node with
    | file content => exact ⟨content, found⟩
    | directory => exact absurd (decide_eq_true rfl) (List.find?_eq_none.mp plain _ listed)
  have isTest {name : String} (present : (tree.get? (testsDir ++ [name])).isSome) : name ∈ testNames n := by
    obtain ⟨node, found⟩ := Option.isSome_iff_exists.mp present
    exact names.mem_iff.mp (List.mem_map.mpr ⟨_, (Tree.mem_readdir read).mpr found, rfl⟩)
  refine ⟨readdir_eq_some read, fun name => isFile, fun below nonempty present => ?_⟩
  obtain ⟨name, rest, rfl⟩ := List.exists_cons_of_ne_nil nonempty
  cases rest with
  | nil => exact ⟨name, isTest present, rfl⟩
  | cons next rest =>
    rw [← List.singleton_append, ← List.append_assoc] at present
    have directory := Tree.ancestor present (List.cons_ne_nil next rest)
    obtain ⟨content, file⟩ := isFile (isTest (by rw [directory]; rfl))
    exact absurd (directory.symm.trans file) (by simp)

theorem holdsTests_of_checkTestCases {testCount : Option ℤ}
    (checked : checkTestCases tree testsDir testCount = .ok ()) :
    ∃ n, testCount = some n ∧ 0 ≤ n ∧ HoldsTests tree testsDir n := by
  obtain ⟨entries, read, checked⟩ := Except.bind_eq_ok_iff.mp checked
  have read := attempt_eq_ok.mp read
  cases testCount with
  | none => exact absurd checked Except.throw_ne_ok
  | some n =>
    dsimp only at checked
    split at checked
    · exact absurd checked Except.throw_ne_ok
    · next count =>
      have count := not_not.mp count
      split at checked
      · exact absurd checked Except.throw_ne_ok
      · next plain =>
        refine ⟨n, rfl, by omega, holdsTests_of_readdir read (perm_testNames ?_ checked) plain⟩
        rw [List.length_map]
        exact count

/-- The names that are renamed start with a zero. -/
theorem fixTestCase_keeps_xml {entry : String × Node} (renamed : fixTestCase testsDir tree entry = .ok after)
    (present : (tree.readFile (workDir ++ ["problem.xml"])).isSome) :
    (after.readFile (workDir ++ ["problem.xml"])).isSome := by
  rw [fixTestCase] at renamed
  split at renamed
  · rwa [Except.ok.inj renamed] at present
  · dsimp only at renamed
    split at renamed
    · rwa [Except.ok.inj renamed] at present
    · next changes =>
      have other : workDir ++ ["problem.xml"] ≠ testsDir ++ [entry.1] := by
        intro source
        obtain ⟨_, same⟩ := List.append_inj' source rfl
        rw [← List.singleton_inj.mp same] at changes
        exact absurd (show stripZeros "problem.xml" = "problem.xml" by decide) changes
      obtain ⟨content, _, found⟩ := Tree.get?_rename (attempt_eq_ok.mp renamed) (workDir ++ ["problem.xml"])
      rw [if_neg other] at found
      rw [Tree.readFile, found]
      split_ifs
      · rfl
      · exact present

/-- The package is checked as it is left. -/
theorem validateTestCases_eq_ok {testCount : Option ℤ}
    (validated : validateTestCases tree testsDir testCount = .ok fixed) :
    checkTestCases fixed testsDir testCount = .ok () ∧
      ((tree.readFile (workDir ++ ["problem.xml"])).isSome → (fixed.readFile (workDir ++ ["problem.xml"])).isSome) := by
  obtain ⟨renamed, fixes, validated⟩ := Except.bind_eq_ok_iff.mp validated
  obtain ⟨⟨⟩, checked, validated⟩ := Except.bind_eq_ok_iff.mp validated
  obtain rfl := Except.ok.inj validated
  refine ⟨checked, fun present => ?_⟩
  split at fixes
  · obtain ⟨entries, _, renames⟩ := Except.bind_eq_ok_iff.mp fixes
    exact Except.foldlM_invariant (fun _ _ _ present renamed => fixTestCase_keeps_xml renamed present) present renames
  · rwa [Except.ok.inj fixes] at present

/-- The description of the problem is not below the directory of the tests, hence its directory is not either. -/
theorem notPrefix_workDir (holds : HoldsTests tree testsDir n)
    (present : (tree.readFile (workDir ++ ["problem.xml"])).isSome) : ¬ testsDir <+: workDir := by
  rintro ⟨below, rfl⟩
  have found : (tree.get? (testsDir ++ (below ++ ["problem.xml"]))).isSome := by
    rw [Tree.readFile] at present
    split at present
    · next found =>
      rw [← List.append_assoc, found]
      rfl
    · contradiction
  obtain ⟨name, member, same⟩ := holds.only _ (by simp) found
  obtain ⟨_, last⟩ := List.append_inj' (same.trans (List.nil_append [name]).symm) rfl
  rw [← List.singleton_inj.mp last] at member
  exact absurd (char_of_mem_testNames member (List.mem_cons_self : 'p' ∈ "problem.xml".toList)) (by decide)

theorem holdsTests_write (holds : HoldsTests tree testsDir n) (apart : ¬ testsDir <+: workDir) {name content : String}
    (written : tree.write (workDir ++ [name]) content = some after) : HoldsTests after testsDir n := by
  have other {below : List String} (inside : below ≠ []) : testsDir ++ below ≠ workDir ++ [name] := by
    intro same
    have directory : testsDir ++ below.dropLast = workDir := by
      rw [← List.dropLast_append_of_ne_nil inside, same, List.dropLast_concat]
    exact apart ⟨_, directory⟩
  have kept {below : List String} (inside : below ≠ []) :
      after.get? (testsDir ++ below) = tree.get? (testsDir ++ below) := by
    rw [Tree.get?_write written, if_neg (other inside)]
  refine ⟨?_, fun test member => ?_, fun below inside present => ?_⟩
  · exact (Engine.keeps_write written).1 testsDir holds.directory
  · rw [kept (List.cons_ne_nil test [])]
    exact holds.files test member
  · rw [kept inside] at present
    exact holds.only below inside present

variable {destination : List String} {parsedData : ParsedProblemXML} {archive : List Entry}

private theorem resolve_slash (directory : List String) (s : String) :
    resolve directory (s ++ "/") = resolve directory s := by
  have joined := Machine.Path.resolve_join directory s ""
  rwa [String.append_empty] at joined

/-- An entry of its own has its name, also where it is a directory. -/
theorem archiveFile_eq_ok {path : List String} {name : String} {entry : Entry}
    (archived : archiveFile tree path name = .ok entry) :
    resolve destination entry.name = resolve destination name ∧
      ∀ content, entry.node = .file content → entry.name = name := by
  rw [archiveFile] at archived
  split at archived
  · exact absurd archived Except.throw_ne_ok
  · obtain rfl := Except.ok.inj archived
    exact ⟨rfl, fun _ _ => rfl⟩
  · obtain rfl := Except.ok.inj archived
    exact ⟨resolve_slash destination name, nofun⟩

private theorem isName_of_mem_testNames {name : String} (member : name ∈ testNames n) : Machine.Path.IsName name := by
  have slash : '/' ∉ name.toList := fun inName => absurd (char_of_mem_testNames member inName) (by decide)
  obtain ⟨i, _, _, rfl | rfl⟩ := mem_testNames.mp member
  · have digits : ∀ c ∈ (testFileName n i).toList, c.isDigit := fun _ => isDigit_of_mem_testFileName
    have nonempty : (testFileName n i).toList ≠ [] := by
      rw [testFileName_eq_zeroPadded, Go.toList_zeroPadded]
      simp [Nat.toDigits_ne_nil]
    refine ⟨slash, ?_, ?_, ?_⟩
    · intro same
      exact nonempty (by rw [same]; rfl)
    · intro same
      exact absurd (digits '.' (by rw [same]; decide)) (by decide)
    · intro same
      exact absurd (digits '.' (by rw [same]; decide)) (by decide)
  · have last : 'a' ∈ (testFileName n i ++ ".a").toList := by
      rw [String.toList_append]
      exact List.mem_append_right _ (by decide)
    refine ⟨slash, ?_, ?_, ?_⟩ <;>
    · intro same
      rw [same] at last
      exact absurd last (by decide)

/-- An input or answer file under the name that the engine looks for. -/
def IsTest (n : ℤ) (entry : Entry) : Prop :=
  ∃ name ∈ testNames n, entry.name = "tests" ++ "/" ++ name ∧ ∃ content, entry.node = .file content

private theorem resolve_test {name : String} (member : name ∈ testNames n) :
    resolve destination ("tests" ++ "/" ++ name) = destination ++ ["tests", name] := by
  rw [Machine.Path.resolve_join, Machine.Path.resolve_name _ (isName_of_mem_testNames member),
    Machine.Path.resolve_name _ (by decide), List.append_assoc, List.singleton_append]

private theorem isTest_of_mem_archiveDirectory (holds : HoldsTests tree testsDir n) {entry : Entry}
    (member : entry ∈ archiveDirectory tree testsDir "tests") : IsTest n entry := by
  obtain ⟨⟨path, node⟩, listed, selected⟩ := List.mem_filterMap.mp member
  have found := Record.get?_eq_some_iff.mpr listed
  rw [entryBelow?] at selected
  split at selected
  · next inside =>
    obtain ⟨⟨below, rfl⟩, proper⟩ := inside
    have nonempty : below ≠ [] := by
      rintro rfl
      exact proper (List.append_nil testsDir)
    obtain ⟨name, isTest, rfl⟩ := holds.only below nonempty (by rw [Tree.get?, found]; rfl)
    obtain ⟨content, file⟩ := holds.files name isTest
    obtain rfl := Option.some.inj (found.symm.trans file)
    obtain rfl := Option.some.inj selected
    refine ⟨name, isTest, ?_, content, rfl⟩
    simp
  · contradiction

private theorem mem_archiveDirectory (holds : HoldsTests tree testsDir n) {name : String}
    (member : name ∈ testNames n) :
    ∃ content, ⟨"tests" ++ "/" ++ name, .file content⟩ ∈ archiveDirectory tree testsDir "tests" := by
  obtain ⟨content, file⟩ := holds.files name member
  refine ⟨content, List.mem_filterMap.mpr ⟨_, Record.get?_eq_some_iff.mp file, ?_⟩⟩
  rw [entryBelow?, if_pos ⟨List.prefix_append _ _, by simp⟩]
  simp

private theorem archiveInteractor_eq_ok (archived : archiveInteractor tree workDir parsedData = .ok archive)
    {entry : Entry}
    (member : entry ∈ archive) : ∃ path, archiveFile tree path "interactor" = .ok entry := by
  rw [archiveInteractor] at archived
  split at archived
  · split at archived
    · obtain ⟨interactor, one, rfl⟩ := Except.map_eq_ok_iff.mp archived
      exact ⟨_, List.mem_singleton.mp member ▸ one⟩
    · obtain rfl := Except.ok.inj archived
      exact absurd member List.not_mem_nil
  · obtain rfl := Except.ok.inj archived
    exact absurd member List.not_mem_nil

/-- The parts of a zipped problem. -/
theorem zipProblemFiles_eq_ok (zipped : zipProblemFiles tree workDir parsedData = .ok archive) :
    ∃ written, tree.write (workDir ++ ["problem.zip"]) "" = some written ∧
      (∃ checker ∈ archive, ∃ path, archiveFile written path "checker" = .ok checker) ∧
      archiveDirectory written (resolve workDir parsedData.testsInfo.testSetName) "tests" ⊆ archive ∧
      ∀ entry ∈ archive, entry ∈ archiveDirectory written (resolve workDir parsedData.testsInfo.testSetName) "tests" ∨
        entry = ⟨"resources/", .directory⟩ ∨ ∃ path name, archiveFile written path name = .ok entry ∧
          (name = "checker" ∨ name = "interactor" ∨
            ∃ resource ∈ parsedData.resources, name = "resources/" ++ resource.name) := by
  obtain ⟨written, checker, interactor, resources, write, first, second, others, rfl⟩ := zipProblemFiles_parts zipped
  refine ⟨written, write, ⟨checker, by simp, _, first⟩, fun entry member => by simp [member], ?_⟩
  intro entry member
  simp only [List.cons_append, List.append_assoc, List.mem_cons, List.mem_append] at member
  rcases member with rfl | isInteractor | isTest | directory | isResource
  · exact .inr (.inr ⟨_, _, first, .inl rfl⟩)
  · obtain ⟨path, archived⟩ := archiveInteractor_eq_ok second isInteractor
    exact .inr (.inr ⟨path, _, archived, .inr (.inl rfl)⟩)
  · exact .inl isTest
  · exact .inr (.inl directory)
  · obtain ⟨resource, listed, archived⟩ := Except.mem_mapM_eq_ok others isResource
    exact .inr (.inr ⟨_, _, archived, .inr (.inr ⟨resource, listed, rfl⟩)⟩)

/-- Paths of the archive next to the tests. -/
theorem notPrefix_resolve {name : String}
    (beside : name = "checker" ∨ name = "interactor" ∨ ∃ s, '/' ∉ s.toList ∧ name = "resources/" ++ s) :
    ¬ destination ++ ["tests"] <+: resolve destination name := by
  intro inside
  have single {other : String} (isName : Machine.Path.IsName other) (differs : "tests" ≠ other)
      (inside : destination ++ ["tests"] <+: resolve destination other) : False := by
    rw [Machine.Path.resolve_name _ isName, List.prefix_append_right_inj, List.cons_prefix_cons] at inside
    exact differs inside.1
  rcases beside with rfl | rfl | ⟨s, slash, rfl⟩
  · exact single (by decide) (by decide) inside
  · exact single (by decide) (by decide) inside
  · have joined : "resources/" ++ s = "resources" ++ "/" ++ s := rfl
    have isName : Machine.Path.IsName "resources" := by decide
    rw [joined, Machine.Path.resolve_join, Machine.Path.resolve_name destination isName, resolve,
      Machine.Path.segments_of_notMem slash, List.foldl_cons, List.foldl_nil, Machine.Path.enter] at inside
    split at inside
    · rw [List.prefix_append_right_inj] at inside
      simp at inside
    · split at inside
      · rw [List.dropLast_concat] at inside
        have short := inside.length_le
        rw [List.length_append, List.length_singleton] at short
        omega
      · rw [List.append_assoc, List.prefix_append_right_inj, List.singleton_append, List.cons_prefix_cons] at inside
        exact absurd inside.1 (by decide)

/-- The count of tests reaches the table as it is. -/
theorem column_integer {stored : ℤ} (natural : 0 ≤ n) (written : column "integer" 32 (some n) = .ok stored) :
    stored = n := by
  lift n to ℕ using natural
  obtain ⟨value, bound⟩ := column_natCast written
  rcases lt_or_ge n (2 ^ 53) with small | large
  · rw [value, shortest_of_lt small]
  · have least := le_shortest large
    omega

/-- The archive of an import: the tests of the row, a checker, and what lies beside the tests. -/
theorem archive_of_importProblem {calls : ImportCalls} {tmpBaseDir : List String} {row : ProblemRow}
    (imported : importProblem calls tmpBaseDir tree = .ok (row, archive)) :
    0 < row.testCount ∧
      (∀ name ∈ testNames row.testCount, ∃ content, ⟨"tests" ++ "/" ++ name, .file content⟩ ∈ archive) ∧
      (∃ checker ∈ archive, ∃ tree path, archiveFile tree path "checker" = .ok checker) ∧
      ∀ entry ∈ archive, IsTest row.testCount entry ∨
        ∀ destination, ¬ destination ++ ["tests"] <+: resolve destination entry.name := by
  obtain ⟨problem, parsedData, package, fixed, _, parses, read, validated, zipped, created⟩ :=
    importProblem_eq_ok imported
  obtain ⟨checked, keepsXml⟩ := validateTestCases_eq_ok validated
  obtain ⟨n, testCount, natural, holds⟩ := holdsTests_of_checkTestCases checked
  obtain ⟨_, _, stored⟩ := createProblemRecord_eq_ok created
  rw [testCount] at stored
  rw [column_integer natural stored]
  obtain ⟨written, write, ⟨checker, listed, path, isChecker⟩, tests, parts⟩ := zipProblemFiles_eq_ok zipped
  have holds := holdsTests_write holds (notPrefix_workDir holds (keepsXml read)) write
  refine ⟨testCount_positive (testsInfo_of_parseProblemXML parses) testCount, fun name member => ?_,
    ⟨checker, listed, written, path, isChecker⟩, fun entry member => ?_⟩
  · obtain ⟨content, archived⟩ := mem_archiveDirectory holds member
    exact ⟨content, tests archived⟩
  · rcases parts entry member with isTest | rfl | ⟨path, name, archived, beside⟩
    · exact .inl (isTest_of_mem_archiveDirectory holds isTest)
    · refine .inr fun destination => ?_
      exact notPrefix_resolve (.inr (.inr ⟨"", by decide, rfl⟩))
    · refine .inr fun destination => ?_
      rw [(archiveFile_eq_ok archived).1]
      refine notPrefix_resolve (beside.imp_right (Or.imp_right ?_))
      rintro ⟨resource, isResource, rfl⟩
      exact ⟨_, notMem_of_mem_extractResources (resources_of_parseProblemXML parses) isResource, rfl⟩

open Engine (ProblemData getProblemData downloadZip Downloaded downloaded_of_downloadZip)

variable {cwd : List String} {data : ProblemData}

private theorem resolve_goJoin (directory name : String) :
    resolve cwd (Go.join directory name) = resolve (resolve cwd directory) name := by
  rw [Go.join]
  split
  · next empty =>
    rw [empty]
    rfl
  · exact Machine.Path.resolve_join cwd directory name

private theorem resolve_getTestsDir : resolve cwd data.getTestsDir = resolve cwd data.localProblemDir ++ ["tests"] := by
  rw [Engine.ProblemData.getTestsDir, resolve_goJoin, Machine.Path.resolve_name _ (by decide)]

private theorem resolve_getCheckerSourcePath :
    resolve cwd data.getCheckerSourcePath = resolve cwd data.localProblemDir ++ ["checker"] := by
  rw [Engine.ProblemData.getCheckerSourcePath, resolve_goJoin, Machine.Path.resolve_name _ (by decide)]

private theorem resolve_getTestFilePath {i : ℕ} (positive : 1 ≤ i) (bound : i ≤ data.testCount) :
    resolve cwd (data.getTestFilePath i) =
      resolve cwd data.getTestsDir ++ [testFileName data.testCount i] := by
  rw [Engine.ProblemData.getTestFilePath, resolve_goJoin]
  exact Machine.Path.resolve_name _ (isName_of_mem_testNames (mem_testNames.mpr ⟨i, positive, bound, .inl rfl⟩))

private theorem resolve_getAnswerFilePath {i : ℕ} (positive : 1 ≤ i) (bound : i ≤ data.testCount) :
    resolve cwd (data.getAnswerFilePath i) =
      resolve cwd data.getTestsDir ++ [testFileName data.testCount i ++ ".a"] := by
  have joined : data.getAnswerFilePath i = Go.join data.getTestsDir (testFileName data.testCount i ++ ".a") := by
    rw [Engine.ProblemData.getAnswerFilePath, Engine.ProblemData.getTestFilePath, Go.join, Go.join]
    split
    · rfl
    · exact String.append_assoc ..
  rw [joined, resolve_goJoin]
  exact Machine.Path.resolve_name _ (isName_of_mem_testNames (mem_testNames.mpr ⟨i, positive, bound, .inr rfl⟩))

/-- What lies in the directory of the tests before the download belongs to the same archive. -/
def OnlyOf (archive : List Entry) (destination : List String) (tree : Tree) : Prop :=
  ∀ path, destination ++ ["tests"] <+: path → (tree.get? path).isSome →
    ∃ entry ∈ archive, path <+: resolve destination entry.name

private theorem holdsTests_of_downloaded (unpacked : Downloaded destination archive tree after) (positive : 0 < n)
    (tests : ∀ name ∈ testNames n, ∃ content, ⟨"tests" ++ "/" ++ name, .file content⟩ ∈ archive)
    (parts : ∀ entry ∈ archive, IsTest n entry ∨
      ∀ destination, ¬ destination ++ ["tests"] <+: resolve destination entry.name)
    (leftover : OnlyOf archive destination tree) : HoldsTests after (destination ++ ["tests"]) n := by
  have isFile {name : String} (member : name ∈ testNames n) :
      ∃ content, after.get? (destination ++ ["tests"] ++ [name]) = some (.file content) := by
    obtain ⟨content, listed⟩ := tests name member
    have place := @resolve_test n destination name member
    obtain ⟨content', found⟩ := unpacked.files _ listed content rfl (by rw [place]; simp)
    rw [place] at found
    exact ⟨content', by rwa [List.append_assoc]⟩
  refine ⟨?_, fun name => isFile, fun below nonempty present => ?_⟩
  · obtain ⟨content, found⟩ := isFile (mem_testNames.mpr ⟨1, le_rfl, by omega, .inl rfl⟩)
    exact Tree.parent (by rw [found]; rfl)
  · have inside : destination ++ ["tests"] <+: destination ++ ["tests"] ++ below := List.prefix_append _ _
    have ofArchive : ∃ entry ∈ archive, destination ++ ["tests"] ++ below <+: resolve destination entry.name := by
      rcases unpacked.creates _ (by simp) present with before | above | along
      · exact leftover _ inside before
      · have short := (inside.trans above).length_le
        rw [List.length_append, List.length_singleton] at short
        omega
      · exact along
    obtain ⟨entry, listed, along⟩ := ofArchive
    rcases parts entry listed with ⟨name, member, named, _⟩ | beside
    · rw [named, resolve_test member, List.append_assoc, List.prefix_append_right_inj, List.singleton_append,
        List.cons_prefix_cons] at along
      refine ⟨name, member, along.2.eq_of_length_le ?_⟩
      exact List.length_pos_of_ne_nil nonempty
    · exact absurd (inside.trans along) (beside destination)

private theorem checker_of_downloaded (unpacked : Downloaded destination archive tree after) {checker : Entry}
    (listed : checker ∈ archive) {package : Tree} {path : List String}
    (archived : archiveFile package path "checker" = .ok checker) :
    (after.get? (destination ++ ["checker"])).isSome := by
  have isName : Machine.Path.IsName "checker" := by decide
  have place : resolve destination checker.name = destination ++ ["checker"] :=
    (archiveFile_eq_ok archived).1.trans (Machine.Path.resolve_name destination isName)
  cases kind : checker.node with
  | file content =>
    obtain ⟨_, found⟩ := unpacked.files checker listed content kind (by rw [place]; simp)
    rw [← place, found]
    rfl
  | directory => exact unpacked.directories checker listed kind "checker" (by decide) place

theorem HoldsTests.length_readdir (holds : HoldsTests tree testsDir n) :
    ∃ entries, tree.readdir testsDir = some entries ∧ entries.length = 2 * n.toNat := by
  obtain ⟨entries, read⟩ : ∃ entries, tree.readdir testsDir = some entries := ⟨_, if_pos holds.directory⟩
  refine ⟨entries, read, ?_⟩
  have names : (entries.map Prod.fst).Perm (testNames n) := by
    refine (List.perm_ext_iff_of_nodup (Tree.nodup_readdir read) (nodup_testNames n)).mpr fun name =>
      ⟨?_, fun member => ?_⟩
    · rintro listed
      obtain ⟨⟨_, node⟩, isEntry, rfl⟩ := List.mem_map.mp listed
      have found := (Tree.mem_readdir read).mp isEntry
      obtain ⟨_, member, same⟩ := holds.only _ (List.cons_ne_nil _ []) (by rw [found]; rfl)
      exact List.singleton_inj.mp same ▸ member
    · obtain ⟨content, found⟩ := holds.files name member
      exact List.mem_map.mpr ⟨_, (Tree.mem_readdir read).mpr found, rfl⟩
  rw [← List.length_map, names.length_eq, length_testNames]

/-- For every package that is imported, after the archive is unpacked, its entries in any order, into a directory
whose tests are at most those of the archive: every input and answer file of the engine's loop is there, and the
checker; the directory of the tests holds these files and nothing else; and their paths are all different. -/
theorem package_layout {calls : ImportCalls} {tmpBaseDir : List String} {engineTree : Tree} {row : ProblemRow}
    {stored : List Entry} {contestId localProblemDir downloaded : String}
    (imported : importProblem calls tmpBaseDir tree = .ok (row, archive)) (order : stored.Perm archive)
    (leftover : OnlyOf archive (resolve cwd localProblemDir) engineTree)
    (unpacked : downloadZip engineTree (resolve cwd localProblemDir) downloaded stored = .ok after) :
    let data := getProblemData row contestId localProblemDir
    let inRange (i : ℕ) : Prop := 1 ≤ i ∧ i ≤ data.testCount
    (∀ i, inRange i → (after.readFile (resolve cwd (data.getTestFilePath i))).isSome ∧
      (after.readFile (resolve cwd (data.getAnswerFilePath i))).isSome) ∧
    (after.get? (resolve cwd data.getCheckerSourcePath)).isSome ∧
    (∃ entries, after.readdir (resolve cwd data.getTestsDir) = some entries ∧
      entries.length = 2 * data.testCount.toNat) ∧
    (∀ below, below ≠ [] → (after.get? (resolve cwd data.getTestsDir ++ below)).isSome →
      ∃ i, inRange i ∧ (resolve cwd data.getTestsDir ++ below = resolve cwd (data.getTestFilePath i) ∨
        resolve cwd data.getTestsDir ++ below = resolve cwd (data.getAnswerFilePath i))) ∧
    ∀ i j, inRange i → inRange j →
      resolve cwd (data.getTestFilePath i) ≠ resolve cwd (data.getAnswerFilePath j) ∧
      (resolve cwd (data.getTestFilePath i) = resolve cwd (data.getTestFilePath j) → i = j) ∧
      (resolve cwd (data.getAnswerFilePath i) = resolve cwd (data.getAnswerFilePath j) → i = j) := by
  intro data inRange
  obtain ⟨positive, tests, ⟨checker, listed, package, path, isChecker⟩, parts⟩ := archive_of_importProblem imported
  have spec := downloaded_of_downloadZip unpacked
  have holds : HoldsTests after (resolve cwd data.getTestsDir) data.testCount := by
    rw [resolve_getTestsDir]
    refine holdsTests_of_downloaded spec positive (fun name member => ?_) (fun entry member => ?_) ?_
    · obtain ⟨content, archived⟩ := tests name member
      exact ⟨content, order.mem_iff.mpr archived⟩
    · exact parts entry (order.mem_iff.mp member)
    · intro path inside present
      obtain ⟨entry, archived, along⟩ := leftover path inside present
      exact ⟨entry, order.mem_iff.mpr archived, along⟩
  refine ⟨fun i ⟨least, most⟩ => ?_, ?_, holds.length_readdir, fun below nonempty present => ?_,
    fun i j ⟨least, most⟩ ⟨least', most'⟩ => ?_⟩
  · rw [resolve_getTestFilePath least most, resolve_getAnswerFilePath least most]
    obtain ⟨_, input⟩ := holds.files _ (mem_testNames.mpr ⟨i, least, most, .inl rfl⟩)
    obtain ⟨_, answer⟩ := holds.files _ (mem_testNames.mpr ⟨i, least, most, .inr rfl⟩)
    rw [Tree.readFile, Tree.readFile, input, answer]
    exact ⟨rfl, rfl⟩
  · rw [resolve_getCheckerSourcePath]
    exact checker_of_downloaded spec (order.mem_iff.mpr listed) isChecker
  · obtain ⟨name, member, rfl⟩ := holds.only below nonempty present
    obtain ⟨i, least, most, same⟩ := mem_testNames.mp member
    refine ⟨i, ⟨least, most⟩, ?_⟩
    rw [resolve_getTestFilePath least most, resolve_getAnswerFilePath least most]
    exact same.imp (fun same => by rw [same]) (fun same => by rw [same])
  · rw [resolve_getTestFilePath least most, resolve_getAnswerFilePath least' most',
      resolve_getTestFilePath least' most', resolve_getAnswerFilePath least most]
    simp only [ne_eq, List.append_cancel_left_eq, List.cons.injEq, and_true, testFileName_ne_answer, not_false_eq_true,
      testFileName_inj, String.append_left_inj, imp_self]

/-- The sample package in the cache of the engine. -/
def sampleUnpacked : Tree :=
  (downloadZip .empty (resolve [] "/judgeself/p_3") "PK" sampleArchive).toOption.getD .empty

private theorem unzip_sample :
    downloadZip .empty (resolve [] "/judgeself/p_3") "PK" sampleArchive = .ok sampleUnpacked := by
  have done : (downloadZip .empty (resolve [] "/judgeself/p_3") "PK" sampleArchive).toOption.isSome := by
    decide +kernel
  rw [sampleUnpacked]
  cases outcome : downloadZip .empty (resolve [] "/judgeself/p_3") "PK" sampleArchive with
  | error e =>
    rw [outcome] at done
    contradiction
  | ok after => rfl

/-- The files of both tests, and the checker. -/
theorem sample_layout :
    let data := getProblemData sampleRow "1" "/judgeself/p_3"
    (∀ i ∈ [1, 2], (sampleUnpacked.readFile (resolve [] (data.getTestFilePath i))).isSome ∧
      (sampleUnpacked.readFile (resolve [] (data.getAnswerFilePath i))).isSome) ∧
    (sampleUnpacked.get? (resolve [] data.getCheckerSourcePath)).isSome := by
  have empty : OnlyOf sampleArchive (resolve [] "/judgeself/p_3") Tree.empty := fun path _ present => by
    simp [Tree.get?, Tree.empty] at present
  refine ⟨?_, (package_layout import_sample (.refl _) empty unzip_sample).2.1⟩
  rw [List.forall_mem_cons, List.forall_mem_singleton]
  exact ⟨(package_layout import_sample (.refl _) empty unzip_sample).1 1 (by decide),
    (package_layout import_sample (.refl _) empty unzip_sample).1 2 (by decide)⟩

end JudgeSelf.PolygonService
