import JudgeSelf.Soundness.PackageLayout
import Mathlib.Data.Set.Function

/-! # Test names without zeros

For less than ten tests the leading zeros of the file names are dropped, one rename after another. Names
that differ in leading zeros alone come to one name, and the last of their files replaces the others.
-/

namespace JudgeSelf.PolygonService

open Js
open Machine (Node Tree)
open Machine.Path (IsName resolve)

def fileNames (tree : Tree) (testsDir : List String) : Set String :=
  {name | (tree.get? (testsDir ++ [name])).isSome}

/-- The second name is the first one without some leading zeros. -/
def DropsZeros (name name' : String) : Prop := ∃ k, name.toList = List.replicate k '0' ++ name'.toList

/-- The files of a directory correspond to those that it had. -/
structure Preserved (testsDir : List String) (tree after : Tree) : Prop where
  count : ∀ entries entries', tree.readdir testsDir = some entries → after.readdir testsDir = some entries' →
    entries'.length = entries.length
  bijection : ∃ f : String → String, Set.BijOn f (fileNames tree testsDir) (fileNames after testsDir) ∧
    ∀ name ∈ fileNames tree testsDir, DropsZeros name (f name) ∧
      after.get? (testsDir ++ [f name]) = tree.get? (testsDir ++ [name])

/-- A rename of the loop replaces a file. -/
def Overwrites (testsDir : List String) : Tree → List (String × Node) → Prop
  | _, [] => False
  | tree, entry :: entries =>
    stripZeros entry.1 ≠ entry.1 ∧ (tree.get? (resolve testsDir (stripZeros entry.1))).isSome ∨
      ∃ next, fixTestCase testsDir tree entry = .ok next ∧ Overwrites testsDir next entries

variable {testsDir : List String} {tree after : Tree} {name name' : String} {entries : List (String × Node)}

private theorem toList_stripZeros (name : String) : (stripZeros name).toList = name.toList.dropWhile (· = '0') :=
  String.toList_ofList

private theorem dropsZeros_stripZeros (name : String) : DropsZeros name (stripZeros name) := by
  have zeros : name.toList.takeWhile (· = '0') = List.replicate (name.toList.takeWhile (· = '0')).length '0' := by
    refine List.eq_replicate_iff.mpr ⟨rfl, fun c member => ?_⟩
    have zero := List.mem_takeWhile_imp member
    exact of_decide_eq_true zero
  refine ⟨(name.toList.takeWhile (· = '0')).length, ?_⟩
  rw [toList_stripZeros, ← zeros, List.takeWhile_append_dropWhile]

private theorem stripZeros_of_dropsZeros (drops : DropsZeros name name') : stripZeros name' = stripZeros name := by
  obtain ⟨k, same⟩ := drops
  rw [← String.toList_inj, toList_stripZeros, toList_stripZeros, same, List.dropWhile_append_of_pos]
  intro c member
  exact decide_eq_true (List.eq_of_mem_replicate member)

private theorem stripZeros_stripZeros (name : String) : stripZeros (stripZeros name) = stripZeros name :=
  stripZeros_of_dropsZeros (dropsZeros_stripZeros name)

private theorem slash_notMem_stripZeros (slash : '/' ∉ name.toList) : '/' ∉ (stripZeros name).toList := by
  rw [toList_stripZeros]
  exact fun member => slash ((List.dropWhile_sublist _).mem member)

private theorem notDirectory_of_rename {source destination : List String}
    (renamed : tree.rename source destination = some after) :
    tree.get? destination ≠ some .directory := by
  rw [Tree.rename] at renamed
  split at renamed
  · next content found =>
    split at renamed
    · next same =>
      rw [← same, found]
      simp
    · next other =>
      rw [Tree.write] at renamed
      split at renamed
      · next free =>
        intro directory
        exact free.1 (by rw [Tree.get?_remove, if_neg (Ne.symm other), directory])
      · contradiction
  · contradiction

/-- What is left of the name of a renamed file is a name. -/
theorem isName_of_rename (isName : IsName name)
    (renamed : tree.rename (testsDir ++ [name]) (resolve testsDir (stripZeros name)) = some after) :
    IsName (stripZeros name) := by
  obtain ⟨content, found, _⟩ := Tree.get?_rename renamed []
  have directory : tree.get? testsDir = some .directory := Tree.parent (by rw [found]; rfl)
  have other := notDirectory_of_rename renamed
  refine ⟨slash_notMem_stripZeros isName.slash, fun empty => ?_, fun dot => ?_, fun dots => ?_⟩
  · rw [empty] at other
    exact other directory
  · rw [dot] at other
    exact other directory
  · rw [dots] at other
    have parent : resolve testsDir ".." = testsDir.dropLast := rfl
    rw [parent] at other
    cases testsDir using List.reverseRecOn with
    | nil => exact other directory
    | append_singleton above last =>
      rw [List.dropLast_concat] at other
      exact other (Tree.parent (by rw [directory]; rfl))

/-- A file stays, or goes to its name without zeros. -/
theorem fixTestCase_eq_ok {content : String} (isName : IsName name)
    (fixes : fixTestCase testsDir tree (name, .file content) = .ok after) :
    stripZeros name = name ∧ after = tree ∨
      stripZeros name ≠ name ∧ resolve testsDir (stripZeros name) = testsDir ++ [stripZeros name] ∧
        ∀ other, after.get? (testsDir ++ [other]) =
          if other = stripZeros name then tree.get? (testsDir ++ [name])
          else if other = name then none
          else tree.get? (testsDir ++ [other]) := by
  rw [fixTestCase] at fixes
  dsimp only at fixes
  split at fixes
  · next same => exact .inl ⟨same, (Except.ok.inj fixes).symm⟩
  · next changes =>
    have renamed := attempt_eq_ok.mp fixes
    have target := Machine.Path.resolve_name testsDir (isName_of_rename isName renamed)
    refine .inr ⟨changes, target, fun other => ?_⟩
    obtain ⟨content', found, moved⟩ := Tree.get?_rename renamed (testsDir ++ [other])
    rw [target] at moved
    simp only [List.append_cancel_left_eq, List.cons.injEq, and_true] at moved
    rw [moved, found]

/-- The names after one entry. -/
theorem mem_fileNames_fixTestCase {content : String} (isName : IsName name)
    (fixes : fixTestCase testsDir tree (name, .file content) = .ok after) (present : name ∈ fileNames tree testsDir)
    (other : String) : other ∈ fileNames after testsDir ↔
      other = stripZeros name ∨ other ∈ fileNames tree testsDir ∧ other ≠ name := by
  rcases fixTestCase_eq_ok isName fixes with ⟨same, rfl⟩ | ⟨changes, _, moved⟩
  · rw [same]
    constructor
    · intro member
      by_cases here : other = name
      · exact .inl here
      · exact .inr ⟨member, here⟩
    · rintro (rfl | ⟨member, _⟩)
      · exact present
      · exact member
  · rw [fileNames, Set.mem_ofPred_eq, moved]
    by_cases target : other = stripZeros name
    · rw [if_pos target]
      exact iff_of_true present (.inl target)
    · rw [if_neg target, or_iff_right target]
      by_cases source : other = name
      · rw [if_pos source]
        exact iff_of_false (by simp) fun ⟨_, differs⟩ => differs source
      · rw [if_neg source]
        exact (and_iff_left source).symm

/-- An entry of a listing that is a file. -/
def IsFile (entry : String × Node) : Prop := IsName entry.1 ∧ ∃ content, entry.2 = .file content

private theorem mem_fileNames_fixTestCases (files : ∀ entry ∈ entries, IsFile entry)
    (distinct : (entries.map Prod.fst).Nodup)
    (present : ∀ entry ∈ entries, entry.1 ∈ fileNames tree testsDir)
    (fixes : entries.foldlM (fixTestCase testsDir) tree = .ok after) (other : String) :
    other ∈ fileNames after testsDir ↔ (∃ entry ∈ entries, stripZeros entry.1 = other) ∨
      other ∈ fileNames tree testsDir ∧ ∀ entry ∈ entries, entry.1 ≠ other := by
  induction entries generalizing tree with
  | nil =>
    obtain rfl := Except.ok.inj fixes
    simp
  | cons entry entries ih =>
    obtain ⟨⟨isName, content, isFile⟩, filesRest⟩ := List.forall_mem_cons.mp files
    obtain ⟨fresh, distinctRest⟩ := List.nodup_cons.mp distinct
    obtain ⟨here, presentRest⟩ := List.forall_mem_cons.mp present
    rw [List.foldlM_cons] at fixes
    obtain ⟨next, one, fixesRest⟩ := Except.bind_eq_ok_iff.mp fixes
    obtain ⟨name, node⟩ := entry
    obtain rfl : node = .file content := isFile
    have names := mem_fileNames_fixTestCase isName one here
    have apart : ∀ entry ∈ entries, entry.1 ≠ name :=
      fun entry member same => fresh (List.mem_map.mpr ⟨entry, member, same⟩)
    have presentNext : ∀ entry ∈ entries, entry.1 ∈ fileNames next testsDir :=
      fun entry member => (names entry.1).mpr (.inr ⟨presentRest entry member, apart entry member⟩)
    rw [ih filesRest distinctRest presentNext fixesRest, names, List.exists_mem_cons_iff, List.forall_mem_cons]
    dsimp only
    constructor
    · rintro (later | ⟨rfl | ⟨member, differs⟩, others⟩)
      · exact .inl (.inr later)
      · exact .inl (.inl rfl)
      · exact .inr ⟨member, Ne.symm differs, others⟩
    · rintro ((rfl | later) | ⟨member, differs, others⟩)
      · by_cases again : ∃ entry ∈ entries, entry.1 = stripZeros name
        · obtain ⟨entry, member, same⟩ := again
          exact .inl ⟨entry, member, by rw [same, stripZeros_stripZeros]⟩
        · exact .inr ⟨.inl rfl, fun entry member same => again ⟨entry, member, same⟩⟩
      · exact .inl later
      · exact .inr ⟨.inr ⟨member, Ne.symm differs⟩, others⟩

/-- Names that are neither taken nor given stay with their files. -/
theorem get?_fixTestCases_of_ne (files : ∀ entry ∈ entries, IsFile entry)
    (fixes : entries.foldlM (fixTestCase testsDir) tree = .ok after)
    (others : ∀ entry ∈ entries, entry.1 ≠ name ∧ stripZeros entry.1 ≠ name) :
    after.get? (testsDir ++ [name]) = tree.get? (testsDir ++ [name]) := by
  induction entries generalizing tree with
  | nil => rw [Except.ok.inj fixes]
  | cons entry entries ih =>
    obtain ⟨⟨isName, content, isFile⟩, filesRest⟩ := List.forall_mem_cons.mp files
    obtain ⟨⟨source, target⟩, othersRest⟩ := List.forall_mem_cons.mp others
    rw [List.foldlM_cons] at fixes
    obtain ⟨next, one, fixesRest⟩ := Except.bind_eq_ok_iff.mp fixes
    obtain ⟨first, node⟩ := entry
    obtain rfl : node = .file content := isFile
    rw [ih filesRest fixesRest othersRest]
    rcases fixTestCase_eq_ok isName one with ⟨_, rfl⟩ | ⟨_, _, moved⟩
    · rfl
    · rw [moved, if_neg (Ne.symm target), if_neg (Ne.symm source)]

/-- Different names without zeros: every rename goes to a free name and takes the file along. -/
theorem fixTestCases_of_injective (files : ∀ entry ∈ entries, IsFile entry) (distinct : (entries.map Prod.fst).Nodup)
    (present : ∀ entry ∈ entries, entry.1 ∈ fileNames tree testsDir)
    (injective : ∀ entry ∈ entries, ∀ other ∈ entries, stripZeros entry.1 = stripZeros other.1 → entry.1 = other.1)
    (free : ∀ entry ∈ entries, stripZeros entry.1 ≠ entry.1 → stripZeros entry.1 ∉ fileNames tree testsDir)
    (fixes : entries.foldlM (fixTestCase testsDir) tree = .ok after) :
    ¬ Overwrites testsDir tree entries ∧ ∀ entry ∈ entries,
      after.get? (testsDir ++ [stripZeros entry.1]) = tree.get? (testsDir ++ [entry.1]) := by
  induction entries generalizing tree with
  | nil => exact ⟨id, fun _ absurdity => absurd absurdity List.not_mem_nil⟩
  | cons entry entries ih =>
    obtain ⟨⟨isName, content, isFile⟩, filesRest⟩ := List.forall_mem_cons.mp files
    obtain ⟨fresh, distinctRest⟩ := List.nodup_cons.mp distinct
    obtain ⟨here, presentRest⟩ := List.forall_mem_cons.mp present
    obtain ⟨target, freeRest⟩ := List.forall_mem_cons.mp free
    rw [List.foldlM_cons] at fixes
    obtain ⟨next, one, fixesRest⟩ := Except.bind_eq_ok_iff.mp fixes
    obtain ⟨name, node⟩ := entry
    obtain rfl : node = .file content := isFile
    have differs : ∀ entry ∈ entries, entry.1 ≠ name :=
      fun entry member same => fresh (List.mem_map.mpr ⟨entry, member, same⟩)
    have images : ∀ entry ∈ entries, stripZeros entry.1 ≠ stripZeros name := fun entry member same =>
      differs entry member (injective entry (List.mem_cons_of_mem _ member) _ List.mem_cons_self same)
    have apart : ∀ entry ∈ entries, entry.1 ≠ stripZeros name := by
      intro entry member same
      exact images entry member (by rw [same, stripZeros_stripZeros])
    have names := mem_fileNames_fixTestCase isName one here
    have moved := fixTestCase_eq_ok isName one
    obtain ⟨kept, contents⟩ := ih filesRest distinctRest
      (fun entry member => (names entry.1).mpr (.inr ⟨presentRest entry member, differs entry member⟩))
      (fun entry member other member' =>
        injective entry (List.mem_cons_of_mem _ member) other (List.mem_cons_of_mem _ member'))
      (fun entry member changes taken => ((names _).mp taken).elim (images entry member)
        fun before => freeRest entry member changes before.1) fixesRest
    refine ⟨?_, List.forall_mem_cons.mpr ⟨?_, fun entry member => ?_⟩⟩
    · rintro (⟨changes, taken⟩ | ⟨next', again, later⟩)
      · rcases moved with ⟨same, _⟩ | ⟨_, place, _⟩
        · exact changes same
        · rw [place] at taken
          exact target changes taken
      · obtain rfl := Except.ok.inj (one.symm.trans again)
        exact kept later
    · rw [get?_fixTestCases_of_ne filesRest fixesRest fun entry member => ⟨apart entry member, images entry member⟩]
      rcases moved with ⟨same, rfl⟩ | ⟨_, _, moved⟩
      · rw [same]
      · rw [moved, if_pos rfl]
    · rw [contents entry member]
      rcases moved with ⟨_, rfl⟩ | ⟨_, _, moved⟩
      · rfl
      · rw [moved, if_neg (apart entry member), if_neg (differs entry member)]

private theorem mem_fileNames_iff (read : tree.readdir testsDir = some entries) :
    name ∈ fileNames tree testsDir ↔ ∃ entry ∈ entries, entry.1 = name := by
  constructor
  · intro present
    obtain ⟨node, found⟩ := Option.isSome_iff_exists.mp present
    exact ⟨(name, node), (Tree.mem_readdir read).mpr found, rfl⟩
  · rintro ⟨⟨name, node⟩, listed, rfl⟩
    exact Option.isSome_iff_exists.mpr ⟨node, (Tree.mem_readdir read).mp listed⟩

private theorem length_eq_of_bijOn {f : String → String} {entries' : List (String × Node)}
    (bijective : Set.BijOn f (fileNames tree testsDir) (fileNames after testsDir))
    (read : tree.readdir testsDir = some entries) (read' : after.readdir testsDir = some entries') :
    entries'.length = entries.length := by
  have distinct : ((entries.map Prod.fst).map f).Nodup := by
    refine (Tree.nodup_readdir read).map_on fun name member name' member' same => ?_
    exact bijective.injOn ((mem_fileNames_iff read).mpr (List.mem_map.mp member))
      ((mem_fileNames_iff read).mpr (List.mem_map.mp member')) same
  have perm : ((entries.map Prod.fst).map f).Perm (entries'.map Prod.fst) := by
    refine (List.perm_ext_iff_of_nodup distinct (Tree.nodup_readdir read')).mpr fun name => ?_
    have given (name : String) : name ∈ entries.map Prod.fst ↔ name ∈ fileNames tree testsDir :=
      List.mem_map.trans (mem_fileNames_iff read).symm
    have left : name ∈ entries'.map Prod.fst ↔ name ∈ fileNames after testsDir :=
      List.mem_map.trans (mem_fileNames_iff read').symm
    rw [left, List.mem_map, ← bijective.image_eq]
    exact exists_congr fun other => and_congr_left' (given other)
  rw [← List.length_map Prod.fst, ← perm.length_eq, List.length_map, List.length_map]

theorem Preserved.of_bijOn {f : String → String}
    (bijective : Set.BijOn f (fileNames tree testsDir) (fileNames after testsDir))
    (carries : ∀ name ∈ fileNames tree testsDir, DropsZeros name (f name) ∧
      after.get? (testsDir ++ [f name]) = tree.get? (testsDir ++ [name])) : Preserved testsDir tree after :=
  ⟨fun _ _ read read' => length_eq_of_bijOn bijective read read', f, bijective, carries⟩

/-- What the renames leave are the names without zeros. -/
theorem fileNames_fixTestCases (read : tree.readdir testsDir = some entries) (files : ∀ entry ∈ entries, IsFile entry)
    (fixes : entries.foldlM (fixTestCase testsDir) tree = .ok after) :
    fileNames after testsDir = Set.image stripZeros (fileNames tree testsDir) := by
  ext name
  rw [mem_fileNames_fixTestCases files (Tree.nodup_readdir read)
    (fun entry member => (mem_fileNames_iff read).mpr ⟨entry, member, rfl⟩) fixes, or_iff_left]
  · constructor
    · rintro ⟨entry, member, rfl⟩
      exact ⟨entry.1, (mem_fileNames_iff read).mpr ⟨entry, member, rfl⟩, rfl⟩
    · rintro ⟨name, member, rfl⟩
      obtain ⟨entry, listed, rfl⟩ := (mem_fileNames_iff read).mp member
      exact ⟨entry, listed, rfl⟩
  · rintro ⟨member, others⟩
    obtain ⟨entry, listed, same⟩ := (mem_fileNames_iff read).mp member
    exact others entry listed same

private theorem preserved_fixTestCases_iff (read : tree.readdir testsDir = some entries)
    (files : ∀ entry ∈ entries, IsFile entry) (fixes : entries.foldlM (fixTestCase testsDir) tree = .ok after) :
    Preserved testsDir tree after ∧ ¬ Overwrites testsDir tree entries ↔
      Set.InjOn stripZeros (fileNames tree testsDir) := by
  have left := fileNames_fixTestCases read files fixes
  constructor
  · rintro ⟨⟨_, f, bijective, carries⟩, _⟩
    have strips : Set.EqOn f stripZeros (fileNames tree testsDir) := by
      intro name member
      have target := bijective.mapsTo member
      rw [left] at target
      obtain ⟨source, _, same⟩ := target
      rw [← stripZeros_of_dropsZeros (carries name member).1, ← same, stripZeros_stripZeros]
    exact strips.injOn_iff.mp bijective.injOn
  · intro injective
    have given {entry : String × Node} (member : entry ∈ entries) : entry.1 ∈ fileNames tree testsDir :=
      (mem_fileNames_iff read).mpr ⟨entry, member, rfl⟩
    obtain ⟨kept, contents⟩ := fixTestCases_of_injective files (Tree.nodup_readdir read) (fun _ => given)
      (fun entry member other member' same => injective (given member) (given member') same)
      (fun entry member changes taken => changes
        (injective taken (given member) (stripZeros_stripZeros entry.1))) fixes
    refine ⟨.of_bijOn (left ▸ injective.bijOn_image) fun name member => ⟨dropsZeros_stripZeros name, ?_⟩, kept⟩
    obtain ⟨entry, listed, rfl⟩ := (mem_fileNames_iff read).mp member
    exact contents entry listed

/-- In a directory of files that is validated, no test is lost or replaced, exactly if there are ten tests or more,
or no two names differ in leading zeros alone. -/
theorem tests_preserved_iff {n : ℤ} (read : tree.readdir testsDir = some entries)
    (files : ∀ entry ∈ entries, IsFile entry)
    (validated : validateTestCases tree testsDir (some n) = .ok after) :
    Preserved testsDir tree after ∧ ¬ (n < 10 ∧ Overwrites testsDir tree entries) ↔
      10 ≤ n ∨ Set.InjOn stripZeros (fileNames tree testsDir) := by
  obtain ⟨fixed, fixes, validated⟩ := Except.bind_eq_ok_iff.mp validated
  obtain ⟨⟨⟩, _, validated⟩ := Except.bind_eq_ok_iff.mp validated
  obtain rfl := Except.ok.inj validated
  by_cases small : n < 10
  · rw [Option.any_some, if_pos (decide_eq_true small)] at fixes
    obtain ⟨listed, read', fixes⟩ := Except.bind_eq_ok_iff.mp fixes
    obtain rfl := Option.some.inj (read.symm.trans (attempt_eq_ok.mp read'))
    rw [or_iff_right (not_le.mpr small), and_iff_right small]
    exact preserved_fixTestCases_iff read files fixes
  · rw [Option.any_some, if_neg (by simpa using small)] at fixes
    obtain rfl := Except.ok.inj fixes
    refine iff_of_true ⟨?_, fun both => small both.1⟩ (.inl (not_lt.mp small))
    exact .of_bijOn (Set.bijOn_id _) fun name _ => ⟨⟨0, rfl⟩, rfl⟩

/-- A directory of tests with the given files. -/
def testsTree (files : List (String × String)) : Tree :=
  files.foldl (fun tree file => (tree.write ["tests", file.1] file.2).getD tree) (Tree.empty.mkdirs [[], ["tests"]]).1

instance (entry : String × Node) : Decidable (IsFile entry) :=
  match entry with
  | (name, .file content) => decidable_of_iff (IsName name) ⟨fun isName => ⟨isName, content, rfl⟩, And.left⟩
  | (_, .directory) => isFalse fun ⟨_, _, absurdity⟩ => Node.noConfusion absurdity

/-- The input and the answer of one test, both with a zero in front. -/
def paddedTest : List (String × String) := [("01", "2"), ("01.a", "4")]

/-- Two inputs that differ in a zero. -/
def collidingTest : List (String × String) := [("1", "2"), ("01", "3"), ("1.a", "4")]

/-- The files of a list of entries. -/
def asFiles (files : List (String × String)) : List (String × Node) := files.map fun file => (file.1, .file file.2)

theorem padded_test_preserved : ∃ after, validateTestCases (testsTree paddedTest) ["tests"] (some 1) = .ok after ∧
    Preserved ["tests"] (testsTree paddedTest) after := by
  have read : (testsTree paddedTest).readdir ["tests"] = some (asFiles paddedTest) := by decide +kernel
  have valid : (validateTestCases (testsTree paddedTest) ["tests"] (some 1)).toOption.isSome := by decide +kernel
  cases validated : validateTestCases (testsTree paddedTest) ["tests"] (some 1) with
  | error err =>
    rw [validated] at valid
    contradiction
  | ok after =>
    have distinct : ∀ entry ∈ asFiles paddedTest, ∀ other ∈ asFiles paddedTest,
        stripZeros entry.1 = stripZeros other.1 → entry.1 = other.1 := by decide
    have injective : Set.InjOn stripZeros (fileNames (testsTree paddedTest) ["tests"]) := by
      intro name member name' member' same
      obtain ⟨entry, listed, rfl⟩ := (mem_fileNames_iff read).mp member
      obtain ⟨other, listed', rfl⟩ := (mem_fileNames_iff read).mp member'
      exact distinct entry listed other listed' same
    exact ⟨after, rfl, ((tests_preserved_iff read (by decide) validated).mpr (.inr injective)).1⟩

/-- The validation takes two files for the three that there were. -/
theorem colliding_test_lost : ∃ after, (∀ entry ∈ asFiles collidingTest, IsFile entry) ∧
    (testsTree collidingTest).readdir ["tests"] = some (asFiles collidingTest) ∧
    validateTestCases (testsTree collidingTest) ["tests"] (some 1) = .ok after ∧
    ¬ Preserved ["tests"] (testsTree collidingTest) after := by
  have read : (testsTree collidingTest).readdir ["tests"] = some (asFiles collidingTest) := by decide +kernel
  have left : (validateTestCases (testsTree collidingTest) ["tests"] (some 1)).toOption.map
      (fun after => after.readdir ["tests"]) = some (some (asFiles [("1", "3"), ("1.a", "4")])) := by
    decide +kernel
  obtain ⟨after, validated, read'⟩ := Option.map_eq_some_iff.mp left
  have validated : validateTestCases (testsTree collidingTest) ["tests"] (some 1) = .ok after := by
    cases result : validateTestCases (testsTree collidingTest) ["tests"] (some 1) with
    | error err =>
      rw [result] at validated
      contradiction
    | ok final =>
      rw [result] at validated
      rw [Option.some.inj validated]
  exact ⟨after, by decide, read, validated, fun preserved => absurd (preserved.count _ _ read read') (by decide)⟩

end JudgeSelf.PolygonService
