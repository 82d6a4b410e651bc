import JudgeSelf.ToMathlib.Record
import Mathlib.Data.List.Induction

/-! # Trees of files

An absolute path is the list of its components. A text names a path relative to a directory: empty
parts and `.` stay where they are, `..` leads to the parent. In a tree the parent of every node is a
directory. Operations that the file system refuses come to nothing.
-/

namespace Machine

namespace Path

/-- The parts between the slashes of a text. -/
def segments (s : String) : List String := (s.toList.splitOn '/').map String.ofList

def enter (path : List String) (part : String) : List String :=
  if part = "" ∨ part = "." then path
  else if part = ".." then path.dropLast
  else path ++ [part]

/-- The path that a text names in a directory. -/
def resolve (directory : List String) (s : String) : List String := (segments s).foldl enter directory

/-- A text that names an entry of a directory. -/
structure IsName (s : String) : Prop where
  slash : '/' ∉ s.toList
  nonempty : s ≠ ""
  dot : s ≠ "."
  dots : s ≠ ".."

instance (s : String) : Decidable (IsName s) :=
  decidable_of_iff ('/' ∉ s.toList ∧ s ≠ "" ∧ s ≠ "." ∧ s ≠ "..")
    ⟨fun ⟨slash, nonempty, dot, dots⟩ => ⟨slash, nonempty, dot, dots⟩,
      fun ⟨slash, nonempty, dot, dots⟩ => ⟨slash, nonempty, dot, dots⟩⟩

theorem segments_join (a b : String) : segments (a ++ "/" ++ b) = segments a ++ segments b := by
  have slash : "/".toList = ['/'] := rfl
  rw [segments, String.toList_append, String.toList_append, slash, List.append_assoc, List.singleton_append,
    List.splitOn_eq_splitOnP, List.splitOnP_append_cons _ _ (by simp), List.map_append]
  rfl

theorem resolve_join (directory : List String) (a b : String) :
    resolve directory (a ++ "/" ++ b) = resolve (resolve directory a) b := by
  rw [resolve, segments_join, List.foldl_append]
  rfl

theorem segments_of_notMem {s : String} (slash : '/' ∉ s.toList) : segments s = [s] := by
  have whole : s.toList.splitOn '/' = [s.toList] := by
    rw [List.splitOn_eq_splitOnP]
    apply List.splitOnP_eq_singleton
    intro c member
    rw [beq_eq_false_iff_ne]
    rintro rfl
    exact slash member
  rw [segments, whole, List.map_singleton, String.ofList_toList]

theorem resolve_name (directory : List String) {s : String} (name : IsName s) :
    resolve directory s = directory ++ [s] := by
  rw [resolve, segments_of_notMem name.slash, List.foldl_cons, List.foldl_nil, enter,
    if_neg (not_or.mpr ⟨name.nonempty, name.dot⟩), if_neg name.dots]

end Path

inductive Node
  | file (content : String)
  | directory
deriving DecidableEq

structure Tree where
  nodes : Record (List String) Node
  parents : ∀ path name, (nodes.get? (path ++ [name])).isSome → nodes.get? path = some .directory

namespace Tree

variable {tree after : Tree} {path : List String} {name : String}

def get? (tree : Tree) (path : List String) : Option Node := tree.nodes.get? path

def empty : Tree := ⟨Record.empty, by simp⟩

theorem parent (present : (tree.get? (path ++ [name])).isSome) : tree.get? path = some .directory :=
  tree.parents path name present

/-- All ancestors of a node are directories. -/
theorem ancestor {below : List String} (present : (tree.get? (path ++ below)).isSome) (proper : below ≠ []) :
    tree.get? path = some .directory := by
  induction below using List.reverseRecOn with
  | nil => exact absurd rfl proper
  | append_singleton init last ih =>
    rw [← List.append_assoc] at present
    have above := parent present
    cases init with
    | nil => rwa [List.append_nil] at above
    | cons first rest => exact ih (by rw [above]; rfl) (List.cons_ne_nil first rest)

/-- A new node below a directory, or another file in the place of one. -/
def insert (tree : Tree) (path : List String) (node : Node) (free : tree.get? path ≠ some .directory)
    (below : path = [] ∨ tree.get? path.dropLast = some .directory) : Tree where
  nodes := tree.nodes.set path node
  parents := by
    intro above name present
    rw [Record.get?_set] at present ⊢
    have before : tree.nodes.get? above = some .directory := by
      by_cases same : above ++ [name] = path
      · rcases below with root | parent
        · rw [root] at same
          exact absurd same (by simp)
        · rwa [← same, List.dropLast_concat] at parent
      · rw [if_neg same] at present
        exact tree.parents above name present
    rw [if_neg]
    · exact before
    · rintro rfl
      exact free before

theorem get?_insert {node : Node} {free} {below} (other : List String) :
    (tree.insert path node free below).get? other = if other = path then some node else tree.get? other :=
  Record.get?_set ..

/-- `open` for writing, `write`: the file is created or replaced. -/
def write (tree : Tree) (path : List String) (content : String) : Option Tree :=
  if h : tree.get? path ≠ some .directory ∧ path ≠ [] ∧ tree.get? path.dropLast = some .directory then
    some (tree.insert path (.file content) h.1 (.inr h.2.2))
  else none

theorem get?_write {content : String} (written : tree.write path content = some after) (other : List String) :
    after.get? other = if other = path then some (.file content) else tree.get? other := by
  rw [write] at written
  split at written
  · obtain rfl := Option.some.inj written
    exact get?_insert other
  · contradiction

/-- A directory, if there is none. -/
def mkdir (tree : Tree) (path : List String) : Option Tree :=
  match found : tree.get? path with
  | some .directory => some tree
  | some (.file _) => none
  | none =>
    if h : path = [] ∨ tree.get? path.dropLast = some .directory then
      some (tree.insert path .directory (by rw [found]; simp) h)
    else none

theorem get?_mkdir (made : tree.mkdir path = some after) (other : List String) :
    after.get? other = if other = path then some .directory else tree.get? other := by
  rw [mkdir] at made
  split at made
  · next found =>
    obtain rfl := Option.some.inj made
    split
    · next same => rw [same, found]
    · rfl
  · contradiction
  · split at made
    · obtain rfl := Option.some.inj made
      exact get?_insert other
    · contradiction

/-- A directory and the directories along a path below it. -/
def mkdirBelow (tree : Tree) (above : List String) : List String → Option Tree
  | [] => tree.mkdir above
  | name :: rest => (tree.mkdir above).bind fun made => made.mkdirBelow (above ++ [name]) rest

/-- A directory with all its ancestors. -/
def mkdirAll (tree : Tree) (path : List String) : Option Tree := tree.mkdirBelow [] path

/-- What exists stays as it is. -/
theorem mkdir_keeps (made : tree.mkdir path = some after) {other : List String} {node : Node}
    (present : tree.get? other = some node) : after.get? other = some node := by
  rw [mkdir] at made
  split at made
  · obtain rfl := Option.some.inj made
    exact present
  · contradiction
  · next absent =>
    split at made
    · obtain rfl := Option.some.inj made
      rw [get?_insert, if_neg]
      · exact present
      · rintro rfl
        rw [absent] at present
        contradiction
    · contradiction

theorem mkdirBelow_spec {above below : List String} (made : tree.mkdirBelow above below = some after) :
    (∀ other node, tree.get? other = some node → after.get? other = some node) ∧
      ∀ other, (after.get? other).isSome → (tree.get? other).isSome ∨ other <+: above ++ below := by
  have created {tree after : Tree} {path : List String} (made : tree.mkdir path = some after) (other : List String)
      (present : (after.get? other).isSome) : (tree.get? other).isSome ∨ other = path := by
    rw [get?_mkdir made] at present
    split at present
    · next same => exact .inr same
    · exact .inl present
  induction below generalizing tree above with
  | nil =>
    refine ⟨fun _ _ => mkdir_keeps made, fun other present => (created made other present).imp_right ?_⟩
    rintro rfl
    exact List.prefix_append _ _
  | cons name rest ih =>
    obtain ⟨next, first, made⟩ := Option.bind_eq_some_iff.mp made
    obtain ⟨keeps, creates⟩ := ih made
    refine ⟨fun other node present => keeps other node (mkdir_keeps first present), fun other present => ?_⟩
    rcases creates other present with before | along
    · refine (created first other before).imp_right ?_
      rintro rfl
      exact List.prefix_append _ _
    · rw [List.append_assoc] at along
      exact .inr along

theorem mkdirAll_keeps (made : tree.mkdirAll path = some after) {other : List String} {node : Node}
    (present : tree.get? other = some node) : after.get? other = some node :=
  (mkdirBelow_spec made).1 other node present

/-- Only ancestors are created. -/
theorem mkdirAll_creates (made : tree.mkdirAll path = some after) {other : List String}
    (present : (after.get? other).isSome) : (tree.get? other).isSome ∨ other <+: path := by
  have spec := (mkdirBelow_spec made).2 other present
  rwa [List.nil_append] at spec

theorem mkdirBelow_directory {above below : List String} (made : tree.mkdirBelow above below = some after) :
    after.get? (above ++ below) = some .directory := by
  induction below generalizing tree above with
  | nil => rw [List.append_nil, get?_mkdir made, if_pos rfl]
  | cons name rest ih =>
    obtain ⟨next, _, made⟩ := Option.bind_eq_some_iff.mp made
    have found := ih made
    rwa [List.append_assoc, List.singleton_append] at found

theorem mkdirAll_directory (made : tree.mkdirAll path = some after) : after.get? path = some .directory := by
  have found := mkdirBelow_directory made
  rwa [List.nil_append] at found

theorem mkdir_directory (found : tree.get? path = some .directory) : tree.mkdir path = some tree := by
  rw [mkdir]
  split
  · rfl
  · next other => exact absurd (found.symm.trans other) (by simp)
  · next other => exact absurd (found.symm.trans other) (by simp)

/-- A directory has its ancestors already. -/
theorem mkdirBelow_concat {above below : List String} (found : tree.get? (above ++ below) = some .directory) :
    tree.mkdirBelow above (below ++ [name]) = tree.mkdir (above ++ below ++ [name]) := by
  induction below generalizing above with
  | nil =>
    rw [List.append_nil] at found ⊢
    rw [List.nil_append, mkdirBelow, mkdir_directory found, Option.bind_some, mkdirBelow]
  | cons first rest ih =>
    have directory := ancestor (by rw [found]; rfl) (List.cons_ne_nil first rest)
    have joined : above ++ first :: rest = above ++ [first] ++ rest := by simp
    rw [joined] at found ⊢
    rw [List.cons_append, mkdirBelow, mkdir_directory directory, Option.bind_some, ih found]

/-- Below a directory something has the name after the attempt to make it a directory. -/
theorem isSome_mkdirAll (found : tree.get? path = some .directory) :
    (((tree.mkdirAll (path ++ [name])).getD tree).get? (path ++ [name])).isSome := by
  rw [mkdirAll, @mkdirBelow_concat _ _ [] path found, List.nil_append, mkdir]
  split
  · next present => rw [Option.getD_some, present]; rfl
  · next present => rw [Option.getD_none, present]; rfl
  · rw [dif_pos (.inr (by rw [List.dropLast_concat]; exact found)), Option.getD_some, get?_insert, if_pos rfl]
    rfl

/-- One directory after another, until the file system refuses one. -/
def mkdirs (tree : Tree) : List (List String) → Tree × Bool
  | [] => (tree, true)
  | path :: rest =>
    match tree.mkdir path with
    | some made => made.mkdirs rest
    | none => (tree, false)

/-- Where nothing is, and the directory can be made, everything below it can. -/
theorem isSome_mkdirBelow {below : List String} (free : tree.get? path = none) (made : (tree.mkdir path).isSome) :
    (tree.mkdirBelow path below).isSome := by
  induction below generalizing tree path with
  | nil => exact made
  | cons name rest ih =>
    obtain ⟨next, made⟩ := Option.isSome_iff_exists.mp made
    have directory : next.get? path = some .directory := by rw [get?_mkdir made, if_pos rfl]
    have absent : next.get? (path ++ [name]) = none := by
      rw [get?_mkdir made, if_neg (by simp)]
      by_contra present
      have above := parent (Option.isSome_iff_ne_none.mpr present)
      rw [free] at above
      contradiction
    have below : (next.mkdir (path ++ [name])).isSome := by
      rw [mkdir]
      split
      · rfl
      · next present =>
        rw [absent] at present
        contradiction
      · rw [dif_pos (.inr (by rw [List.dropLast_concat]; exact directory))]
        rfl
    rw [mkdirBelow, made, Option.bind_some]
    exact ih absent below

/-- A way down that is refused has not changed anything: what stands in it was there. -/
theorem eq_of_mkdirBelow_eq_none {below : List String} (refused : tree.mkdirBelow path below = none)
    (made : tree.mkdir path = some after) : after = tree := by
  cases present : tree.get? path with
  | none =>
    have succeeds : (tree.mkdirBelow path below).isSome := isSome_mkdirBelow present (by rw [made]; rfl)
    rw [refused] at succeeds
    contradiction
  | some node =>
    cases node with
    | directory =>
      rw [mkdir_directory present] at made
      exact (Option.some.inj made).symm
    | file content =>
      have kept := mkdir_keeps made present
      rw [get?_mkdir made, if_pos rfl] at kept
      exact absurd (Option.some.inj kept) Node.noConfusion

theorem mkdirs_keeps {paths : List (List String)} {node : Node} (present : tree.get? path = some node) :
    (tree.mkdirs paths).1.get? path = some node := by
  induction paths generalizing tree with
  | nil => exact present
  | cons first rest ih =>
    rw [mkdirs]
    cases made : tree.mkdir first with
    | some next => exact ih (mkdir_keeps made present)
    | none => exact present

theorem mkdirs_creates {paths : List (List String)} {node : Node}
    (present : (tree.mkdirs paths).1.get? path = some node) :
    tree.get? path = some node ∨ node = .directory ∧ path ∈ paths := by
  induction paths generalizing tree with
  | nil => exact .inl present
  | cons first rest ih =>
    rw [mkdirs] at present
    cases made : tree.mkdir first with
    | none =>
      rw [made] at present
      exact .inl present
    | some next =>
      rw [made] at present
      rcases ih present with before | ⟨directory, later⟩
      · rw [get?_mkdir made] at before
        split at before
        · next same => exact .inr ⟨(Option.some.inj before).symm, same ▸ List.mem_cons_self⟩
        · exact .inl before
      · exact .inr ⟨directory, List.mem_cons_of_mem _ later⟩

theorem mkdirs_directory {paths : List (List String)} (made : (tree.mkdirs paths).2 = true) :
    ∀ path ∈ paths, (tree.mkdirs paths).1.get? path = some .directory := by
  induction paths generalizing tree with
  | nil => exact fun _ absurdity => absurd absurdity List.not_mem_nil
  | cons first rest ih =>
    rw [mkdirs] at made ⊢
    cases created : tree.mkdir first with
    | none =>
      rw [created] at made
      contradiction
    | some next =>
      rw [created] at made
      refine List.forall_mem_cons.mpr ⟨mkdirs_keeps ?_, ih made⟩
      rw [get?_mkdir created, if_pos rfl]

/-- The tree without a file. -/
def remove (tree : Tree) (path : List String) (file : tree.get? path ≠ some .directory) : Tree where
  nodes := tree.nodes.erase path
  parents := by
    intro above name present
    rw [Record.get?_erase] at present ⊢
    split at present
    · contradiction
    · have before := tree.parents above name present
      rw [if_neg]
      · exact before
      · rintro rfl
        exact file before

theorem get?_remove {file} (other : List String) :
    (tree.remove path file).get? other = if other = path then none else tree.get? other :=
  Record.get?_erase ..

/-- `os.RemoveAll`: the tree without a node and everything below it. -/
def removeAll (tree : Tree) (path : List String) : Tree where
  nodes := tree.nodes.filter fun e => ¬ path <+: e.1
  parents := by
    intro above name present
    obtain ⟨node, found⟩ := Option.isSome_iff_exists.mp present
    obtain ⟨before, outside⟩ := Record.get?_filter.mp found
    refine Record.get?_filter.mpr ⟨tree.parents above name (by rw [before]; rfl), ?_⟩
    rw [decide_eq_true_eq] at outside ⊢
    exact fun inside => outside (inside.trans (List.prefix_append _ _))

theorem get?_removeAll (other : List String) :
    (tree.removeAll path).get? other = if path <+: other then none else tree.get? other := by
  ext node
  rw [get?, removeAll, Record.get?_filter, decide_eq_true_eq]
  by_cases inside : path <+: other
  · simp [inside]
  · simp [inside, get?]

/-- `rename` of a file. -/
def rename (tree : Tree) (source destination : List String) : Option Tree :=
  match found : tree.get? source with
  | some (.file content) =>
    if source = destination then some tree
    else (tree.remove source (by rw [found]; simp)).write destination content
  | _ => none

theorem get?_rename {source destination : List String} (renamed : tree.rename source destination = some after)
    (other : List String) : ∃ content, tree.get? source = some (.file content) ∧
      after.get? other = if other = destination then some (.file content)
        else if other = source then none
        else tree.get? other := by
  rw [rename] at renamed
  split at renamed
  · next content found =>
    refine ⟨content, found, ?_⟩
    split at renamed
    · next same =>
      obtain rfl := Option.some.inj renamed
      subst same
      split
      · next here => rw [here, found]
      · rfl
    · rw [get?_write renamed, get?_remove]
  · contradiction

/-- The name of a path in a directory. -/
def child? (directory path : List String) : Option String :=
  if path.dropLast = directory then path.getLast? else none

/-- The entries of a directory. -/
def readdir (tree : Tree) (directory : List String) : Option (List (String × Node)) :=
  if tree.get? directory = some .directory then
    some (tree.nodes.entries.filterMap fun e => (child? directory e.1).map (·, e.2))
  else none

theorem child?_eq_some {directory : List String} : child? directory path = some name ↔ path = directory ++ [name] := by
  constructor
  · intro child
    rw [child?] at child
    split at child
    · next above => rw [← above, List.dropLast_append_getLast? name child]
    · contradiction
  · rintro rfl
    simp [child?]

theorem mem_readdir {directory : List String} {entries : List (String × Node)}
    (read : tree.readdir directory = some entries) {node : Node} :
    (name, node) ∈ entries ↔ tree.get? (directory ++ [name]) = some node := by
  rw [readdir] at read
  split at read
  · obtain rfl := Option.some.inj read
    rw [List.mem_filterMap, get?, Record.get?_eq_some_iff]
    constructor
    · rintro ⟨⟨path, found⟩, member, selected⟩
      obtain ⟨child, named, same⟩ := Option.map_eq_some_iff.mp selected
      obtain ⟨rfl, rfl⟩ := Prod.mk.inj same
      rw [← child?_eq_some.mp named]
      exact member
    · intro member
      exact ⟨_, member, by rw [child?_eq_some.mpr rfl]; rfl⟩
  · contradiction

/-- The names in a directory are distinct. -/
theorem nodup_readdir {directory : List String} {entries : List (String × Node)}
    (read : tree.readdir directory = some entries) : (entries.map Prod.fst).Nodup := by
  rw [readdir] at read
  split at read
  · obtain rfl := Option.some.inj read
    have names : (tree.nodes.entries.filterMap fun e => (child? directory e.1).map (·, e.2)).map Prod.fst =
        (tree.nodes.entries.map Prod.fst).filterMap (child? directory) := by
      rw [List.map_filterMap, List.filterMap_map]
      congr 1
      funext e
      simp [Function.comp_def]
    rw [names]
    refine tree.nodes.nodup.filterMap fun path path' name child child' => ?_
    rw [child?_eq_some.mp child, child?_eq_some.mp child']
  · contradiction

def readFile (tree : Tree) (path : List String) : Option String :=
  match tree.get? path with
  | some (.file content) => some content
  | _ => none

end Tree

end Machine
