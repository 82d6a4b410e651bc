import JudgeSelf.Machine.Tree
import Mathlib.Data.Set.Defs

/-! # Path texts

`path/filepath` of Go on Unix, on arbitrary texts. An absolute path is cleaned to the text of the
directory list that it names, and one such text with a slash is a prefix of another exactly if the
first list is a proper prefix of the second one.
-/

namespace Machine.Filepath

open Machine.Path

def IsRooted (path : String) : Prop := path.toList.head? = some '/'

instance (path : String) : Decidable (IsRooted path) := inferInstanceAs (Decidable (_ = _))

/-- The text of an absolute path. -/
def render (path : List String) : String := "/" ++ "/".intercalate path

/-- One part of a path: empty parts and `.` are dropped, and `..` removes the name before it. Where there is
none, `..` is dropped at the root and stays in a relative path. -/
def cleanPart (rooted : Bool) (out : List String) (part : String) : List String :=
  if part = "" ∨ part = "." then out
  else if part = ".." then
    if out ≠ [] ∧ out.getLast? ≠ some ".." then out.dropLast
    else if rooted then out
    else out ++ [".."]
  else out ++ [part]

/-- `filepath.Clean`. -/
def clean (path : String) : String :=
  let out := (segments path).foldl (cleanPart (IsRooted path)) []
  if IsRooted path then render out
  else if out = [] then "."
  else "/".intercalate out

/-- `filepath.Join`. -/
def join (elem : List String) : String :=
  match elem.dropWhile (· = "") with
  | [] => ""
  | rest => clean ("/".intercalate rest)

/-- `filepath.Dir`: the path up to its last slash, cleaned. -/
def dir (path : String) : String := clean (String.ofList (path.toList.reverse.dropWhile (· ≠ '/')).reverse)

/-- `strings.HasPrefix`. -/
def hasPrefix (s front : String) : Bool := front.toList.isPrefixOf s.toList

variable {path directory : List String} {s : String} {tree : Tree}

theorem slash_notMem_of_mem_splitOn {cs part : List Char} (member : part ∈ cs.splitOn '/') : '/' ∉ part := by
  induction cs generalizing part with
  | nil =>
    rw [List.splitOn_eq_splitOnP, List.splitOnP_nil, List.mem_singleton] at member
    rw [member]
    exact List.not_mem_nil
  | cons c cs ih =>
    rw [List.splitOn_eq_splitOnP] at ih member
    rw [List.splitOnP_cons_eq_if_modifyHead] at member
    split at member
    · rcases List.mem_cons.mp member with rfl | later
      · exact List.not_mem_nil
      · exact ih later
    · next other =>
      cases parts : cs.splitOnP (· == '/') with
      | nil => exact absurd parts (List.splitOnP_ne_nil _ _)
      | cons first rest =>
        rw [parts] at ih member
        rcases List.mem_cons.mp member with rfl | later
        · have differs : c ≠ '/' := by simpa using other
          exact List.not_mem_cons_of_ne_of_not_mem differs.symm (ih List.mem_cons_self)
        · exact ih (List.mem_cons_of_mem _ later)

theorem slash_notMem_of_mem_segments {part : String} (member : part ∈ segments s) : '/' ∉ part.toList := by
  obtain ⟨cs, split, rfl⟩ := List.mem_map.mp member
  rw [String.toList_ofList]
  exact slash_notMem_of_mem_splitOn split

theorem isName_of_mem_foldl {parts : List String} (plain : ∀ part ∈ parts, '/' ∉ part.toList)
    (names : ∀ name ∈ directory, IsName name) : ∀ name ∈ parts.foldl enter directory, IsName name := by
  induction parts generalizing directory with
  | nil => exact names
  | cons part parts ih =>
    obtain ⟨slash, rest⟩ := List.forall_mem_cons.mp plain
    refine ih rest fun name member => ?_
    rw [enter] at member
    split at member
    · exact names name member
    · next something =>
      split at member
      · exact names name (List.dropLast_subset _ member)
      · next down =>
        rcases List.mem_append.mp member with before | last
        · exact names name before
        · obtain rfl := List.mem_singleton.mp last
          rw [not_or] at something
          exact ⟨slash, something.1, something.2, down⟩

/-- A text leads from names to names. -/
theorem isName_of_mem_resolve (names : ∀ name ∈ directory, IsName name) :
    ∀ name ∈ resolve directory s, IsName name :=
  isName_of_mem_foldl (fun _ => slash_notMem_of_mem_segments) names

theorem cleanPart_true {out : List String} (names : ∀ name ∈ out, IsName name) (part : String) :
    cleanPart true out part = enter out part := by
  rw [cleanPart, enter]
  split
  · rfl
  · split
    · by_cases root : out = []
      · rw [root]
        rfl
      · rw [if_pos ⟨root, fun last => (names ".." (List.mem_of_getLast? last)).dots rfl⟩]
    · rfl

theorem foldl_cleanPart {parts : List String} (plain : ∀ part ∈ parts, '/' ∉ part.toList) {out : List String}
    (names : ∀ name ∈ out, IsName name) : parts.foldl (cleanPart true) out = parts.foldl enter out := by
  induction parts generalizing out with
  | nil => rfl
  | cons part parts ih =>
    obtain ⟨slash, rest⟩ := List.forall_mem_cons.mp plain
    rw [List.foldl_cons, List.foldl_cons, cleanPart_true names]
    have entered : ∀ name ∈ [part].foldl enter out, IsName name :=
      isName_of_mem_foldl (List.forall_mem_singleton.mpr slash) names
    exact ih rest entered

/-- An absolute path is cleaned to the text of what it names. -/
theorem clean_rooted (rooted : IsRooted s) : clean s = render (resolve [] s) := by
  have same : (segments s).foldl (cleanPart true) [] = (segments s).foldl enter [] :=
    foldl_cleanPart (fun _ => slash_notMem_of_mem_segments) fun _ absurdity => absurd absurdity List.not_mem_nil
  rw [clean, if_pos rooted, decide_eq_true rooted, same]
  rfl

variable {front back : List String}

theorem render_append (some : front ≠ []) (more : back ≠ []) :
    render (front ++ back) = render front ++ "/" ++ "/".intercalate back := by
  rw [render, String.intercalate_append_of_ne_nil some more, render]
  simp only [String.append_assoc]

theorem segments_intercalate (some : path ≠ []) (names : ∀ name ∈ path, IsName name) :
    segments ("/".intercalate path) = path := by
  induction path with
  | nil => exact absurd rfl some
  | cons name path ih =>
    obtain ⟨isName, rest⟩ := List.forall_mem_cons.mp names
    cases path with
    | nil => rw [String.intercalate_singleton, segments_of_notMem isName.slash]
    | cons next path =>
      rw [String.intercalate_cons_of_ne_nil (List.cons_ne_nil next path), segments_join,
        segments_of_notMem isName.slash, ih (List.cons_ne_nil next path) rest]
      rfl

theorem segments_render (some : path ≠ []) (names : ∀ name ∈ path, IsName name) :
    segments (render path) = "" :: path := by
  have empty : render path = "" ++ "/" ++ "/".intercalate path := rfl
  rw [empty, segments_join, segments_intercalate some names]
  rfl

theorem foldl_enter (names : ∀ name ∈ path, IsName name) : path.foldl enter directory = directory ++ path := by
  induction path generalizing directory with
  | nil => exact (List.append_nil directory).symm
  | cons name path ih =>
    obtain ⟨isName, rest⟩ := List.forall_mem_cons.mp names
    rw [List.foldl_cons, ih rest, enter, if_neg (not_or.mpr ⟨isName.nonempty, isName.dot⟩), if_neg isName.dots,
      List.append_assoc]
    rfl

/-- Rendering loses nothing. -/
theorem resolve_render (names : ∀ name ∈ path, IsName name) : resolve [] (render path) = path := by
  by_cases root : path = []
  · subst root
    rfl
  · rw [resolve, segments_render root names, List.foldl_cons, foldl_enter names]
    rfl

/-- Containment in a directory other than the root, by its text and a slash. -/
theorem hasPrefix_render (names : ∀ name ∈ path, IsName name) (names' : ∀ name ∈ directory, IsName name)
    (other : directory ≠ []) :
    hasPrefix (render path) (render directory ++ "/") = true ↔ directory <+: path ∧ path ≠ directory := by
  rw [hasPrefix, List.isPrefixOf_iff_prefix]
  constructor
  · rintro ⟨rest, same⟩
    have text : render path = render directory ++ "/" ++ String.ofList rest := by
      rw [← String.toList_inj, ← same, String.toList_append (t := String.ofList rest), String.toList_ofList]
    by_cases root : path = []
    · subst root
      have parts : segments (render []) = ["", ""] := rfl
      rw [text, segments_join, segments_render other names', List.cons_append] at parts
      have empty : directory ++ segments (String.ofList rest) = [""] := (List.cons.inj parts).2
      cases directory with
      | nil => exact absurd rfl other
      | cons name directory => exact absurd (List.cons.inj empty).1 (names' name List.mem_cons_self).nonempty
    · have parts := segments_render root names
      rw [text, segments_join, segments_render other names', List.cons_append] at parts
      have split := (List.cons.inj parts).2
      refine ⟨⟨_, split⟩, ?_⟩
      rintro rfl
      have none : segments (String.ofList rest) = [] := List.append_right_eq_self.mp split
      exact absurd none (by simp [segments, List.splitOn_eq_splitOnP])
  · rintro ⟨⟨rest, rfl⟩, proper⟩
    have more : rest ≠ [] := by
      rintro rfl
      exact proper (List.append_nil directory)
    rw [render_append other more, String.toList_append (s := render directory ++ "/")]
    exact List.prefix_append _ _

theorem resolve_empty (directory : List String) : resolve directory "" = directory := rfl

theorem dir_render {last : String} (names : ∀ name ∈ front ++ [last], IsName name) :
    dir (render (front ++ [last])) = render front := by
  obtain ⟨names, isName⟩ := List.forall_mem_append.mp names
  have slash := (List.forall_mem_singleton.mp isName).slash
  have split : ∃ text, render (front ++ [last]) = text ++ "/" ++ last ∧ resolve [] text = front ∧
      IsRooted (text ++ "/") := by
    by_cases root : front = []
    · subst root
      exact ⟨"", by rw [List.nil_append, render, String.intercalate_singleton]; rfl, rfl, rfl⟩
    · refine ⟨render front, ?_, resolve_render names, ?_⟩
      · rw [render_append root (List.cons_ne_nil last []), String.intercalate_singleton]
      · rw [IsRooted, render, String.append_assoc, String.toList_append]
        rfl
  obtain ⟨text, same, named, rooted⟩ := split
  have upTo : (render (front ++ [last])).toList.reverse.dropWhile (· ≠ '/') = (text ++ "/").toList.reverse := by
    rw [same, String.toList_append (t := last), List.reverse_append, List.dropWhile_append_of_pos]
    · rw [String.toList_append, List.reverse_append]
      rfl
    · intro c member
      rw [decide_eq_true_eq]
      rintro rfl
      exact slash (List.mem_reverse.mp member)
  have ends : text ++ "/" = text ++ "/" ++ "" := (String.append_empty ..).symm
  rw [dir, upTo, List.reverse_reverse, String.ofList_toList, clean_rooted rooted, ends, resolve_join, named,
    resolve_empty]

/-- A name is joined to an absolute path by resolving it there. -/
theorem join_rooted {destination : String} (rooted : IsRooted destination) (name : String) :
    join [destination, name] = render (resolve (resolve [] destination) name) := by
  have some : destination ≠ "" := by
    rintro rfl
    contradiction
  have joined : "/".intercalate [destination, name] = destination ++ "/" ++ name := by
    rw [String.intercalate_cons_of_ne_nil (List.cons_ne_nil name []), String.intercalate_singleton]
  have head : IsRooted (destination ++ "/" ++ name) := by
    rw [IsRooted, String.append_assoc, String.toList_append, List.head?_append, rooted]
    rfl
  rw [join, List.dropWhile_cons_of_neg (by simpa using some)]
  dsimp only
  rw [joined, clean_rooted head, resolve_join]

/-- The directories that a text passes through, from the root to what it names. -/
def passed (s : String) : List (List String) := (segments s).scanl enter []

theorem foldl_mem_scanl {α β : Type*} {f : α → β → α} {a : α} {l : List β} : l.foldl f a ∈ l.scanl f a := by
  induction l generalizing a with
  | nil => simp
  | cons b l ih =>
    rw [List.scanl_cons]
    exact List.mem_cons_of_mem a ih

theorem resolve_mem_passed (s : String) : resolve [] s ∈ passed s := foldl_mem_scanl

/-- Without `..` the way leads down. -/
theorem prefix_of_mem_scanl {parts : List String} (down : ".." ∉ parts) {above : List String}
    (member : above ∈ parts.scanl enter directory) : directory <+: above ∧ above <+: parts.foldl enter directory := by
  induction parts generalizing directory above with
  | nil =>
    obtain rfl : above = directory := by simpa using member
    exact ⟨List.prefix_rfl, List.prefix_rfl⟩
  | cons part parts ih =>
    rw [List.scanl_cons] at member
    rw [List.mem_cons, not_or] at down
    have lower : directory <+: enter directory part := by
      rw [enter]
      split
      · exact List.prefix_rfl
      · rw [if_neg (Ne.symm down.1)]
        exact List.prefix_append _ _
    rcases List.mem_cons.mp member with rfl | later
    · refine ⟨List.prefix_rfl, ?_⟩
      have rest : enter above part <+: parts.foldl enter (enter above part) := (ih down.2 foldl_mem_scanl).1
      exact lower.trans rest
    · obtain ⟨below, above⟩ := ih down.2 later
      exact ⟨lower.trans below, above⟩

theorem prefix_of_mem_passed (down : ".." ∉ segments s) {above : List String} (member : above ∈ passed s) :
    above <+: resolve [] s := (prefix_of_mem_scanl down member).2

theorem prefix_of_mem_passed_render (names : ∀ name ∈ path, IsName name) {above : List String}
    (member : above ∈ passed (render path)) : above <+: path := by
  have down : ".." ∉ segments (render path) := by
    by_cases root : path = []
    · subst root
      decide
    · rw [segments_render root names, List.mem_cons, not_or]
      exact ⟨by decide, fun inside => (names ".." inside).dots rfl⟩
  have front := prefix_of_mem_passed down member
  rwa [resolve_render names] at front

theorem mkdirs_scanl {above below : List String} (names : ∀ name ∈ below, IsName name) :
    tree.mkdirs (below.scanl enter above) =
      ((tree.mkdirBelow above below).getD tree, (tree.mkdirBelow above below).isSome) := by
  induction below generalizing tree above with
  | nil =>
    rw [List.scanl_nil, Tree.mkdirs, Tree.mkdirBelow]
    cases tree.mkdir above <;> rfl
  | cons name rest ih =>
    obtain ⟨isName, names⟩ := List.forall_mem_cons.mp names
    have entered : enter above name = above ++ [name] := by
      rw [enter, if_neg (not_or.mpr ⟨isName.nonempty, isName.dot⟩), if_neg isName.dots]
    rw [List.scanl_cons, entered, Tree.mkdirs, Tree.mkdirBelow]
    cases made : tree.mkdir above with
    | none => rfl
    | some next =>
      dsimp only
      rw [Option.bind_some, ih names]
      cases refused : next.mkdirBelow (above ++ [name]) rest with
      | some last => rfl
      | none =>
        have below : tree.mkdirBelow above (name :: rest) = none := by
          rw [Tree.mkdirBelow, made, Option.bind_some, refused]
        rw [Tree.eq_of_mkdirBelow_eq_none below made]

/-- The directories that a clean text passes through are made one by one or, if one is refused, not at all. -/
theorem mkdirs_passed_render (names : ∀ name ∈ path, IsName name) :
    tree.mkdirs (passed (render path)) = ((tree.mkdirAll path).getD tree, (tree.mkdirAll path).isSome) := by
  have twice {above : List String} {paths : List (List String)} :
      tree.mkdirs (above :: above :: paths) = tree.mkdirs (above :: paths) := by
    rw [Tree.mkdirs, Tree.mkdirs]
    cases made : tree.mkdir above with
    | none => rfl
    | some next =>
      have directory : next.get? above = some .directory := by rw [Tree.get?_mkdir made, if_pos rfl]
      dsimp only
      rw [Tree.mkdirs, Tree.mkdir_directory directory]
  rw [Tree.mkdirAll, ← mkdirs_scanl names, passed]
  cases path with
  | nil =>
    have root : (segments (render [])).scanl enter [] = [[], [], []] := rfl
    rw [root, twice, twice]
    rfl
  | cons name rest =>
    have start : ("" :: name :: rest).scanl enter [] = [] :: (name :: rest).scanl enter [] := List.scanl_cons
    rw [segments_render (List.cons_ne_nil name rest) names, start, List.scanl_cons]
    exact twice

/-- The paths that begin with the text of a directory. -/
def below (directory : String) : Set String := {path | ∃ name, path = directory ++ "/" ++ name}

/-- Two directories that part ways have no path in common. -/
theorem notMem_below {a b x y : String} {front back back' : List String} (left : segments a = front ++ x :: back)
    (right : segments b = front ++ y :: back') (fork : x ≠ y) : ∀ path ∈ below a, path ∉ below b := by
  rintro path ⟨name, rfl⟩ ⟨name', same⟩
  have parts := congrArg segments same
  rw [segments_join, segments_join, left, right, List.append_assoc, List.append_assoc] at parts
  exact fork (List.cons.inj (List.append_cancel_left parts)).1

end Machine.Filepath
