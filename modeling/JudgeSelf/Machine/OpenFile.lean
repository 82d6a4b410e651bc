import Mathlib.Logic.Function.Basic

/-! # Files next to one open file

One party keeps a file open for writing while another creates, overwrites, renames and deletes files
by name. The open file is known by the name that it has by now: a rename carries it along, and it has
none once it is deleted or another file is renamed onto it. There are no other links.
-/

namespace Machine

inductive FileOperation (ν : Type*)
  /-- Create the file, or replace what is in it. -/
  | write (name : ν) (data : String)
  | rename (source destination : ν)
  | delete (name : ν)
deriving DecidableEq

namespace FileOperation

variable {ν μ : Type*}

def names : FileOperation ν → List ν
  | write name _ => [name]
  | rename source destination => [source, destination]
  | delete name => [name]

def map (f : ν → μ) : FileOperation ν → FileOperation μ
  | write name data => write (f name) data
  | rename source destination => rename (f source) (f destination)
  | delete name => delete (f name)

@[simp] theorem names_map (f : ν → μ) (operation : FileOperation ν) :
    (operation.map f).names = operation.names.map f := by
  cases operation <;> rfl

end FileOperation

structure OpenFile (ν : Type*) where
  contents : ν → Option String
  opened : Option ν

namespace OpenFile

variable {ν : Type*} [DecidableEq ν]

/-- Open a file for writing, which truncates it. -/
def openFile (contents : ν → Option String) (name : ν) : OpenFile ν :=
  ⟨Function.update contents name (some ""), some name⟩

def apply (s : OpenFile ν) : FileOperation ν → OpenFile ν
  | .write name data => { s with contents := Function.update s.contents name (some data) }
  | .rename source destination =>
    match s.contents source with
    | none => s
    | some data =>
      if source = destination then s
      else
        { contents := Function.update (Function.update s.contents destination (some data)) source none
          opened := if s.opened = some source then some destination
            else if s.opened = some destination then none
            else s.opened }
  | .delete name =>
    { contents := Function.update s.contents name none
      opened := if s.opened = some name then none else s.opened }

/-- A text written from the start of a file; what reaches beyond it stays. -/
def overwrite (text before : String) : String := text ++ String.ofList (before.toList.drop text.length)

/-- The files after the text has been written to the open file. -/
def close (s : OpenFile ν) (text : String) : ν → Option String :=
  match s.opened with
  | none => s.contents
  | some name => Function.update s.contents name (some (overwrite text ((s.contents name).getD "")))

variable {s : OpenFile ν} {name : ν}

/-- The file is open under the name, with the contents. -/
def Holds (s : OpenFile ν) (name : ν) (data : String) : Prop := s.opened = some name ∧ s.contents name = some data

theorem holds_openFile (contents : ν → Option String) (name : ν) : (openFile contents name).Holds name "" :=
  ⟨rfl, Function.update_self ..⟩

/-- Operations on other names leave the open file alone. -/
theorem Holds.apply {data : String} (holds : s.Holds name data) {operation : FileOperation ν}
    (elsewhere : name ∉ operation.names) : (s.apply operation).Holds name data := by
  obtain ⟨opened, contents⟩ := holds
  cases operation with
  | write other text =>
    have differs : name ≠ other := fun same => elsewhere (List.mem_singleton.mpr same)
    exact ⟨opened, (Function.update_of_ne differs ..).trans contents⟩
  | rename source destination =>
    have notSource : name ≠ source := fun same => elsewhere (by simp [FileOperation.names, same])
    have notDestination : name ≠ destination := fun same => elsewhere (by simp [FileOperation.names, same])
    rw [OpenFile.apply]
    split
    · exact ⟨opened, contents⟩
    · split
      · exact ⟨opened, contents⟩
      · refine ⟨?_, ?_⟩
        · dsimp only
          rw [opened, if_neg (by simpa using notSource), if_neg (by simpa using notDestination)]
        · dsimp only
          rw [Function.update_of_ne notSource, Function.update_of_ne notDestination, contents]
  | delete other =>
    have differs : name ≠ other := fun same => elsewhere (List.mem_singleton.mpr same)
    refine ⟨?_, (Function.update_of_ne differs ..).trans contents⟩
    change (if s.opened = some other then none else s.opened) = some name
    rw [opened, if_neg (by simpa using differs)]

theorem Holds.foldl {data : String} (holds : s.Holds name data) {operations : List (FileOperation ν)}
    (elsewhere : ∀ operation ∈ operations, name ∉ operation.names) :
    (operations.foldl OpenFile.apply s).Holds name data := by
  induction operations generalizing s with
  | nil => exact holds
  | cons operation rest ih =>
    exact ih (holds.apply (elsewhere operation List.mem_cons_self)) fun other member =>
      elsewhere other (List.mem_cons_of_mem _ member)

theorem Holds.close {data : String} (holds : s.Holds name data) (text : String) :
    s.close text name = some (overwrite text data) := by
  rw [OpenFile.close, holds.1]
  dsimp only
  rw [Function.update_self, holds.2, Option.getD_some]

@[simp] theorem overwrite_empty (text : String) : overwrite text "" = text := by
  simp [overwrite]

end OpenFile

end Machine
