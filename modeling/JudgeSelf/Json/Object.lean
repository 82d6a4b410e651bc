import JudgeSelf.ToMathlib.Record

/-! # Flat JSON objects and their readers

An object in a text is the list of its members, in the order of the text; the values here are scalars,
and numbers are integers. `encoding/json` stores members into the fields of a struct. `JSON.parse` builds
an object, and shows each of its members to a reviver that may write to the object meanwhile.
-/

namespace Json

inductive Scalar
  | null
  | bool (value : Bool)
  | number (value : ℤ)
  | string (value : String)
deriving DecidableEq, Repr

abbrev Text := List (String × Scalar)

inductive Kind
  | string
  | int64
deriving DecidableEq, Repr

structure Field where
  name : String
  kind : Kind
deriving DecidableEq, Repr

/-- Simple folding, as far as it takes a character to an ASCII letter. -/
def foldChar (c : Char) : Char :=
  if c = 'ſ' then 's' else if c = '\u212a' then 'k' else c.toLower

def foldName (name : String) : String := String.ofList (name.toList.map foldChar)

/-- The field that a key addresses: the one of this name, or the first one up to case. -/
def resolve (fields : List Field) (key : String) : Option Field :=
  (fields.find? fun field => field.name = key) <|> fields.find? fun field => foldName field.name = foldName key

/-- What a value writes into a field; `null` writes nothing, and a value of another kind is an error. -/
def Kind.decode : Kind → Scalar → Option (Option Scalar)
  | _, .null => some none
  | .string, .string s => some (some (.string s))
  | .int64, .number n => if -2 ^ 63 ≤ n ∧ n < 2 ^ 63 then some (some (.number n)) else none
  | _, _ => none

/-- The fields that have been written. -/
abbrev Values := String → Option Scalar

def store (fields : List Field) (values : Values) (member : String × Scalar) : Option Values :=
  match resolve fields member.1 with
  | none => some values
  | some field =>
    (field.kind.decode member.2).map fun read =>
      read.elim values fun value => Function.update values field.name (some value)

def unmarshal (fields : List Field) (members : Text) : Option Values := members.foldlM (store fields) fun _ => none

/-- A string field; one that was not written is empty. -/
def Values.string (values : Values) (name : String) : String :=
  match values name with
  | some (.string s) => s
  | _ => ""

def Values.int64 (values : Values) (name : String) : ℤ :=
  match values name with
  | some (.number n) => n
  | _ => 0

theorem store_of_resolve {fields : List Field} {key : String} {field : Field} (found : resolve fields key = some field)
    {value read : Scalar} (decoded : field.kind.decode value = some (some read)) (values : Values) :
    store fields values (key, value) = some (Function.update values field.name (some read)) := by
  rw [store, found]
  dsimp only
  rw [decoded]
  rfl

theorem store_of_unknown {fields : List Field} {key : String} (unknown : resolve fields key = none) (value : Scalar)
    (values : Values) : store fields values (key, value) = some values := by
  rw [store, unknown]

/-- Members that address different fields may come in either order. -/
theorem store_comm {fields : List Field} {x y : String × Scalar}
    (apart : ∀ field ∈ resolve fields x.1, ∀ other ∈ resolve fields y.1, field.name ≠ other.name) (values : Values) :
    (store fields values x).bind (store fields · y) = (store fields values y).bind (store fields · x) := by
  cases first : resolve fields x.1 with
  | none =>
    have skips (values : Values) : store fields values x = some values := store_of_unknown first x.2 values
    simp only [skips, Option.bind_some, Option.bind_fun_some]
  | some field =>
    cases second : resolve fields y.1 with
    | none =>
      have skips (values : Values) : store fields values y = some values := store_of_unknown second y.2 values
      simp only [skips, Option.bind_some, Option.bind_fun_some]
    | some other =>
      have different : field.name ≠ other.name := apart field first other second
      have storeX (values : Values) : store fields values x = (field.kind.decode x.2).map fun read =>
          read.elim values fun value => Function.update values field.name (some value) := by rw [store, first]
      have storeY (values : Values) : store fields values y = (other.kind.decode y.2).map fun read =>
          read.elim values fun value => Function.update values other.name (some value) := by rw [store, second]
      simp only [storeX, storeY]
      rcases field.kind.decode x.2 with _ | _ | a <;> rcases other.kind.decode y.2 with _ | _ | b <;>
        simp [Function.update_comm different]

/-- The fields that the keys of a text address. -/
def addressed (fields : List Field) (members : Text) : List String :=
  members.filterMap fun member => (resolve fields member.1).map Field.name

/-- A text whose keys address different fields is read the same in any order. -/
theorem unmarshal_perm {fields : List Field} {members others : Text} (perm : members.Perm others)
    (distinct : (addressed fields members).Nodup) : unmarshal fields members = unmarshal fields others := by
  suffices ∀ values : Values, members.foldlM (store fields) values = others.foldlM (store fields) values from this _
  induction perm with
  | nil => exact fun _ => rfl
  | cons member perm ih =>
    intro values
    rw [List.foldlM_cons, List.foldlM_cons]
    have tail : (addressed fields _).Nodup := distinct.sublist ((List.sublist_cons_self _ _).filterMap _)
    exact congrArg _ (funext (ih tail))
  | swap x y rest =>
    intro values
    have apart : ∀ field ∈ resolve fields y.1, ∀ other ∈ resolve fields x.1, field.name ≠ other.name := by
      intro field first other second same
      have first : resolve fields y.1 = some field := first
      have second : resolve fields x.1 = some other := second
      rw [addressed, List.filterMap_cons, List.filterMap_cons] at distinct
      simp [first, second, same] at distinct
    simp only [List.foldlM_cons, Option.bind_eq_bind, ← Option.bind_assoc]
    rw [store_comm apart]
  | trans perm _ ih ih' =>
    intro values
    exact (ih distinct values).trans (ih' ((perm.filterMap _).nodup_iff.mp distinct) values)

/-- `JSON.parse` without a reviver; `double` is the number that a literal is read as. -/
def parse (double : ℤ → ℤ) (members : Text) : Record String (Option Scalar) :=
  Record.ofList (members.map fun member =>
    match member.2 with
    | .number n => (member.1, some (.number (double n)))
    | value => (member.1, some value))

/-- The members of a text with distinct keys and exact numbers. -/
theorem entries_parse {double : ℤ → ℤ} {members : Text} (distinct : (members.map Prod.fst).Nodup)
    (exact : ∀ member ∈ members, ∀ n, member.2 = .number n → double n = n) :
    (parse double members).entries = members.map fun member => (member.1, some member.2) := by
  have same : (members.map fun member : String × Scalar =>
      match member.2 with
      | .number n => (member.1, some (.number (double n)))
      | value => (member.1, some value)) = members.map fun member => (member.1, some member.2) := by
    refine List.map_congr_left fun member present => ?_
    rcases member with ⟨key, _ | _ | n | _⟩
    · rfl
    · rfl
    · exact congrArg (fun n => (key, some (Scalar.number n))) (exact _ present n rfl)
    · rfl
  rw [parse, same, Record.entries_ofList]
  rwa [List.map_map]

section Revive

variable {α : Type}

/-- A function of `this`, a key and its value that returns a value and may write to `this`. `none` is `undefined`. -/
abbrev Reviver (α : Type) :=
  Record String (Option α) → String → Option α → Record String (Option α) × Option α

/-- The reviver sees the value that the member has now; a member for which it returns `undefined` is deleted. -/
def internalizeProperty (reviver : Reviver α) (holder : Record String (Option α)) (key : String) :
    Record String (Option α) :=
  let (holder, newElement) := reviver holder key ((holder.get? key).getD none)
  match newElement with
  | none => holder.erase key
  | some value => holder.set key (some value)

/-- The keys are listed before the reviver is called. -/
def internalize (reviver : Reviver α) (object : Record String (Option α)) : Record String (Option α) :=
  object.keys.foldl (internalizeProperty reviver) object

/-- `JSON.parse` with a reviver, for the text of an object: the object itself is shown last, as a member of its own
holder. -/
def parseWith (reviver : ∀ {β : Type}, Reviver β) (double : ℤ → ℤ) (members : Text) :
    Option (Record String (Option Scalar)) :=
  let object := internalize reviver (parse double members)
  (reviver (Record.ofList [("", some object)]) "" (some object)).2

/-- A reviver that keeps members under their name, or moves them to another one. -/
structure Reviver.Renames (reviver : Reviver α) (name : String → String) : Prop where
  keeps : ∀ this key value, name key = key → reviver this key value = (this, value)
  moves : ∀ this key value, name key ≠ key → reviver this key value = (this.set (name key) value, none)

variable {reviver : Reviver α} {name : String → String}

/-- One call, with the members that were visited before and those that are left. -/
theorem Reviver.Renames.internalizeProperty (renames : reviver.Renames name) {holder : Record String (Option α)}
    {visited rest : List (String × Option α)} {key : String} {value : α}
    (members : holder.entries.Perm (visited ++ (key, some value) :: rest))
    (fresh : name key ≠ key → name key ∉ holder.keys) :
    (Json.internalizeProperty reviver holder key).entries.Perm
      ((visited ++ [(name key, some value)]) ++ rest) := by
  have found : holder.get? key = some (some value) := by
    rw [Record.get?_eq_some_iff, members.mem_iff]
    exact List.mem_append_right _ List.mem_cons_self
  have others : (holder.others key).Perm (visited ++ rest) := by
    refine List.Perm.cons_inv (a := (key, some value)) ?_
    exact (Record.perm_cons_others found).symm.trans (members.trans List.perm_middle)
  rw [Json.internalizeProperty, found, Option.getD_some]
  by_cases same : name key = key
  · rw [renames.keeps _ _ _ same, same, List.append_assoc, List.singleton_append]
    exact (Record.set_perm _ _ _).trans ((others.cons _).trans List.perm_middle.symm)
  · rw [renames.moves _ _ _ same]
    change ((holder.set (name key) (some value)).others key).Perm _
    have appended : (holder.set (name key) (some value)).entries = holder.entries ++ [(name key, some value)] :=
      Record.setEntries_of_notMem (fresh same) _
    have behind : (holder.set (name key) (some value)).others key =
        holder.others key ++ [(name key, some value)] := by
      rw [Record.others, appended, List.filter_append, ← Record.others]
      congr 1
      exact List.filter_eq_self.mpr fun e member => by
        rw [List.mem_singleton.mp member]
        exact decide_eq_true same
    rw [behind]
    exact (others.append_right _).trans (by
      rw [List.append_assoc, List.append_assoc]
      exact List.perm_append_comm.append_left _)

/-- Renaming keeps every member once, under its new name, in whatever order the members come. -/
theorem Reviver.Renames.internalize_perm (renames : reviver.Renames name) {object : Record String (Option α)}
    (defined : ∀ e ∈ object.entries, e.2 ≠ none) (distinct : (object.keys.map name).Nodup)
    (fresh : ∀ key ∈ object.keys, name key ≠ key → name key ∉ object.keys) :
    (internalize reviver object).entries.Perm (object.entries.map fun e => (name e.1, e.2)) := by
  suffices ∀ (rest visited : List (String × Option α)) (holder : Record String (Option α)),
      holder.entries.Perm (visited ++ rest) → (∀ e ∈ rest, e.2 ≠ none) →
      (visited.map Prod.fst ++ rest.map fun e => name e.1).Nodup →
      (∀ e ∈ rest, name e.1 ≠ e.1 → name e.1 ∉ rest.map Prod.fst) →
      ((rest.map Prod.fst).foldl (Json.internalizeProperty reviver) holder).entries.Perm
        (visited ++ rest.map fun e => (name e.1, e.2)) by
    refine this object.entries [] object (List.Perm.refl _) defined ?_ fun e member => ?_
    · rwa [Record.keys, List.map_map] at distinct
    · exact fresh e.1 (List.mem_map_of_mem member)
  intro rest
  induction rest with
  | nil => exact fun visited holder members _ _ _ => members
  | cons e rest ih =>
    intro visited holder members defined distinct fresh
    obtain ⟨key, _ | value⟩ := e
    · exact absurd rfl (defined _ List.mem_cons_self)
    have moved : name key ≠ key → name key ∉ holder.keys := by
      intro other present
      rcases List.mem_append.mp (List.map_append ▸ (members.map Prod.fst).mem_iff.mp present) with before | after
      · exact (List.nodup_append.mp distinct).2.2 _ before _ List.mem_cons_self rfl
      · exact fresh _ List.mem_cons_self other after
    have step := renames.internalizeProperty members moved
    have tail := ih (visited ++ [(name key, some value)]) _ step
      (fun e member => defined e (List.mem_cons_of_mem _ member))
      (by rwa [List.map_append, List.append_assoc])
      (fun e member other present => fresh e (List.mem_cons_of_mem _ member) other (List.mem_cons_of_mem _ present))
    rwa [List.append_assoc] at tail

/-- The last call leaves the object alone if the reviver does not rename the empty key. -/
theorem parseWith_of_renames {reviver : ∀ {β : Type}, Reviver β} {double : ℤ → ℤ} {members : Text}
    (renames : (reviver : Reviver (Record String (Option Scalar))).Renames name) (root : name "" = "") :
    parseWith reviver double members = some (internalize reviver (parse double members)) := by
  rw [parseWith, renames.keeps _ _ _ root]

end Revive

end Json
