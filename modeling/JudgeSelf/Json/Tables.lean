import JudgeSelf.Json.Printers
import JudgeSelf.ToMathlib.Record
import Mathlib.Data.List.Forall2

/-! # Tables of Lua

The tables of Lua as far as `cjson` makes them of JSON values: a table with strings for keys is an object, a sequence
an array, and the empty table is both. A table has no order, so that `cjson.encode` writes the members of an object in
any order; a number is written with 14 digits.
-/

namespace Json.Tree

variable {key : String} {v w : Tree} {members : List (String × Tree)}

/-- The value of a key; of members with the same key the last one counts. -/
def field? : Tree → String → Option Tree
  | .object members, key => (members.reverse.find? fun member => member.1 = key).map Prod.snd
  | _, _ => none

/-- The assignment `t[key] = v`. -/
def setField (t : Tree) (key : String) (v : Tree) : Option Tree :=
  match t with
  | .object members => some (.object (members.filter (fun member => member.1 ≠ key) ++ [(key, v)]))
  | _ => none

def elements? : Tree → Option (List Tree)
  | .array elements => some elements
  | .object [] => some []
  | _ => none

/-- `table.insert`. -/
def insert (t v : Tree) : Option Tree := t.elements?.map fun elements => .array (elements ++ [v])

theorem field?_eq_some_iff (distinct : (members.map Prod.fst).Nodup) :
    (object members).field? key = some v ↔ (key, v) ∈ members := by
  have reversed : (members.reverse.map Prod.fst).Nodup := by
    rwa [List.map_reverse, List.nodup_reverse]
  simp only [field?, Option.map_eq_some_iff, List.find?_key_eq_some_iff reversed, List.mem_reverse]
  constructor
  · rintro ⟨member, ⟨present, rfl⟩, rfl⟩
    exact present
  · intro present
    exact ⟨(key, v), ⟨present, rfl⟩, rfl⟩

theorem field?_eq_none_iff (distinct : (members.map Prod.fst).Nodup) :
    (object members).field? key = none ↔ key ∉ members.map Prod.fst := by
  rw [Option.eq_none_iff_forall_ne_some]
  constructor
  · intro absent present
    obtain ⟨⟨_, v⟩, member, rfl⟩ := List.mem_map.mp present
    exact absent v ((field?_eq_some_iff distinct).mpr member)
  · intro absent v found
    exact absent (List.mem_map_of_mem (f := Prod.fst) ((field?_eq_some_iff distinct).mp found))

/-- The assignment replaces the member of the key, and leaves the others. -/
theorem setField_of_perm {rest : List (String × Tree)} (perm : members.Perm ((key, v) :: rest))
    (distinct : (members.map Prod.fst).Nodup) :
    ∃ after, (object members).setField key w = some (object after) ∧ after.Perm ((key, w) :: rest) := by
  have others : ∀ member ∈ rest, decide (member.1 ≠ key) = true := by
    intro member present
    refine decide_eq_true fun same => ?_
    have keys := (perm.map Prod.fst).nodup_iff.mp distinct
    rw [List.map_cons, List.nodup_cons] at keys
    have listed := List.mem_map_of_mem (f := Prod.fst) present
    exact keys.1 (same ▸ listed)
  refine ⟨_, rfl, (List.perm_append_singleton _ _).trans (.cons _ ?_)⟩
  refine (perm.filter _).trans ?_
  rw [List.filter_cons_of_neg (by simp), List.filter_eq_self.mpr others]

/-- After the assignment the keys are distinct, and each has its value. -/
theorem setField_object (distinct : (members.map Prod.fst).Nodup) :
    ∃ after, (object members).setField key w = some (object after) ∧ (after.map Prod.fst).Nodup ∧
      ∀ other v, (other, v) ∈ after ↔ if other = key then v = w else (other, v) ∈ members := by
  refine ⟨_, rfl, ?_, fun other v => ?_⟩
  · rw [List.map_append, List.map_singleton, List.nodup_append]
    refine ⟨distinct.sublist (List.filter_sublist.map _), List.nodup_singleton _, ?_⟩
    rintro name present _ single rfl
    obtain ⟨member, kept, rfl⟩ := List.mem_map.mp present
    exact of_decide_eq_true (List.mem_filter.mp kept).2 (List.mem_singleton.mp single)
  · rw [List.mem_append, List.mem_filter, List.mem_singleton, Prod.mk.injEq, decide_eq_true_eq]
    by_cases same : other = key <;> simp [same]

mutual

/-- The value that is written for a table. A number that does not fit is written as some number. -/
inductive Encodes : Tree → Tree → Prop
  | null : Encodes .null .null
  | bool (b : Bool) : Encodes (.bool b) (.bool b)
  | string (s : String) : Encodes (.string s) (.string s)
  | integer {literal : Literal} {n : ℤ} (int : literal.int? = some n) (digits : n.natAbs < 10 ^ 14) :
    Encodes (.number literal) (.number (.ofInt n))
  | number {literal : Literal} (written : Literal) (large : ∀ n, literal.int? = some n → 10 ^ 14 ≤ n.natAbs) :
    Encodes (.number literal) (.number written)
  | empty : Encodes (.array []) (.object [])
  | array {v w : Tree} {vs ws : List Tree} (first : Encodes v w) (rest : EncodesAll vs ws) :
    Encodes (.array (v :: vs)) (.array (w :: ws))
  | object {members ordered written : List (String × Tree)} (order : members.Perm ordered)
      (values : EncodesMembers ordered written) :
    Encodes (.object members) (.object written)

inductive EncodesAll : List Tree → List Tree → Prop
  | nil : EncodesAll [] []
  | cons {v w : Tree} {vs ws : List Tree} (first : Encodes v w) (rest : EncodesAll vs ws) :
    EncodesAll (v :: vs) (w :: ws)

inductive EncodesMembers : List (String × Tree) → List (String × Tree) → Prop
  | nil : EncodesMembers [] []
  | cons {key : String} {v w : Tree} {ms ns : List (String × Tree)} (first : Encodes v w)
      (rest : EncodesMembers ms ns) : EncodesMembers ((key, v) :: ms) ((key, w) :: ns)

end

/-- What relates elements to values that may be written in their place. -/
theorem EncodesAll.forall₂ {α : Type} {R : α → Tree → Prop} (kept : ∀ a v w, R a v → Encodes v w → R a w) {as : List α}
    {vs ws : List Tree} (related : List.Forall₂ R as vs) (encodes : EncodesAll vs ws) : List.Forall₂ R as ws := by
  induction related generalizing ws with
  | nil =>
    cases encodes
    exact .nil
  | cons here _ ih =>
    cases encodes with
    | cons first rest => exact .cons (kept _ _ _ here first) (ih rest)

theorem EncodesMembers.keys {ms ns : List (String × Tree)} (encodes : EncodesMembers ms ns) :
    ns.map Prod.fst = ms.map Prod.fst := by
  induction ms generalizing ns with
  | nil =>
    cases encodes
    rfl
  | cons m ms ih =>
    cases encodes with
    | cons first rest => rw [List.map_cons, List.map_cons, ih rest]

theorem EncodesMembers.exists_of_mem {ms ns : List (String × Tree)} (encodes : EncodesMembers ms ns)
    (member : (key, w) ∈ ns) : ∃ v, (key, v) ∈ ms ∧ Encodes v w := by
  induction ms generalizing ns with
  | nil =>
    cases encodes
    exact absurd member List.not_mem_nil
  | cons m ms ih =>
    cases encodes with
    | cons first rest =>
      rcases List.mem_cons.mp member with here | later
      · obtain ⟨rfl, rfl⟩ := Prod.mk.inj here
        exact ⟨_, List.mem_cons_self, first⟩
      · obtain ⟨v, present, written⟩ := ih rest later
        exact ⟨v, List.mem_cons_of_mem _ present, written⟩

theorem EncodesMembers.of_perm {ms ordered ns : List (String × Tree)} (perm : ms.Perm ordered)
    (encodes : EncodesMembers ms ns) : ∃ written, ns.Perm written ∧ EncodesMembers ordered written := by
  induction perm generalizing ns with
  | nil => exact ⟨ns, List.Perm.refl _, encodes⟩
  | cons member _ ih =>
    cases encodes with
    | cons first rest =>
      obtain ⟨written, order, values⟩ := ih rest
      exact ⟨_, order.cons _, .cons first values⟩
  | swap x y ms =>
    cases encodes with
    | cons first rest =>
      cases rest with
      | cons second rest => exact ⟨_, List.Perm.swap _ _ _, .cons second (.cons first rest)⟩
  | trans _ _ ih ih' =>
    obtain ⟨middle, order, values⟩ := ih encodes
    obtain ⟨written, order', values'⟩ := ih' values
    exact ⟨written, order.trans order', values'⟩

/-- What is written for an object whose members are listed in some order. -/
theorem Encodes.of_listed {listed : List (String × Tree)} (encodes : Encodes (.object members) w)
    (perm : members.Perm listed) :
    ∃ written ns, w = .object written ∧ written.Perm ns ∧ EncodesMembers listed ns := by
  cases encodes with
  | object order values =>
    obtain ⟨ns, reordered, encoded⟩ := values.of_perm (order.symm.trans perm)
    exact ⟨_, ns, rfl, reordered, encoded⟩

/-- There is always something to write. -/
theorem exists_encodes (v : Tree) : ∃ w, Encodes v w := by
  induction v using Tree.ind with
  | null => exact ⟨_, .null⟩
  | bool b => exact ⟨_, .bool b⟩
  | string s => exact ⟨_, .string s⟩
  | number literal =>
    by_cases fits : ∃ n, literal.int? = some n ∧ n.natAbs < 10 ^ 14
    · obtain ⟨n, int, digits⟩ := fits
      exact ⟨_, .integer int digits⟩
    · exact ⟨_, .number literal fun n int => Nat.le_of_not_lt fun digits => fits ⟨n, int, digits⟩⟩
  | array elements ih =>
    have all : ∃ ws, EncodesAll elements ws := by
      induction elements with
      | nil => exact ⟨_, .nil⟩
      | cons v vs rest =>
        obtain ⟨here, others⟩ := List.forall_mem_cons.mp ih
        obtain ⟨w, first⟩ := here
        obtain ⟨ws, later⟩ := rest others
        exact ⟨_, .cons first later⟩
    obtain ⟨ws, encodes⟩ := all
    cases encodes with
    | nil => exact ⟨_, .empty⟩
    | cons first rest => exact ⟨_, .array first rest⟩
  | object members ih =>
    have all : ∃ ns, EncodesMembers members ns := by
      induction members with
      | nil => exact ⟨_, .nil⟩
      | cons m ms rest =>
        obtain ⟨here, others⟩ := List.forall_mem_cons.mp ih
        obtain ⟨w, first⟩ := here
        obtain ⟨ns, later⟩ := rest others
        exact ⟨_, .cons first later⟩
    obtain ⟨ns, encodes⟩ := all
    exact ⟨_, .object (List.Perm.refl _) encodes⟩

/-- A value that is written as it is. -/
def Fixed (v : Tree) : Prop := ∀ w, Encodes v w → w = v

theorem fixed_string (s : String) : Fixed (.string s) := by
  intro w encodes
  cases encodes
  rfl

theorem fixed_ofInt {n : ℤ} (digits : n.natAbs < 10 ^ 14) : Fixed (.number (.ofInt n)) := by
  intro w encodes
  cases encodes with
  | integer int _ =>
    rw [Literal.int?_ofInt] at int
    rw [Option.some.inj int]
  | number _ large => exact absurd (large n (Literal.int?_ofInt n)) (Nat.not_le_of_lt digits)

theorem EncodesAll.eq_of_fixed {vs ws : List Tree} (encodes : EncodesAll vs ws) (fixed : ∀ v ∈ vs, Fixed v) :
    ws = vs := by
  induction vs generalizing ws with
  | nil =>
    cases encodes
    rfl
  | cons v vs ih =>
    obtain ⟨here, others⟩ := List.forall_mem_cons.mp fixed
    cases encodes with
    | cons first rest => rw [here _ first, ih rest others]

theorem EncodesMembers.eq_of_fixed {ms ns : List (String × Tree)} (encodes : EncodesMembers ms ns)
    (fixed : ∀ member ∈ ms, Fixed member.2) : ns = ms := by
  induction ms generalizing ns with
  | nil =>
    cases encodes
    rfl
  | cons m ms ih =>
    obtain ⟨here, others⟩ := List.forall_mem_cons.mp fixed
    cases encodes with
    | cons first rest => rw [here _ first, ih rest others]

/-- A sequence of fixed values is written as it is. -/
theorem Encodes.elements?_eq {t : Tree} {elements : List Tree} (encodes : Encodes t w)
    (sequence : t.elements? = some elements) (fixed : ∀ v ∈ elements, Fixed v) : w.elements? = some elements := by
  cases encodes with
  | array first rest =>
    obtain rfl := Option.some.inj sequence
    exact congrArg some ((EncodesAll.cons first rest).eq_of_fixed fixed)
  | empty => exact sequence
  | @object members ordered written order values =>
    cases members with
    | nil =>
      obtain rfl := order.nil_eq
      cases values
      exact sequence
    | cons => contradiction
  | _ => contradiction

end Json.Tree
