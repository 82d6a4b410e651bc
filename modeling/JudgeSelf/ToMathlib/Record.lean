import Mathlib.Data.List.Nodup
import Mathlib.Data.List.Perm.Subperm
import Mathlib.Algebra.BigOperators.Group.List.Basic

/-! # Insertion-ordered records

A record is a finite map that remembers the order in which its keys were first written, like a
JavaScript object with string keys. Writing an existing key replaces its value in place. The
distinctness of the keys is a field, so that a value is always the value of exactly one entry.
-/

/-- Looking a key up in a list of distinct keys finds the element of that key. -/
theorem List.find?_key_eq_some_iff {α κ : Type*} [DecidableEq κ] {f : α → κ} {l : List α}
    (distinct : (l.map f).Nodup) {k : κ} {a : α} : (l.find? fun b => f b = k) = some a ↔ a ∈ l ∧ f a = k := by
  constructor
  · intro found
    have same := List.find?_some found
    exact ⟨List.mem_of_find?_eq_some found, of_decide_eq_true same⟩
  · rintro ⟨member, rfl⟩
    have present : (l.find? fun b => f b = f a).isSome := List.find?_isSome.mpr ⟨a, member, decide_eq_true rfl⟩
    obtain ⟨b, found⟩ := Option.isSome_iff_exists.mp present
    have same := List.find?_some found
    rw [found, List.inj_on_of_nodup_map distinct (List.mem_of_find?_eq_some found) member (of_decide_eq_true same)]

/-- What is read after steps that each remove it or keep it is there unless one of them removed it. -/
theorem List.read_foldl_of_removes {σ ι α : Type*} {step : σ → ι → σ} (f : σ → Option α) (removes : ι → Prop)
    [DecidablePred removes] (each : ∀ c e, f (step c e) = if removes e then none else f c) (l : List ι) (c : σ) :
    f (l.foldl step c) = if ∃ e ∈ l, removes e then none else f c := by
  induction l generalizing c with
  | nil => simp
  | cons e l ih =>
    simp only [List.foldl_cons, ih, each, List.exists_mem_cons_iff]
    by_cases removed : removes e
    · simp only [removed, ↓reduceIte, ite_self, true_or]
    · simp only [removed, ↓reduceIte, false_or]

/-- A finite map whose entries keep the order of their first insertion. -/
structure Record (κ ν : Type*) where
  entries : List (κ × ν)
  nodup : (entries.map Prod.fst).Nodup

namespace Record

variable {κ ν μ : Type*}

instance [DecidableEq κ] [DecidableEq ν] : DecidableEq (Record κ ν) := fun r s =>
  decidable_of_iff (r.entries = s.entries) (by cases r; cases s; simp)

@[ext] theorem ext {r s : Record κ ν} (same : r.entries = s.entries) : r = s := by
  cases r; cases s; simpa using same

def empty : Record κ ν := ⟨[], List.nodup_nil⟩

def keys (r : Record κ ν) : List κ := r.entries.map Prod.fst

variable [DecidableEq κ]

def get? (r : Record κ ν) (k : κ) : Option ν := (r.entries.find? fun e => e.1 = k).map Prod.snd

@[simp] theorem get?_empty (k : κ) : (empty : Record κ ν).get? k = none := rfl

theorem get?_eq_some_iff {r : Record κ ν} {k : κ} {v : ν} : r.get? k = some v ↔ (k, v) ∈ r.entries := by
  simp only [get?, Option.map_eq_some_iff, List.find?_key_eq_some_iff r.nodup]
  constructor
  · rintro ⟨e, ⟨member, rfl⟩, rfl⟩
    exact member
  · intro member
    exact ⟨(k, v), ⟨member, rfl⟩, rfl⟩

theorem get?_eq_none_iff {r : Record κ ν} {k : κ} : r.get? k = none ↔ k ∉ r.keys := by
  simp only [get?, keys, Option.map_eq_none_iff, List.find?_eq_none, decide_eq_true_eq, List.mem_map,
    not_exists, not_and]

/-- Replace the entry of a key in place, or append a new one. -/
def setEntries (k : κ) (v : ν) : List (κ × ν) → List (κ × ν)
  | [] => [(k, v)]
  | e :: rest => if e.1 = k then (k, v) :: rest else e :: setEntries k v rest

theorem setEntries_keys (k : κ) (v : ν) (entries : List (κ × ν)) :
    (setEntries k v entries).map Prod.fst =
      if k ∈ entries.map Prod.fst then entries.map Prod.fst else entries.map Prod.fst ++ [k] := by
  induction entries with
  | nil => rfl
  | cons e rest ih =>
    by_cases same : e.1 = k
    · simp [setEntries, same]
    · simp only [setEntries, same, ↓reduceIte, List.map_cons, ih, List.mem_cons, Ne.symm same, false_or]
      split <;> rfl

def set (r : Record κ ν) (k : κ) (v : ν) : Record κ ν where
  entries := setEntries k v r.entries
  nodup := by
    rw [setEntries_keys]
    split
    · exact r.nodup
    · next fresh =>
      refine List.nodup_append.mpr ⟨r.nodup, List.nodup_singleton k, ?_⟩
      rintro a member b single rfl
      exact fresh (List.mem_singleton.mp single ▸ member)

theorem get?_set (r : Record κ ν) (k k' : κ) (v : ν) :
    (r.set k v).get? k' = if k' = k then some v else r.get? k' := by
  rcases r with ⟨entries, nodup⟩
  simp only [get?, set]
  clear nodup
  induction entries with
  | nil => by_cases same : k' = k <;> simp [setEntries, same, Ne.symm]
  | cons e rest ih =>
    by_cases replaced : e.1 = k
    · by_cases same : k' = k
      · simp [setEntries, replaced, same]
      · simp [setEntries, replaced, same, Ne.symm same]
    · by_cases found : e.1 = k'
      · have other : k' ≠ k := found ▸ replaced
        simp [setEntries, found, other]
      · simp [setEntries, replaced, found, ih]

@[simp] theorem get?_set_self (r : Record κ ν) (k : κ) (v : ν) : (r.set k v).get? k = some v := by
  rw [get?_set, if_pos rfl]

/-- A new key is written behind the present ones. -/
theorem keys_set_of_notMem {r : Record κ ν} {k : κ} (fresh : k ∉ r.keys) (v : ν) :
    (r.set k v).keys = r.keys ++ [k] := by
  rw [keys, keys, set, setEntries_keys]
  exact if_neg fresh

theorem setEntries_of_notMem {k : κ} {entries : List (κ × ν)} (fresh : k ∉ entries.map Prod.fst) (v : ν) :
    setEntries k v entries = entries ++ [(k, v)] := by
  induction entries with
  | nil => rfl
  | cons e rest ih =>
    rw [List.map_cons, List.mem_cons, not_or] at fresh
    rw [setEntries, if_neg (Ne.symm fresh.1), ih fresh.2, List.cons_append]

/-- The record that a list of entries leaves, each written over those before it. -/
def ofList (entries : List (κ × ν)) : Record κ ν := entries.foldl (fun r e => r.set e.1 e.2) empty

theorem entries_ofList {entries : List (κ × ν)} (distinct : (entries.map Prod.fst).Nodup) :
    (ofList entries).entries = entries := by
  suffices ∀ r : Record κ ν, (r.keys ++ entries.map Prod.fst).Nodup →
      (entries.foldl (fun r e => r.set e.1 e.2) r).entries = r.entries ++ entries by
    exact this empty distinct
  induction entries with
  | nil => exact fun r _ => (List.append_nil _).symm
  | cons e rest ih =>
    intro r apart
    have fresh : e.1 ∉ r.keys := by
      intro member
      exact (List.nodup_append.mp apart).2.2 e.1 member e.1 List.mem_cons_self rfl
    have next : ((r.set e.1 e.2).keys ++ rest.map Prod.fst).Nodup := by
      rwa [keys_set_of_notMem fresh, List.append_assoc]
    rw [List.foldl_cons, ih (List.nodup_cons.mp distinct).2 _ next]
    change setEntries e.1 e.2 r.entries ++ rest = _
    rw [setEntries_of_notMem fresh, List.append_assoc, List.singleton_append]

/-- Entries other than the one of `k`, the part that a write to `k` leaves alone. -/
def others (r : Record κ ν) (k : κ) : List (κ × ν) := r.entries.filter fun e => e.1 ≠ k

/-- The entry of a present key stands in front of the others, up to order. -/
theorem perm_cons_others {r : Record κ ν} {k : κ} {v : ν} (found : r.get? k = some v) :
    r.entries.Perm ((k, v) :: r.others k) := by
  refine (List.perm_ext_iff_of_nodup (r.nodup.of_map _) ?_).mpr ?_
  · refine List.nodup_cons.mpr ⟨by simp [others], (r.nodup.of_map _).filter _⟩
  · rintro ⟨k', v'⟩
    rw [List.mem_cons, others, List.mem_filter, ← get?_eq_some_iff]
    by_cases same : k' = k
    · subst same
      simp [found, eq_comm]
    · simp [same]

theorem others_of_absent {r : Record κ ν} {k : κ} (absent : r.get? k = none) : r.others k = r.entries := by
  apply List.filter_eq_self.mpr
  intro e member
  simp only [ne_eq, decide_not, Bool.not_eq_true', decide_eq_false_iff_not]
  rintro rfl
  exact get?_eq_none_iff.mp absent (List.mem_map_of_mem (f := Prod.fst) member)

theorem others_set (r : Record κ ν) (k : κ) (v : ν) : (r.set k v).others k = r.others k := by
  rcases r with ⟨entries, nodup⟩
  simp only [others, set, ne_eq, decide_not]
  clear nodup
  induction entries with
  | nil => simp [setEntries]
  | cons e rest ih =>
    by_cases replaced : e.1 = k
    · simp [setEntries, replaced]
    · simp [setEntries, replaced, ih]

/-- A write leaves all other entries in place; the written one stands in front, up to order. -/
theorem set_perm (r : Record κ ν) (k : κ) (v : ν) : (r.set k v).entries.Perm ((k, v) :: r.others k) := by
  rw [← others_set r k v]
  exact perm_cons_others (get?_set_self r k v)

/-- The record without the entry of `k`. -/
def erase (r : Record κ ν) (k : κ) : Record κ ν where
  entries := r.others k
  nodup := r.nodup.sublist (List.filter_sublist.map _)

theorem mem_entries_erase {r : Record κ ν} {k : κ} {e : κ × ν} :
    e ∈ (r.erase k).entries ↔ e ∈ r.entries ∧ e.1 ≠ k := by
  change e ∈ r.others k ↔ _
  rw [others, List.mem_filter, decide_eq_true_eq]

theorem get?_erase (r : Record κ ν) (k k' : κ) :
    (r.erase k).get? k' = if k' = k then none else r.get? k' := by
  ext v
  rw [get?_eq_some_iff, mem_entries_erase, ← get?_eq_some_iff]
  by_cases same : k' = k <;> simp [same]

/-- The record of the entries that satisfy `p`. -/
def filter (r : Record κ ν) (p : κ × ν → Bool) : Record κ ν where
  entries := r.entries.filter p
  nodup := r.nodup.sublist (List.filter_sublist.map _)

theorem get?_filter {r : Record κ ν} {p : κ × ν → Bool} {k : κ} {v : ν} :
    (r.filter p).get? k = some v ↔ r.get? k = some v ∧ p (k, v) := by
  rw [get?_eq_some_iff, get?_eq_some_iff]
  exact List.mem_filter

theorem mem_keys_iff {r : Record κ ν} {k : κ} : k ∈ r.keys ↔ ∃ v, r.get? k = some v := by
  rw [← not_iff_not, ← get?_eq_none_iff, Option.eq_none_iff_forall_ne_some, not_exists]

private theorem mem_projected {γ : Type*} (r : Record κ ν) (f : κ → ν → γ) (k : κ) (x : γ) :
    (k, x) ∈ r.entries.map (fun e => (e.1, f e.1 e.2)) ↔ (r.get? k).map (f k) = some x := by
  simp only [List.mem_map, Prod.mk.injEq, Option.map_eq_some_iff, get?_eq_some_iff]
  constructor
  · rintro ⟨⟨k', v⟩, present, rfl, rfl⟩
    exact ⟨v, present, rfl⟩
  · rintro ⟨v, present, rfl⟩
    exact ⟨(k, v), present, rfl, rfl⟩

omit [DecidableEq κ] in
private theorem nodup_projected {γ : Type*} (r : Record κ ν) (f : κ → ν → γ) :
    (r.entries.map fun e => (e.1, f e.1 e.2)).Nodup := by
  apply List.Nodup.of_map Prod.fst
  rw [List.map_map]
  exact r.nodup

/-- Records that agree key by key after a projection have the same projected entries, up to order. -/
theorem map_entries_perm {γ : Type*} {r : Record κ ν} {s : Record κ μ} (f : κ → ν → γ) (g : κ → μ → γ)
    (agree : ∀ k, (r.get? k).map (f k) = (s.get? k).map (g k)) :
    (r.entries.map fun e => f e.1 e.2).Perm (s.entries.map fun e => g e.1 e.2) := by
  have pairs : (r.entries.map fun e => (e.1, f e.1 e.2)).Perm (s.entries.map fun e => (e.1, g e.1 e.2)) := by
    apply (List.perm_ext_iff_of_nodup (nodup_projected r f) (nodup_projected s g)).mpr
    rintro ⟨k, x⟩
    rw [mem_projected, mem_projected, agree]
  simpa only [List.map_map, Function.comp_def] using pairs.map Prod.snd

end Record
