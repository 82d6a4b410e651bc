import JudgeSelf.ToMathlib.Record
import JudgeSelf.ToMathlib.StableSort
import Mathlib.Data.Prod.Lex
import Mathlib.Data.List.Nodup

/-! # Sorted sets of scored members

A sorted set holds each member once, with a score, and lists its members by ascending score and,
among equal scores, by ascending member. Adding a present member replaces its score. Index ranges
follow the convention of Redis: a negative index counts from the end, bounds are clipped.
-/

/-- Members with scores, in ascending order of score, then member. -/
structure SortedSet (α β : Type*) [LinearOrder α] [LinearOrder β] where
  entries : List (α × β)
  nodup : (entries.map Prod.fst).Nodup
  sorted : entries.Pairwise fun a b => toLex (a.2, a.1) ≤ toLex (b.2, b.1)

/-- The elements with indices from `start` to `stop`, both included. -/
def List.indexRange {γ : Type*} (l : List γ) (start stop : ℤ) : List γ :=
  let first := if start < 0 then max (l.length + start) 0 else start
  let last := min (if stop < 0 then l.length + stop else stop) (l.length - 1)
  if last < first then [] else (l.drop first.toNat).take (last - first + 1).toNat

theorem List.indexRange_sublist {γ : Type*} (l : List γ) (start stop : ℤ) :
    (l.indexRange start stop).Sublist l := by
  simp only [indexRange]
  generalize (if start < 0 then max (l.length + start) 0 else start) = first
  generalize min (if stop < 0 then l.length + stop else stop) (l.length - 1) = last
  split
  · exact nil_sublist l
  · exact (take_sublist _ _).trans (drop_sublist _ _)

@[simp] theorem List.indexRange_nil {γ : Type*} (start stop : ℤ) :
    ([] : List γ).indexRange start stop = [] :=
  List.sublist_nil.mp (List.indexRange_sublist [] start stop)

/-- A range from the first index on holds the first element. -/
theorem List.indexRange_zero_cons {γ : Type*} (a : γ) (l : List γ) {stop : ℤ} (bound : 0 ≤ stop) :
    (a :: l).indexRange 0 stop ≠ [] := by
  have clipped : ¬ min stop ((l.length + 1 : ℕ) - 1 : ℤ) < 0 := by omega
  have count : (min stop ((l.length + 1 : ℕ) - 1 : ℤ) - 0 + 1).toNat =
      (min stop ((l.length + 1 : ℕ) - 1 : ℤ)).toNat + 1 := by omega
  simp only [indexRange, lt_self_iff_false, ↓reduceIte, not_lt.mpr bound, length_cons, clipped, count,
    Int.toNat_zero, drop_zero, take_succ_cons, ne_eq, reduceCtorEq, not_false_eq_true]

namespace SortedSet

variable {α β : Type*} [LinearOrder α] [LinearOrder β]

def empty : SortedSet α β := ⟨[], List.nodup_nil, List.Pairwise.nil⟩

def score? (z : SortedSet α β) (member : α) : Option β :=
  (z.entries.find? fun e => e.1 = member).map Prod.snd

def card (z : SortedSet α β) : ℕ := z.entries.length

/-- Add a member or change its score. -/
def add (z : SortedSet α β) (member : α) (score : β) : SortedSet α β where
  entries := (z.entries.filter fun e => e.1 ≠ member).orderedInsert
    (fun a b => toLex (a.2, a.1) ≤ toLex (b.2, b.1)) (member, score)
  nodup := by
    have perm := (List.perm_orderedInsert (fun a b => toLex (a.2, a.1) ≤ toLex (b.2, b.1))
      (member, score) (z.entries.filter fun e => e.1 ≠ member)).map Prod.fst
    refine perm.nodup_iff.mpr (List.nodup_cons.mpr ⟨by simp, ?_⟩)
    exact z.nodup.sublist (List.filter_sublist.map _)
  sorted := by
    have : Std.Total fun a b : α × β => toLex (a.2, a.1) ≤ toLex (b.2, b.1) := ⟨fun _ _ => le_total _ _⟩
    have : IsTrans (α × β) fun a b => toLex (a.2, a.1) ≤ toLex (b.2, b.1) := ⟨fun _ _ _ => le_trans⟩
    exact (z.sorted.sublist List.filter_sublist).orderedInsert _ _

@[simp] theorem score?_empty (member : α) : (empty : SortedSet α β).score? member = none := rfl

theorem score?_eq_some_iff {z : SortedSet α β} {member : α} {score : β} :
    z.score? member = some score ↔ (member, score) ∈ z.entries := by
  simp only [score?, Option.map_eq_some_iff, List.find?_key_eq_some_iff z.nodup]
  constructor
  · rintro ⟨e, ⟨present, rfl⟩, rfl⟩
    exact present
  · intro present
    exact ⟨(member, score), ⟨present, rfl⟩, rfl⟩

theorem mem_entries_add {z : SortedSet α β} {member : α} {score : β} {e : α × β} :
    e ∈ (z.add member score).entries ↔ e = (member, score) ∨ e ∈ z.entries ∧ e.1 ≠ member := by
  simp [add, List.mem_orderedInsert]

theorem score?_add (z : SortedSet α β) (member other : α) (score : β) :
    (z.add member score).score? other = if other = member then some score else z.score? other := by
  ext x
  rw [score?_eq_some_iff, mem_entries_add]
  by_cases same : other = member
  · subst same
    simp [eq_comm]
  · simp [same, score?_eq_some_iff]

/-- A sorted set is determined by its members and their scores. -/
theorem ext_of_mem {z z' : SortedSet α β} (same : ∀ e, e ∈ z.entries ↔ e ∈ z'.entries) : z = z' := by
  have distinct : ∀ w : SortedSet α β, w.entries.Nodup := fun w => w.nodup.of_map
  have perm : z.entries.Perm z'.entries := (List.perm_ext_iff_of_nodup (distinct z) (distinct z')).mpr same
  have equal : z.entries = z'.entries := by
    refine perm.eq_of_pairwise (fun a b _ _ ab ba => ?_) z.sorted z'.sorted
    have keys := toLex_inj.mp (le_antisymm ab ba)
    exact Prod.ext (congrArg Prod.snd keys) (congrArg Prod.fst keys)
  cases z
  cases z'
  simpa using equal

/-- Scores of different members are set in any order. -/
theorem add_comm_of_ne (z : SortedSet α β) {member other : α} (different : member ≠ other) (score score' : β) :
    (z.add member score).add other score' = (z.add other score').add member score := by
  apply ext_of_mem
  intro e
  simp only [mem_entries_add]
  constructor
  · rintro (rfl | ⟨rfl | ⟨old, first⟩, second⟩)
    · exact .inr ⟨.inl rfl, different.symm⟩
    · exact .inl rfl
    · exact .inr ⟨.inr ⟨old, second⟩, first⟩
  · rintro (rfl | ⟨rfl | ⟨old, first⟩, second⟩)
    · exact .inr ⟨.inl rfl, different⟩
    · exact .inl rfl
    · exact .inr ⟨.inr ⟨old, second⟩, first⟩

theorem entries_add_ne_nil (z : SortedSet α β) (member : α) (score : β) :
    (z.add member score).entries ≠ [] :=
  List.ne_nil_of_mem (mem_entries_add.mpr (.inl rfl))

theorem card_eq_zero_iff {z : SortedSet α β} : z.card = 0 ↔ z.entries = [] := List.length_eq_zero_iff

/-- The members from index `start` to `stop` in descending order. -/
def revRange (z : SortedSet α β) (start stop : ℤ) : List (α × β) := z.entries.reverse.indexRange start stop

/-- The index of a member in descending order. -/
def revRank (z : SortedSet α β) (member : α) : Option ℕ :=
  z.entries.reverse.findIdx? fun e => e.1 = member

/-- A member stands at one index only. -/
theorem revRank_eq_some_iff {z : SortedSet α β} {member : α} {i : ℕ} :
    z.revRank member = some i ↔ (z.entries.reverse.map Prod.fst)[i]? = some member := by
  have distinct : (z.entries.reverse.map Prod.fst).Nodup := by
    rw [List.map_reverse, List.nodup_reverse]
    exact z.nodup
  rw [revRank, List.findIdx?_eq_some_iff_getElem, List.getElem?_eq_some_iff]
  simp only [decide_eq_true_eq, List.length_map, List.getElem_map]
  refine exists_congr fun bound => and_iff_left_of_imp fun same j earlier other => ?_
  have inside : i < (z.entries.reverse.map Prod.fst).length := (List.length_map Prod.fst).symm ▸ bound
  have before : j < (z.entries.reverse.map Prod.fst).length := earlier.trans inside
  have equal : (z.entries.reverse.map Prod.fst)[j] = (z.entries.reverse.map Prod.fst)[i] := by
    rw [List.getElem_map, List.getElem_map, same, other]
  exact absurd ((distinct.getElem_inj_iff).mp equal) earlier.ne

/-- Descending order lists scores from the largest to the smallest. -/
theorem pairwise_reverse (z : SortedSet α β) : z.entries.reverse.Pairwise fun a b => b.2 ≤ a.2 := by
  rw [List.pairwise_reverse]
  exact z.sorted.imp fun {a b} ordered => Prod.Lex.monotone_fst _ _ ordered

example : ((empty.add 2 (3 : ℤ)).add 1 3).revRange 0 (-1) = [(2, 3), (1, 3)] := by decide

end SortedSet
