import Mathlib.Data.List.Sort

/-! # Stable sorting by a key, cut at a threshold

Mathlib's insertion sort is stable, but it has no lemma that displays the sorted list around a
given key. Cutting a sort at `t` leaves the smaller keys sorted, then every entry with key `t`
in its original order, then the larger keys sorted. A scan of the sorted list that stops inside
the middle part is thereby computed from the unsorted list alone.
-/

namespace List

variable {α β : Type*} [LinearOrder β]

/-- Sort by a key; entries with equal keys keep their order. -/
def sortByKey (key : α → β) (l : List α) : List α :=
  l.insertionSort fun a b => key a ≤ key b

theorem sortByKey_perm (key : α → β) (l : List α) : (l.sortByKey key).Perm l :=
  perm_insertionSort _ l

@[simp] theorem mem_sortByKey {key : α → β} {l : List α} {a : α} : a ∈ l.sortByKey key ↔ a ∈ l :=
  mem_insertionSort _

instance totalKey (key : α → β) : Std.Total fun a b => key a ≤ key b := ⟨fun a b => le_total (key a) (key b)⟩

instance transKey (key : α → β) : IsTrans α fun a b => key a ≤ key b := ⟨fun _ _ _ => le_trans⟩

theorem pairwise_sortByKey (key : α → β) (l : List α) :
    (l.sortByKey key).Pairwise fun a b => key a ≤ key b :=
  pairwise_insertionSort _ l

/-- A list in the order of its keys is sorted already. -/
theorem sortByKey_of_pairwise {key : α → β} {l : List α} (sorted : l.Pairwise fun a b => key a ≤ key b) :
    l.sortByKey key = l :=
  sorted.insertionSort_eq

private theorem orderedInsert_append_left {r : α → α → Prop} [DecidableRel r] {a : α}
    {front back : List α} (before : ∀ b ∈ back, r a b) :
    (front ++ back).orderedInsert r a = front.orderedInsert r a ++ back := by
  induction front with
  | nil =>
    cases back with
    | nil => rfl
    | cons b rest => simp [before b mem_cons_self]
  | cons b front ih =>
    simp only [cons_append, orderedInsert_cons, ih]
    split <;> rfl

private theorem orderedInsert_append_right {r : α → α → Prop} [DecidableRel r] {a : α}
    {front back : List α} (after : ∀ b ∈ front, ¬ r a b) :
    (front ++ back).orderedInsert r a = front ++ back.orderedInsert r a := by
  induction front with
  | nil => rfl
  | cons b front ih =>
    rw [cons_append, orderedInsert_cons, if_neg (after b mem_cons_self),
      ih fun c member => after c (mem_cons_of_mem _ member), cons_append]

private theorem orderedInsert_of_forall {r : α → α → Prop} [DecidableRel r] {a : α} {l : List α}
    (before : ∀ b ∈ l, r a b) : l.orderedInsert r a = a :: l := by
  simpa using @orderedInsert_append_left _ r _ _ [] l before

/-- A stable sort, cut at the key `t`: the middle part is the input's own subsequence. -/
theorem sortByKey_eq_append (key : α → β) (t : β) (l : List α) :
    l.sortByKey key =
      (l.filter fun a => key a < t).sortByKey key ++
        (l.filter (fun a => key a = t) ++ (l.filter fun a => t < key a).sortByKey key) := by
  induction l with
  | nil => rfl
  | cons a l ih =>
    have step : (a :: l).sortByKey key = (l.sortByKey key).orderedInsert (fun a b => key a ≤ key b) a := rfl
    rw [step, ih]
    rcases lt_trichotomy (key a) t with below | same | above
    · have rest : ∀ b ∈ (l.filter fun a => key a = t) ++ (l.filter fun a => t < key a).sortByKey key,
          key a ≤ key b := by
        intro b member
        simp only [mem_append, mem_sortByKey, mem_filter, decide_eq_true_eq] at member
        rcases member with ⟨_, same⟩ | ⟨_, above⟩
        · exact same ▸ below.le
        · exact (below.trans above).le
      rw [orderedInsert_append_left rest]
      simp [below, below.ne, below.not_gt, sortByKey]
    · have front : ∀ b ∈ (l.filter fun a => key a < t).sortByKey key, ¬ key a ≤ key b := by
        intro b member
        simp only [mem_sortByKey, mem_filter, decide_eq_true_eq] at member
        exact not_le.mpr (same ▸ member.2)
      have rest : ∀ b ∈ (l.filter fun a => key a = t) ++ (l.filter fun a => t < key a).sortByKey key,
          key a ≤ key b := by
        intro b member
        simp only [mem_append, mem_sortByKey, mem_filter, decide_eq_true_eq] at member
        rcases member with ⟨_, equal⟩ | ⟨_, above⟩
        · exact (same.trans equal.symm).le
        · exact (same ▸ above).le
      rw [orderedInsert_append_right front, orderedInsert_of_forall rest]
      simp [same]
    · have front : ∀ b ∈ (l.filter fun a => key a < t).sortByKey key ++ (l.filter fun a => key a = t),
          ¬ key a ≤ key b := by
        intro b member
        simp only [mem_append, mem_sortByKey, mem_filter, decide_eq_true_eq] at member
        rcases member with ⟨_, below⟩ | ⟨_, equal⟩
        · exact not_le.mpr (below.trans above)
        · exact not_le.mpr (equal ▸ above)
      rw [← append_assoc, orderedInsert_append_right front]
      simp [above, above.ne', above.not_gt, sortByKey]

end List
