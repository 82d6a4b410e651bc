import JudgeSelf.ToMathlib.StableSort
import Mathlib.Order.MinMax

/-! # ICPC scoring of one problem

An attempt has a time and may be accepted, rejected, or neither (not counted at all). A problem
counts from the earliest accepted attempt; every rejected attempt ahead of it adds a fixed toll.
"Ahead" means an earlier time, or the same time and an earlier place in the list. The definitions
read the attempts in the order in which they were recorded; `find?_sortByKey` and
`countP_takeWhile_sortByKey` say that reading the attempts in chronological order up to the first
acceptance gives the same two numbers.
-/

namespace Icpc

/-- Core's lemmas on `List.min?` ask for a lawful minimum, which Mathlib's linear orders provide. -/
instance lawfulOrderMin {β : Type*} [LinearOrder β] : Std.LawfulOrderMin β where
  min_eq_or := min_choice
  le_min_iff _ _ _ := le_min_iff

variable {α β : Type*} [LinearOrder β] (accepted rejected : α → Bool) (time : α → β)

/-- The time of the earliest accepted attempt. -/
def acceptedAt (attempts : List α) : Option β := ((attempts.filter accepted).map time).min?

/-- Rejected attempts ahead of the first acceptance, which has time `t`. -/
def rejectedBefore (t : β) (attempts : List α) : ℕ :=
  attempts.countP (fun a => rejected a && decide (time a < t)) +
    ((attempts.filter fun a => time a = t).takeWhile fun a => !accepted a).countP rejected

variable {accepted rejected time} {attempts : List α} {t : β}

theorem acceptedAt_eq_some_iff : acceptedAt accepted time attempts = some t ↔
    (∃ a ∈ attempts, accepted a ∧ time a = t) ∧ ∀ a ∈ attempts, accepted a → t ≤ time a := by
  simp only [acceptedAt, List.min?_eq_some_iff, List.mem_map, List.mem_filter, and_assoc]
  refine and_congr_right fun _ => ⟨fun least a member holds => least _ ⟨a, member, holds, rfl⟩, ?_⟩
  rintro least _ ⟨a, member, holds, rfl⟩
  exact least a member holds

theorem acceptedAt_eq_none_iff :
    acceptedAt accepted time attempts = none ↔ ∀ a ∈ attempts, accepted a = false := by
  simp [acceptedAt, List.min?_eq_none_iff, List.filter_eq_nil_iff]

theorem acceptedAt_perm {other : List α} (perm : attempts.Perm other) :
    acceptedAt accepted time attempts = acceptedAt accepted time other := by
  ext t
  simp only [acceptedAt_eq_some_iff, perm.mem_iff]

/-- Nothing before the first acceptance is accepted. -/
theorem not_accepted_of_lt (first : acceptedAt accepted time attempts = some t) {a : α}
    (member : a ∈ attempts) (earlier : time a < t) : accepted a = false := by
  by_contra holds
  exact absurd ((acceptedAt_eq_some_iff.mp first).2 a member (by simpa using holds)) (not_le.mpr earlier)

/-- Among the attempts at the time of the first acceptance there is an accepted one. -/
theorem exists_accepted_at (first : acceptedAt accepted time attempts = some t) :
    ∃ a ∈ attempts.filter fun a => time a = t, accepted a := by
  obtain ⟨⟨a, member, holds, at_⟩, _⟩ := acceptedAt_eq_some_iff.mp first
  exact ⟨a, List.mem_filter.mpr ⟨member, decide_eq_true at_⟩, holds⟩

private theorem takeWhile_append_of_exists {p : α → Bool} {front back : List α}
    (stop : ∃ a ∈ front, p a = false) : (front ++ back).takeWhile p = front.takeWhile p := by
  induction front with
  | nil => obtain ⟨_, member, _⟩ := stop; cases member
  | cons b front ih =>
    rw [List.cons_append, List.takeWhile_cons, List.takeWhile_cons]
    cases holds : p b with
    | false => rfl
    | true =>
      obtain ⟨a, member, fails⟩ := stop
      rcases List.mem_cons.mp member with rfl | member
      · rw [holds] at fails; contradiction
      · simp only [ih ⟨a, member, fails⟩]

/-- The chronological reading stops inside the attempts at the time of the first acceptance. -/
theorem takeWhile_sortByKey (first : acceptedAt accepted time attempts = some t) :
    (attempts.sortByKey time).takeWhile (fun a => !accepted a) =
      (attempts.filter fun a => time a < t).sortByKey time ++
        (attempts.filter fun a => time a = t).takeWhile fun a => !accepted a := by
  have earlier : ∀ a ∈ (attempts.filter fun a => time a < t).sortByKey time, (!accepted a) = true := by
    intro a member
    simp only [List.mem_sortByKey, List.mem_filter, decide_eq_true_eq] at member
    rw [not_accepted_of_lt first member.1 member.2, Bool.not_false]
  obtain ⟨a, member, holds⟩ := exists_accepted_at first
  rw [List.sortByKey_eq_append time t attempts, List.takeWhile_append_of_pos earlier,
    takeWhile_append_of_exists ⟨a, member, by rw [holds, Bool.not_true]⟩]

/-- Counting rejected attempts up to the first acceptance in chronological order. -/
theorem countP_takeWhile_sortByKey (first : acceptedAt accepted time attempts = some t) :
    ((attempts.sortByKey time).takeWhile fun a => !accepted a).countP rejected =
      rejectedBefore accepted rejected time t attempts := by
  rw [takeWhile_sortByKey first, List.countP_append, (List.sortByKey_perm _ _).countP_eq,
    List.countP_filter, rejectedBefore]

/-- The first acceptance met in chronological order has the least accepted time. -/
theorem find?_sortByKey : ((attempts.sortByKey time).find? accepted).map time =
    acceptedAt accepted time attempts := by
  rcases first : acceptedAt accepted time attempts with _ | t
  · rw [acceptedAt_eq_none_iff] at first
    simpa [List.find?_eq_none] using first
  · obtain ⟨a, member, holds⟩ := exists_accepted_at first
    have found : ((attempts.sortByKey time).find? accepted).isSome := by
      rw [List.find?_isSome]
      exact ⟨a, by simpa using (List.mem_filter.mp member).1, holds⟩
    obtain ⟨b, found⟩ := Option.isSome_iff_exists.mp found
    obtain ⟨accepted_b, front, back, split, earlier⟩ := List.find?_eq_some_iff_append.mp found
    have sorted := List.pairwise_sortByKey time attempts
    have least : ∀ c ∈ attempts, accepted c → time b ≤ time c := by
      intro c present holds
      have inSorted : c ∈ front ++ b :: back := split ▸ List.mem_sortByKey.mpr present
      rw [split] at sorted
      rcases List.mem_append.mp inSorted with inFront | inBack
      · simpa [holds] using earlier c inFront
      · rcases List.mem_cons.mp inBack with rfl | later
        · exact le_rfl
        · exact (List.pairwise_cons.mp (List.pairwise_append.mp sorted).2.1).1 c later
    have here : b ∈ attempts := List.mem_sortByKey.mp (List.mem_of_find?_eq_some found)
    rw [found, Option.map_some, ← first]
    exact (acceptedAt_eq_some_iff.mpr ⟨⟨b, here, accepted_b, rfl⟩, least⟩).symm

/-- With no rejected attempt at the time of the acceptance, only earlier times count. -/
theorem rejectedBefore_of_clear (clear : ∀ a ∈ attempts, time a = t → rejected a = false) :
    rejectedBefore accepted rejected time t attempts =
      attempts.countP fun a => rejected a && decide (time a < t) := by
  have none : ((attempts.filter fun a => time a = t).takeWhile fun a => !accepted a).countP rejected = 0 := by
    rw [List.countP_eq_zero]
    intro a member
    have within := (List.takeWhile_sublist _).subset member
    rw [List.mem_filter, decide_eq_true_eq] at within
    simp [clear a within.1 within.2]
  rw [rejectedBefore, none, Nat.add_zero]

/-- An attempt appended at the time of an acceptance in the list is not counted. -/
theorem rejectedBefore_concat {a : α} (same : time a = t)
    (present : ∃ b ∈ attempts, time b = t ∧ accepted b) :
    rejectedBefore accepted rejected time t (attempts ++ [a]) =
      rejectedBefore accepted rejected time t attempts := by
  obtain ⟨b, member, at_, holds⟩ := present
  have stop : ∃ b ∈ attempts.filter fun b => time b = t, (!accepted b) = false :=
    ⟨b, List.mem_filter.mpr ⟨member, decide_eq_true at_⟩, by rw [holds, Bool.not_true]⟩
  rw [rejectedBefore, rejectedBefore, List.filter_append, takeWhile_append_of_exists stop]
  simp [same]

/-- A rejected attempt inserted ahead of the first acceptance is counted once. -/
theorem rejectedBefore_insert {front back : List α} {a : α} (holds : rejected a)
    (unaccepted : accepted a = false)
    (ahead : time a < t ∨ time a = t ∧ ∀ b ∈ front, time b = t → accepted b = false) :
    rejectedBefore accepted rejected time t (front ++ a :: back) =
      rejectedBefore accepted rejected time t (front ++ back) + 1 := by
  rcases ahead with earlier | ⟨same, clear⟩
  · simp only [rejectedBefore, List.countP_append, List.countP_cons, List.filter_append,
      List.filter_cons, holds, earlier, earlier.ne, decide_true, decide_false, Bool.and_self, ↓reduceIte,
      Bool.false_eq_true]
    omega
  · have passes : ∀ b ∈ front.filter fun b => time b = t, (!accepted b) = true := by
      intro b member
      rw [List.mem_filter, decide_eq_true_eq] at member
      rw [clear b member.1 member.2, Bool.not_false]
    simp only [rejectedBefore, List.filter_append, List.filter_cons, same, decide_true, ↓reduceIte,
      List.takeWhile_append_of_pos passes, List.takeWhile_cons, unaccepted, Bool.not_false,
      List.countP_append, List.countP_cons, holds, lt_self_iff_false, decide_false, Bool.and_false,
      Bool.false_eq_true, Nat.add_zero]
    omega

/-- An attempt that is neither accepted nor rejected is not counted. -/
theorem rejectedBefore_insert_of_neither {front back : List α} {a : α} (unrejected : rejected a = false)
    (unaccepted : accepted a = false) :
    rejectedBefore accepted rejected time t (front ++ a :: back) =
      rejectedBefore accepted rejected time t (front ++ back) := by
  have skips (attempts : List α) : ((a :: attempts).takeWhile fun b => !accepted b).countP rejected =
      (attempts.takeWhile fun b => !accepted b).countP rejected := by
    rw [List.takeWhile_cons_of_pos (by rw [unaccepted, Bool.not_false]), List.countP_cons_of_neg (by simp [unrejected])]
  have within (attempts others : List α) :
      ((attempts ++ a :: others).takeWhile fun b => !accepted b).countP rejected =
        ((attempts ++ others).takeWhile fun b => !accepted b).countP rejected := by
    induction attempts with
    | nil => exact skips others
    | cons b attempts ih =>
      rw [List.cons_append, List.cons_append, List.takeWhile_cons, List.takeWhile_cons]
      split
      · rw [List.countP_cons, List.countP_cons, ih]
      · rfl
  simp only [rejectedBefore, List.countP_append, List.countP_cons, List.filter_append, List.filter_cons,
    unrejected, Bool.false_and, Bool.false_eq_true, ↓reduceIte, Nat.add_zero]
  split
  · rw [within]
  · rfl

/-- Entries of two exclusive kinds are counted one kind after the other. -/
private theorem countP_or_of_disjoint {γ : Type*} {p q : γ → Bool} (disjoint : ∀ a, p a → q a = false)
    (l : List γ) : (l.countP fun a => p a || q a) = l.countP p + l.countP q := by
  induction l with
  | nil => rfl
  | cons a l ih =>
    simp only [List.countP_cons, ih]
    cases first : p a with
    | true => simp only [disjoint a first, Bool.true_or, ↓reduceIte, Bool.false_eq_true]; omega
    | false => simp only [Bool.false_or, Bool.false_eq_true, ↓reduceIte]; omega

/-- Counting at positions ahead of the `k`-th is counting among the first `k`. -/
private theorem countP_zipIdx_lt (p : α → Bool) (attempts : List α) (n k : ℕ) :
    ((attempts.zipIdx n).countP fun (a, i) => p a && decide (i < n + k)) = (attempts.take k).countP p := by
  induction attempts generalizing n k with
  | nil => simp
  | cons a attempts ih =>
    cases k with
    | zero =>
      rw [List.take_zero, List.countP_nil, List.countP_eq_zero]
      intro (b, i) member
      simp [(List.mem_zipIdx member).1]
    | succ k =>
      have shifted : n + (k + 1) = n + 1 + k := by omega
      rw [List.zipIdx_cons, List.countP_cons, List.take_succ_cons, List.countP_cons, shifted, ih]
      simp only [show n < n + 1 + k by omega, decide_true, Bool.and_true]

/-- The rejected attempts that come earlier, or at the time of the first acceptance at an earlier
place in the list than the first attempt accepted at that time. -/
theorem rejectedBefore_eq_countP_zipIdx (attempts : List α) :
    rejectedBefore accepted rejected time t attempts =
      attempts.zipIdx.countP fun (a, i) => rejected a && (decide (time a < t) ||
        decide (time a = t) && decide (i < attempts.findIdx fun b => accepted b && decide (time b = t))) := by
  have earlier : (attempts.zipIdx.countP fun (a, _) => rejected a && decide (time a < t)) =
      attempts.countP fun a => rejected a && decide (time a < t) := by
    conv_rhs => rw [← List.zipIdx_map_fst 0 attempts, List.countP_map]
    rfl
  have atOnce : ((attempts.filter fun a => time a = t).takeWhile fun a => !accepted a).countP rejected =
      attempts.zipIdx.countP fun (a, i) => (rejected a && decide (time a = t)) &&
        decide (i < attempts.findIdx fun b => accepted b && decide (time b = t)) := by
    have counted := countP_zipIdx_lt (fun a => rejected a && decide (time a = t)) attempts 0
      (attempts.findIdx fun b => accepted b && decide (time b = t))
    rw [Nat.zero_add] at counted
    rw [counted, List.takeWhile_filter, List.countP_filter, List.takeWhile_eq_take_findIdx_not]
    congr 3
    funext b
    simp [Bool.and_comm]
  rw [rejectedBefore, ← earlier, atOnce, ← countP_or_of_disjoint]
  · congr 1
    funext (a, i)
    simp [Bool.and_or_distrib_left, Bool.and_assoc]
  · intro (a, i) before
    simp only [Bool.and_eq_true, decide_eq_true_eq] at before
    simp [before.2.ne]

/-- An attempt that is not accepted leaves the time of the first acceptance. -/
theorem acceptedAt_insert {front back : List α} {a : α} (unaccepted : accepted a = false) :
    acceptedAt accepted time (front ++ a :: back) = acceptedAt accepted time (front ++ back) := by
  rw [acceptedAt, acceptedAt, List.filter_append, List.filter_append, List.filter_cons_of_neg (by simp [unaccepted])]

end Icpc
