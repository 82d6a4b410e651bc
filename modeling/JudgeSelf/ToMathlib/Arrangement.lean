import JudgeSelf.ToMathlib.Pages
import JudgeSelf.ToMathlib.StableSort

/-! # Pages that are cut from different arrangements

An arrangement by a key puts larger keys first and leaves entries with equal keys in any order. Where each page
of a list is cut from an arrangement of its own, the keys still come in the order of the whole list, but an entry
may stand on two pages or on none. No choice of arrangements does that exactly if entries with equal keys never
stand on both sides of a boundary.
-/

namespace List

variable {α β : Type*} [LinearOrder β]

/-- An arrangement of every list by a key, largest first. -/
structure Arrangement (key : α → β) where
  arrange : List α → List α
  perm : ∀ l, (arrange l).Perm l
  sorted : ∀ l, (arrange l).Pairwise fun a b => key b ≤ key a

namespace Arrangement

variable {key : α → β}

/-- Entries with equal keys keep their order. -/
def stable (key : α → β) : Arrangement key where
  arrange := sortByKey fun a => OrderDual.toDual (key a)
  perm := sortByKey_perm _
  sorted := pairwise_sortByKey fun a => OrderDual.toDual (key a)

theorem length_arrange (o : Arrangement key) (l : List α) : (o.arrange l).length = l.length := (o.perm l).length_eq

/-- All arrangements have the same keys at the same places. -/
theorem map_arrange (o o' : Arrangement key) (l : List α) : (o.arrange l).map key = (o'.arrange l).map key := by
  have sorted (o : Arrangement key) : ((o.arrange l).map key).Pairwise (· ≥ ·) := pairwise_map.mpr (o.sorted l)
  exact (((o.perm l).trans (o'.perm l).symm).map key).eq_of_pairwise' (sorted o) (sorted o')

end Arrangement

/-- Two neighbours change places where their keys are equal. -/
def swapTied (key : α → β) : ℕ → List α → List α
  | 0, a :: b :: l => if key a = key b then b :: a :: l else a :: b :: l
  | n + 1, a :: l => a :: swapTied key n l
  | _, l => l

section Swap

variable {key : α → β}

theorem swapTied_perm (n : ℕ) (l : List α) : (swapTied key n l).Perm l := by
  fun_induction swapTied key n l with
  | case1 a b l same => exact Perm.swap a b l
  | case2 a b l other => exact Perm.refl _
  | case3 n a l ih => exact ih.cons a
  | case4 n l => exact Perm.refl l

theorem map_swapTied (n : ℕ) (l : List α) : (swapTied key n l).map key = l.map key := by
  fun_induction swapTied key n l with
  | case1 a b l same => simp only [map_cons, same]
  | case2 a b l other => rfl
  | case3 n a l ih => rw [map_cons, map_cons, ih]
  | case4 n l => rfl

/-- The second of two tied neighbours is the first one before the swap. -/
theorem getElem?_swapTied {n : ℕ} {l : List α} {a b : α} (first : l[n]? = some a) (second : l[n + 1]? = some b)
    (tied : key a = key b) : (swapTied key n l)[n + 1]? = some a := by
  fun_induction swapTied key n l with
  | case1 c d l same => simpa using first
  | case2 c d l other =>
    obtain rfl : c = a := by simpa using first
    obtain rfl : d = b := by simpa using second
    exact absurd tied other
  | case3 n c l ih =>
    rw [getElem?_cons_succ] at first second ⊢
    exact ih first second
  | case4 n l short step =>
    cases l with
    | nil => simp at first
    | cons c l =>
      cases n with
      | succ n => exact absurd rfl (step n c l rfl)
      | zero =>
        cases l with
        | nil => simp at second
        | cons d l => exact absurd rfl (short c d l rfl)

/-- The same arrangement, but for two neighbours with equal keys. -/
def Arrangement.swapTied (o : Arrangement key) (n : ℕ) : Arrangement key where
  arrange l := List.swapTied key n (o.arrange l)
  perm l := (swapTied_perm n _).trans (o.perm l)
  sorted l := by
    have sorted : ((o.arrange l).map key).Pairwise (· ≥ ·) := pairwise_map.mpr (o.sorted l)
    rw [← map_swapTied n] at sorted
    exact pairwise_map.mp sorted

end Swap

/-- Exactly `n` entries have a key that is not smaller than that of a certain one. -/
def CutAt (key : α → β) (l : List α) (n : ℕ) : Prop := ∃ a ∈ l, (l.countP fun b => key a ≤ key b) = n

instance {key : α → β} {l : List α} {n : ℕ} : Decidable (CutAt key l n) := by
  unfold CutAt
  infer_instance

section Cut

variable {key : α → β} {l : List α} {n : ℕ}

theorem CutAt.map_iff {γ : Type*} (f : γ → α) {l : List γ} :
    CutAt key (l.map f) n ↔ CutAt (fun c => key (f c)) l n := by
  simp only [CutAt, mem_map, exists_exists_and_eq_and, countP_map, Function.comp_def]

/-- The larger keys stand in front. -/
theorem take_countP_of_sorted (sorted : l.Pairwise fun a b => key b ≤ key a) (t : β) :
    l.take (l.countP fun b => t ≤ key b) = l.filter fun b => t ≤ key b := by
  induction l with
  | nil => rfl
  | cons a l ih =>
    obtain ⟨first, rest⟩ := pairwise_cons.mp sorted
    by_cases large : t ≤ key a
    · rw [countP_cons_of_pos (by simpa using large), filter_cons_of_pos (by simpa using large), take_succ_cons, ih rest]
    · have small : ∀ b ∈ l, ¬ t ≤ key b := fun b member keep => large (keep.trans (first b member))
      rw [countP_cons_of_neg (by simpa using large), filter_cons_of_neg (by simpa using large),
        countP_eq_zero.mpr (by simpa using small), take_zero, filter_eq_nil_iff.mpr (by simpa using small)]

/-- Up to a cut all arrangements have the same entries. -/
theorem CutAt.take_perm (cut : CutAt key l n) (o o' : Arrangement key) :
    ((o.arrange l).take n).Perm ((o'.arrange l).take n) := by
  obtain ⟨a, _, rfl⟩ := cut
  have filtered (o : Arrangement key) :
      ((o.arrange l).take (l.countP fun b => key a ≤ key b)).Perm (l.filter fun b => key a ≤ key b) := by
    rw [← (o.perm l).countP_eq, take_countP_of_sorted (o.sorted l)]
    exact (o.perm l).filter _
  exact (filtered o).trans (filtered o').symm

/-- Neighbours with different keys are a cut. -/
theorem cutAt_of_lt (o : Arrangement key) {a b : α} (first : (o.arrange l)[n]? = some a)
    (second : (o.arrange l)[n + 1]? = some b) (smaller : key b < key a) : CutAt key l (n + 1) := by
  obtain ⟨inside, rfl⟩ := getElem?_eq_some_iff.mp first
  obtain ⟨bound, rfl⟩ := getElem?_eq_some_iff.mp second
  have sorted := pairwise_iff_getElem.mp (o.sorted l)
  refine ⟨(o.arrange l)[n], (o.perm l).mem_iff.mp (getElem_mem _), ?_⟩
  generalize pivot : key (o.arrange l)[n] = t at smaller ⊢
  have front : ((o.arrange l).take (n + 1)).countP (fun b => t ≤ key b) = n + 1 := by
    rw [countP_eq_length.mpr, length_take, Nat.min_eq_left bound.le]
    intro c member
    obtain ⟨j, within, rfl⟩ := getElem_of_mem member
    rw [length_take] at within
    rw [getElem_take, decide_eq_true_eq, ← pivot]
    rcases (show j ≤ n by omega).eq_or_lt with rfl | before
    · exact le_rfl
    · exact sorted j n (by omega) inside before
  have back : ((o.arrange l).drop (n + 1)).countP (fun b => t ≤ key b) = 0 := by
    refine countP_eq_zero.mpr fun c member => ?_
    obtain ⟨j, within, rfl⟩ := getElem_of_mem member
    rw [length_drop] at within
    rw [getElem_drop, decide_eq_true_eq, not_le]
    rcases Nat.eq_zero_or_pos j with rfl | later
    · exact smaller
    · exact (sorted (n + 1) (n + 1 + j) bound (by omega) (by omega)).trans_lt smaller
  rw [← (o.perm l).countP_eq, ← take_append_drop (n + 1) (o.arrange l), countP_append, front, back]

end Cut

/-- The pages of a list, each cut from an arrangement of its own. -/
def arrangedPages {key : α → β} (orders : ℕ → Arrangement key) (l : List α) (size : ℕ) : List (List α) :=
  (range (pageCount l.length size)).map fun i => ((orders i).arrange l).page size i

section Pages

variable {key : α → β} {l : List α} {size : ℕ}

theorem map_flatten_arrangedPages (positive : 0 < size) (orders : ℕ → Arrangement key) (o : Arrangement key) :
    (arrangedPages orders l size).flatten.map key = (o.arrange l).map key := by
  have keys : (arrangedPages orders l size).map (map key) = ((o.arrange l).map key).pages size := by
    rw [arrangedPages, pages, map_map, length_map, o.length_arrange]
    apply map_congr_left
    intro i _
    rw [Function.comp_apply, map_page, (orders i).map_arrange o]
  rw [map_flatten, keys, flatten_pages positive]

/-- Whatever the arrangements are, larger keys come first through all pages. -/
theorem pairwise_flatten_arrangedPages (positive : 0 < size) (orders : ℕ → Arrangement key) :
    (arrangedPages orders l size).flatten.Pairwise fun a b => key b ≤ key a := by
  have sorted : ((orders 0).arrange l |>.map key).Pairwise (· ≥ ·) := pairwise_map.mpr ((orders 0).sorted l)
  rw [← map_flatten_arrangedPages positive orders] at sorted
  exact pairwise_map.mp sorted

/-- With a cut at every boundary the first pages have the first entries of any arrangement. -/
theorem flatten_pages_perm_take (cuts : ∀ k, 0 < k → k < pageCount l.length size → CutAt key l (k * size))
    (positive : 0 < size) (orders : ℕ → Arrangement key) (o : Arrangement key) {k : ℕ}
    (within : k ≤ pageCount l.length size) :
    ((range k).map fun i => ((orders i).arrange l).page size i).flatten.Perm ((o.arrange l).take (k * size)) := by
  induction k generalizing o with
  | zero => simp
  | succ k ih =>
    have through := (ih (orders k) (Nat.le_of_succ_le within)).append_right (((orders k).arrange l).page size k)
    rw [range_succ, map_append, flatten_append, map_singleton, flatten_singleton]
    refine through.trans ?_
    rw [page, ← take_add, ← Nat.succ_mul]
    rcases within.eq_or_lt with last | inside
    · have all (o : Arrangement key) : (o.arrange l).take ((k + 1) * size) = o.arrange l := by
        rw [take_of_length_le]
        rw [last, o.length_arrange]
        exact le_pageCount_mul positive
      rw [all, all]
      exact ((orders k).perm l).trans (o.perm l).symm
    · exact (cuts (k + 1) k.succ_pos inside).take_perm (orders k) o

/-- An entry that is tied over a boundary may stand on both pages. -/
theorem cutAt_of_nodup_pages (positive : 0 < size) {k : ℕ} (inside : k + 1 < pageCount l.length size)
    (once : ∀ orders : ℕ → Arrangement key, (arrangedPages orders l size).flatten.Nodup) :
    CutAt key l ((k + 1) * size) := by
  let o : Arrangement key := .stable key
  obtain ⟨n, boundary⟩ : ∃ n, (k + 1) * size = n + 1 :=
    Nat.exists_eq_succ_of_ne_zero (Nat.mul_ne_zero k.succ_ne_zero positive.ne')
  have bound := (lt_pageCount_iff positive).mp inside
  rw [boundary, ← o.length_arrange l] at bound
  have first : (o.arrange l)[n]? = some (o.arrange l)[n] := getElem?_eq_getElem (Nat.lt_of_succ_lt bound)
  have second : (o.arrange l)[n + 1]? = some (o.arrange l)[n + 1] := getElem?_eq_getElem bound
  have order := pairwise_iff_getElem.mp (o.sorted l) n (n + 1) (Nat.lt_of_succ_lt bound) bound n.lt_succ_self
  rw [boundary]
  refine cutAt_of_lt o first second (order.lt_of_ne fun tied => ?_)
  -- The page before the boundary is cut before the swap, the page behind it after the swap.
  have pages := (nodup_flatten.mp (once fun i => if i = k then o else o.swapTied n)).2
  have apart := pairwise_iff_getElem.mp pages k (k + 1) (by simp [arrangedPages]; omega)
    (by simpa [arrangedPages] using inside) k.lt_succ_self
  simp only [arrangedPages, getElem_map, getElem_range, ↓reduceIte, Nat.succ_ne_self] at apart
  refine apart (mem_page_iff.mpr ⟨n, first, ?_, ?_⟩)
    (mem_page_iff.mpr ⟨n + 1, getElem?_swapTied first second tied.symm, boundary.le, by omega⟩)
  · rw [Nat.succ_mul] at boundary
    omega
  · rw [Nat.succ_mul] at boundary
    omega

/-- The pages are the list again, whatever the arrangements, exactly if every boundary is a cut. -/
theorem flatten_arrangedPages_perm_iff (distinct : l.Nodup) (positive : 0 < size) :
    (∀ orders : ℕ → Arrangement key, (arrangedPages orders l size).flatten.Perm l) ↔
      ∀ k, 0 < k → k < pageCount l.length size → CutAt key l (k * size) := by
  constructor
  · intro once k later inside
    obtain ⟨k, rfl⟩ := Nat.exists_eq_succ_of_ne_zero later.ne'
    exact cutAt_of_nodup_pages positive inside fun orders => (once orders).nodup_iff.mpr distinct
  · intro cuts orders
    refine (flatten_pages_perm_take cuts positive orders (.stable key) le_rfl).trans ?_
    rw [take_of_length_le]
    · exact (Arrangement.stable key).perm l
    · rw [Arrangement.length_arrange]
      exact le_pageCount_mul positive

end Pages

end List
