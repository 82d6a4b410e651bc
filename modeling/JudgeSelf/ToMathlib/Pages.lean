import JudgeSelf.ToMathlib.SortedSet
import Mathlib.Data.List.Flatten

/-! # Pages of a list

The pages of a list are its consecutive slices of one size, counted from zero. As many of them as the
quotient of the lengths, rounded up, cover the list: all are full but the last, and none is empty.
An index range that starts inside the list is a slice.
-/

namespace List

variable {α β : Type*}

/-- The slice of a list with a page number and a page size. -/
def page (l : List α) (size i : ℕ) : List α := (l.drop (i * size)).take size

/-- How many pages there are. -/
def pageCount (n size : ℕ) : ℕ := (n + size - 1) / size

theorem length_page (l : List α) (size i : ℕ) : (l.page size i).length = min size (l.length - i * size) := by
  rw [page, length_take, length_drop]

theorem map_page (f : α → β) (l : List α) (size i : ℕ) : (l.page size i).map f = (l.map f).page size i := by
  rw [page, page, map_take, map_drop]

theorem flatten_pages_eq_take (l : List α) (size k : ℕ) :
    ((range k).map (l.page size)).flatten = l.take (k * size) := by
  induction k with
  | zero => simp
  | succ k ih => rw [range_succ, map_append, flatten_append, ih, map_singleton, flatten_singleton, page, Nat.succ_mul,
      take_add]

section Count

variable {n size i : ℕ}

theorem le_pageCount_mul (positive : 0 < size) : n ≤ pageCount n size * size := by
  have split := Nat.div_add_mod (n + size - 1) size
  have rest := Nat.mod_lt (n + size - 1) positive
  rw [pageCount, Nat.mul_comm]
  omega

/-- A page starts inside the list exactly if it is counted. -/
theorem lt_pageCount_iff (positive : 0 < size) : i < pageCount n size ↔ i * size < n := by
  rw [pageCount, ← Nat.succ_le_iff, Nat.le_div_iff_mul_le positive, Nat.succ_mul]
  omega

theorem pageCount_eq_zero_iff (positive : 0 < size) : pageCount n size = 0 ↔ n = 0 := by
  have first := @lt_pageCount_iff n size 0 positive
  omega

end Count

/-- The pages of a list. -/
def pages (l : List α) (size : ℕ) : List (List α) := (range (pageCount l.length size)).map (l.page size)

section Pages

variable {l : List α} {size i : ℕ}

theorem length_pages (l : List α) (size : ℕ) : (l.pages size).length = pageCount l.length size := by
  rw [pages, length_map, length_range]

theorem getElem?_pages_eq_some_iff {p : List α} :
    (l.pages size)[i]? = some p ↔ i < pageCount l.length size ∧ l.page size i = p := by
  rw [pages, getElem?_map, Option.map_eq_some_iff]
  constructor
  · rintro ⟨j, inside, rfl⟩
    obtain ⟨bound, rfl⟩ := getElem?_eq_some_iff.mp inside
    rw [length_range] at bound
    rw [getElem_range]
    exact ⟨bound, rfl⟩
  · rintro ⟨bound, rfl⟩
    exact ⟨i, getElem?_range bound, rfl⟩

/-- The pages of a list, one after another, are the list. -/
theorem flatten_pages (positive : 0 < size) (l : List α) : (l.pages size).flatten = l := by
  rw [pages, flatten_pages_eq_take, take_of_length_le (le_pageCount_mul positive)]

/-- Every page but the last is full. -/
theorem length_of_mem_dropLast_pages (positive : 0 < size) {p : List α} (member : p ∈ (l.pages size).dropLast) :
    p.length = size := by
  obtain ⟨i, bound, rfl⟩ := getElem_of_mem member
  rw [length_dropLast, length_pages] at bound
  have inside : i + 1 < pageCount l.length size := by omega
  rw [lt_pageCount_iff positive, Nat.succ_mul] at inside
  simp only [getElem_dropLast, pages, getElem_map, getElem_range, length_page]
  omega

/-- No page is longer than a full one or empty. -/
theorem length_of_mem_pages (positive : 0 < size) {p : List α} (member : p ∈ l.pages size) :
    1 ≤ p.length ∧ p.length ≤ size := by
  obtain ⟨i, inside, rfl⟩ := mem_map.mp member
  rw [mem_range, lt_pageCount_iff positive] at inside
  rw [length_page]
  omega

theorem page_ne_nil_iff (positive : 0 < size) : l.page size i ≠ [] ↔ i < pageCount l.length size := by
  rw [← length_pos_iff, length_page, lt_pageCount_iff positive]
  omega

end Pages

theorem getElem?_page {size i j : ℕ} {l : List α} (within : j < size) : (l.page size i)[j]? = l[i * size + j]? := by
  rw [page, getElem?_take_of_lt within, getElem?_drop]

/-- An element of the list stands on exactly one page. -/
theorem mem_page_iff {size i : ℕ} {l : List α} {a : α} :
    a ∈ l.page size i ↔ ∃ k, l[k]? = some a ∧ i * size ≤ k ∧ k < i * size + size := by
  rw [mem_iff_getElem?]
  constructor
  · rintro ⟨j, at_⟩
    obtain ⟨bound, _⟩ := getElem?_eq_some_iff.mp at_
    have within : j < size := by
      rw [length_page] at bound
      omega
    rw [getElem?_page within] at at_
    exact ⟨i * size + j, at_, Nat.le_add_right _ _, by omega⟩
  · rintro ⟨k, at_, low, high⟩
    refine ⟨k - i * size, ?_⟩
    rwa [getElem?_page (by omega), Nat.add_sub_cancel' low]

/-- A slice keeps the numbers of the whole list. -/
theorem map_zipIdx_slice (f : α → ℕ → β) (l : List α) (first count : ℕ) :
    (((l.drop first).take count).zipIdx.map fun e => f e.1 (first + e.2)) =
      ((l.zipIdx.map fun e => f e.1 e.2).drop first).take count := by
  apply ext_getElem?
  intro j
  rw [getElem?_map, getElem?_zipIdx, getElem?_take, getElem?_take, getElem?_drop, getElem?_drop, getElem?_map,
    getElem?_zipIdx]
  split
  · cases l[first + j]? <;> simp
  · rfl

theorem map_indexRange (f : α → β) (l : List α) (start stop : ℤ) :
    (l.indexRange start stop).map f = (l.map f).indexRange start stop := by
  simp only [indexRange, length_map]
  generalize (if start < 0 then max (l.length + start) 0 else start) = first
  generalize min (if stop < 0 then l.length + stop else stop) (l.length - 1) = last
  split
  · rfl
  · rw [map_take, map_drop]

/-- A range from a place of the list on is a slice. -/
theorem indexRange_of_nonneg (l : List α) (first : ℕ) {count : ℕ} (some : 0 < count) :
    l.indexRange first (first + count - 1) = (l.drop first).take count := by
  have start : ¬ (first : ℤ) < 0 := by omega
  have stop : ¬ (first : ℤ) + count - 1 < 0 := by omega
  simp only [indexRange, start, stop, ↓reduceIte, Int.toNat_natCast]
  split
  · next empty => rw [drop_of_length_le (by omega), take_nil]
  · next inside =>
    rcases le_total (first + count) l.length with whole | cut
    · congr 1
      omega
    · rw [take_of_length_le (by rw [length_drop]; omega), take_of_length_le (by rw [length_drop]; omega)]

/-- A range whose ends are counted from the end of the list is cut off where the list starts. -/
theorem indexRange_of_neg (l : List α) {start stop : ℤ} (before : start ≤ stop) (fromEnd : stop < 0) :
    l.indexRange start stop = (l.drop (l.length + start).toNat).take
      ((l.length + stop + 1).toNat - (l.length + start).toNat) := by
  have first : start < 0 := by omega
  simp only [indexRange, first, fromEnd, ↓reduceIte]
  split
  · next empty =>
    have none : (l.length + stop + 1).toNat - (l.length + start).toNat = 0 := by omega
    rw [none, take_zero]
  · next inside =>
    have low : (max (l.length + start) 0).toNat = (l.length + start).toNat := by omega
    have count : (min (l.length + stop) (l.length - 1) - max (l.length + start) 0 + 1).toNat =
        (l.length + stop + 1).toNat - (l.length + start).toNat := by omega
    rw [low, count]

end List
