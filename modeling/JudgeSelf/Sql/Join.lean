import Mathlib.Data.List.Nodup
import Mathlib.Data.List.Flatten

/-! # Inner joins on a key

A join pairs the rows of two tables whose keys are equal. Where the right keys are distinct and each left row
refers to one of them, the join is the left table with the referred row beside each of its rows.
-/

namespace Sql

variable {α β κ : Type*} [DecidableEq κ]

/-- `left JOIN right ON key = key'`. -/
def join (left : List α) (right : List β) (key : α → κ) (key' : β → κ) : List (α × β) :=
  left.flatMap fun a => (right.filter fun b => key a = key' b).map (a, ·)

variable {left : List α} {right : List β} {key : α → κ} {key' : β → κ}

theorem mem_join_iff {row : α × β} :
    row ∈ join left right key key' ↔ row.1 ∈ left ∧ row.2 ∈ right ∧ key row.1 = key' row.2 := by
  simp only [join, List.mem_flatMap, List.mem_map, List.mem_filter, decide_eq_true_eq]
  constructor
  · rintro ⟨a, first, b, ⟨second, same⟩, rfl⟩
    exact ⟨first, second, same⟩
  · rintro ⟨first, second, same⟩
    exact ⟨row.1, first, row.2, ⟨second, same⟩, rfl⟩

/-- A key picks one row where keys are distinct. -/
theorem filter_key_eq_singleton (distinct : (right.map key').Nodup) {b : β} (member : b ∈ right) :
    right.filter (fun other => key' b = key' other) = [b] := by
  have different := (List.Nodup.of_map _ distinct).filter fun other => decide (key' b = key' other)
  refine List.perm_singleton.mp ((List.perm_ext_iff_of_nodup different (List.nodup_singleton b)).mpr fun other => ?_)
  rw [List.mem_filter, List.mem_singleton, decide_eq_true_eq]
  constructor
  · rintro ⟨present, same⟩
    exact List.inj_on_of_nodup_map distinct present member same.symm
  · rintro rfl
    exact ⟨member, rfl⟩

/-- The join keeps every row that refers to another once, in its place. -/
theorem map_fst_join (distinct : (right.map key').Nodup) (references : ∀ a ∈ left, key a ∈ right.map key') :
    (join left right key key').map Prod.fst = left := by
  have single : ∀ a ∈ left, ((right.filter fun b => key a = key' b).map (a, ·)).map Prod.fst = [a] := by
    intro a member
    obtain ⟨b, present, same⟩ := List.mem_map.mp (references a member)
    simp only [← same, filter_key_eq_singleton distinct present, List.map_cons, List.map_nil]
  rw [join, List.map_flatMap]
  calc
    _ = left.flatMap fun a => [a] := List.flatMap_congr single
    _ = left := List.flatMap_singleton' left

end Sql
