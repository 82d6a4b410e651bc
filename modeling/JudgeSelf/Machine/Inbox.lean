import Mathlib.Data.List.Nodup
import Mathlib.Data.List.Induction

/-! # Idempotent consumers

A consumer that keeps the keys of what it has recorded and skips a message whose key is among
them sees a stream with redeliveries as the stream of first deliveries. `keepFirst` is that
stream: it lists each key once, with the message that carried it first.
-/

namespace Machine

variable {α κ σ : Type*} [DecidableEq κ]

/-- The messages whose key has not occurred before, in order. -/
def keepFirst (key : α → κ) (l : List α) : List α :=
  l.foldl (fun kept a => if key a ∈ kept.map key then kept else kept ++ [a]) []

@[simp] theorem keepFirst_nil (key : α → κ) : keepFirst key [] = [] := rfl

private theorem foldl_keys (key : α → κ) (kept l : List α) (k : κ) :
    k ∈ (l.foldl (fun kept a => if key a ∈ kept.map key then kept else kept ++ [a]) kept).map key ↔
      k ∈ kept.map key ∨ k ∈ l.map key := by
  induction l generalizing kept with
  | nil => simp
  | cons a l ih =>
    rw [List.foldl_cons, ih, List.map_cons, List.mem_cons]
    split
    · next seen =>
      constructor
      · rintro (before | after)
        · exact .inl before
        · exact .inr (.inr after)
      · rintro (before | rfl | after)
        · exact .inl before
        · exact .inl seen
        · exact .inr after
    · simp [or_assoc]

/-- First deliveries carry exactly the delivered keys. -/
theorem mem_map_keepFirst {key : α → κ} {l : List α} {k : κ} :
    k ∈ (keepFirst key l).map key ↔ k ∈ l.map key := by
  rw [keepFirst, foldl_keys]
  simp

theorem keepFirst_concat (key : α → κ) (l : List α) (a : α) :
    keepFirst key (l ++ [a]) = if key a ∈ l.map key then keepFirst key l else keepFirst key l ++ [a] := by
  have step : keepFirst key (l ++ [a]) =
      if key a ∈ (keepFirst key l).map key then keepFirst key l else keepFirst key l ++ [a] := by
    rw [keepFirst, List.foldl_append]
    rfl
  rw [step, if_congr mem_map_keepFirst rfl rfl]

theorem mem_of_mem_keepFirst {key : α → κ} {l : List α} {a : α} (member : a ∈ keepFirst key l) : a ∈ l := by
  induction l using List.reverseRecOn with
  | nil => exact member
  | append_singleton l last ih =>
    rw [keepFirst_concat] at member
    split at member
    · exact List.mem_append_left _ (ih member)
    · exact List.mem_append.mpr ((List.mem_append.mp member).imp_left ih)

/-- No key is listed twice. -/
theorem nodup_keepFirst (key : α → κ) (l : List α) : ((keepFirst key l).map key).Nodup := by
  induction l using List.reverseRecOn with
  | nil => exact List.nodup_nil
  | append_singleton l a ih =>
    rw [keepFirst_concat]
    split
    · exact ih
    · next fresh =>
      rw [List.map_append, List.map_singleton, List.nodup_append]
      refine ⟨ih, List.nodup_singleton _, ?_⟩
      rintro k present b single rfl
      exact fresh (List.mem_singleton.mp single ▸ mem_map_keepFirst.mp present)

/-- A stream without repeated keys is kept whole. -/
theorem keepFirst_of_nodup {key : α → κ} {l : List α} (distinct : (l.map key).Nodup) :
    keepFirst key l = l := by
  induction l using List.reverseRecOn with
  | nil => rfl
  | append_singleton l a ih =>
    rw [List.map_append, List.map_singleton, List.nodup_append] at distinct
    obtain ⟨front, -, apart⟩ := distinct
    have fresh : key a ∉ l.map key := fun seen => apart (key a) seen (key a) (List.mem_singleton_self _) rfl
    rw [keepFirst_concat, if_neg fresh, ih front]

/-- What a predicate of the keys keeps of the first deliveries are the first deliveries of what it keeps. -/
theorem filter_keepFirst {key : α → κ} {p : α → Bool} (reads : ∀ a b, key a = key b → p a = p b) (l : List α) :
    (keepFirst key l).filter p = keepFirst key (l.filter p) := by
  induction l using List.reverseRecOn with
  | nil => rfl
  | append_singleton l a ih =>
    rw [keepFirst_concat, List.filter_append, List.filter_singleton]
    cases kept : p a with
    | false =>
      rw [cond_false, List.append_nil, ← ih]
      split
      · rfl
      · rw [List.filter_append, List.filter_singleton, kept, cond_false, List.append_nil]
    | true =>
      have same : key a ∈ (l.filter p).map key ↔ key a ∈ l.map key := by
        simp only [List.mem_map, List.mem_filter]
        constructor
        · rintro ⟨b, ⟨member, -⟩, equal⟩
          exact ⟨b, member, equal⟩
        · rintro ⟨b, member, equal⟩
          exact ⟨b, ⟨member, (reads b a equal).trans kept⟩, equal⟩
      rw [cond_true, keepFirst_concat, if_congr same rfl rfl, ← ih]
      split
      · rfl
      · rw [List.filter_append, List.filter_singleton, kept, cond_true]

/-- Keys that tell the same messages apart keep the same first deliveries. -/
theorem keepFirst_congr {κ' : Type*} [DecidableEq κ'] {key : α → κ} {key' : α → κ'} {l : List α}
    (same : ∀ a ∈ l, ∀ b ∈ l, key a = key b ↔ key' a = key' b) : keepFirst key l = keepFirst key' l := by
  induction l using List.reverseRecOn with
  | nil => rfl
  | append_singleton l a ih =>
    have seen : key a ∈ l.map key ↔ key' a ∈ l.map key' := by
      simp only [List.mem_map]
      refine exists_congr fun b => and_congr_right fun member => ?_
      exact same b (List.mem_append_left _ member) a List.mem_concat_self
    have rest := ih fun a first b second => same a (List.mem_append_left _ first) b (List.mem_append_left _ second)
    rw [keepFirst_concat, keepFirst_concat, if_congr seen rfl rfl, rest]

section Consumer

variable (seen : σ → List κ) (record : σ → α → σ) (key : α → κ)

/-- Record a message unless its key is among the recorded ones. -/
def absorb (s : σ) (a : α) : σ := if key a ∈ seen s then s else record s a

variable {seen record key}

/-- An idempotent consumer records exactly the first deliveries, in their order. -/
theorem foldl_absorb (recorded : ∀ s a, seen (record s a) = seen s ++ [key a]) {s : σ}
    (fresh : seen s = []) (l : List α) :
    l.foldl (absorb seen record key) s = (keepFirst key l).foldl record s := by
  have keys (l : List α) : seen (l.foldl record s) = l.map key := by
    induction l using List.reverseRecOn with
    | nil => exact fresh
    | append_singleton l a ih => simp [recorded, ih]
  induction l using List.reverseRecOn with
  | nil => rfl
  | append_singleton l a ih =>
    have tracked : key a ∈ (keepFirst key l).map key ↔ key a ∈ l.map key := mem_map_keepFirst
    rw [List.foldl_append, ih, List.foldl_cons, List.foldl_nil, absorb, keys, keepFirst_concat]
    by_cases repeated : key a ∈ l.map key
    · rw [if_pos (tracked.mpr repeated), if_pos repeated]
    · rw [if_neg fun present => repeated (tracked.mp present), if_neg repeated, List.foldl_append,
        List.foldl_cons, List.foldl_nil]

end Consumer

end Machine
