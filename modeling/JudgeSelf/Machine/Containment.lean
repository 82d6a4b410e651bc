import JudgeSelf.Machine.Tree

/-! # Texts that lead out of a directory

A text is read part by part from a directory below a base. It names something outside of the base exactly
when some `..` leads above the base, unless it comes back by the base's own name.
-/

namespace Machine.Path

/-- From some levels below a base, no `..` leads above the base. -/
def Stays (depth : ℕ) : List String → Prop
  | [] => True
  | part :: rest =>
    if part = "" ∨ part = "." then Stays depth rest
    else if part = ".." then depth ≠ 0 ∧ Stays (depth - 1) rest
    else Stays (depth + 1) rest

instance decidableStays : (depth : ℕ) → (parts : List String) → Decidable (Stays depth parts)
  | _, [] => isTrue trivial
  | depth, part :: rest =>
    have := decidableStays depth rest
    have := decidableStays (depth - 1) rest
    have := decidableStays (depth + 1) rest
    inferInstanceAs (Decidable (if part = "" ∨ part = "." then Stays depth rest
      else if part = ".." then depth ≠ 0 ∧ Stays (depth - 1) rest
      else Stays (depth + 1) rest))

/-- The text names nothing outside of the directory `name` of `parent` when it is read in `below`. -/
def Confined (parent : List String) (name : String) (below : List String) (s : String) : Prop :=
  Stays below.length (segments s) ∨
    name ∈ segments s ∧ parent ++ [name] <+: resolve (parent ++ [name] ++ below) s

instance (parent : List String) (name : String) (below : List String) (s : String) :
    Decidable (Confined parent name below s) := inferInstanceAs (Decidable (_ ∨ _))

variable {base below parts : List String}

theorem prefix_of_stays (stays : Stays below.length parts) : base <+: parts.foldl enter (base ++ below) := by
  induction parts generalizing below with
  | nil => exact List.prefix_append base below
  | cons part rest ih =>
    rw [List.foldl_cons, enter]
    rw [Stays] at stays
    split
    · next here =>
      rw [if_pos here] at stays
      exact ih stays
    · next elsewhere =>
      rw [if_neg elsewhere] at stays
      split
      · next up =>
        rw [if_pos up] at stays
        cases below using List.reverseRecOn with
        | nil => exact absurd rfl stays.1
        | append_singleton below last =>
          rw [List.length_append, List.length_singleton] at stays
          rw [← List.append_assoc, List.dropLast_concat]
          exact ih stays.2
      · next down =>
        rw [if_neg down] at stays
        rw [List.append_assoc]
        exact ih (by rwa [List.length_append, List.length_singleton])

variable {parent path : List String} {name : String}

/-- Outside of a directory, only a part of its name leads into it. -/
theorem not_prefix_enter {part : String} (outside : ¬ parent ++ [name] <+: path) (other : name ≠ part) :
    ¬ parent ++ [name] <+: enter path part := by
  rw [enter]
  split
  · exact outside
  · split
    · exact fun inside => outside (inside.trans (List.dropLast_prefix path))
    · intro inside
      rcases List.prefix_concat_iff.mp inside with whole | before
      · exact other (List.singleton_inj.mp (List.append_inj' whole rfl).2)
      · exact outside before

theorem not_prefix_foldl (outside : ¬ parent ++ [name] <+: path) (fresh : name ∉ parts) :
    ¬ parent ++ [name] <+: parts.foldl enter path := by
  induction parts generalizing path with
  | nil => exact outside
  | cons part rest ih =>
    rw [List.mem_cons, not_or] at fresh
    exact ih (not_prefix_enter outside fresh.1) fresh.2

/-- Without a part of the directory's name there is no way back. -/
theorem not_prefix_of_not_stays (climbs : ¬ Stays below.length parts) (fresh : name ∉ parts) :
    ¬ parent ++ [name] <+: parts.foldl enter (parent ++ [name] ++ below) := by
  induction parts generalizing below with
  | nil => exact absurd trivial climbs
  | cons part rest ih =>
    rw [List.mem_cons, not_or] at fresh
    rw [List.foldl_cons, enter]
    rw [Stays] at climbs
    split
    · next here =>
      rw [if_pos here] at climbs
      exact ih climbs fresh.2
    · next elsewhere =>
      rw [if_neg elsewhere] at climbs
      split
      · next up =>
        rw [if_pos up] at climbs
        cases below using List.reverseRecOn with
        | nil =>
          refine not_prefix_foldl (fun inside => ?_) fresh.2
          rw [List.append_nil, List.dropLast_concat] at inside
          have length := inside.length_le
          rw [List.length_append, List.length_singleton] at length
          omega
        | append_singleton below last =>
          rw [List.length_append, List.length_singleton] at climbs
          rw [← List.append_assoc, List.dropLast_concat]
          exact ih (fun stays => climbs ⟨Nat.succ_ne_zero _, stays⟩) fresh.2
      · next down =>
        rw [if_neg down] at climbs
        rw [List.append_assoc]
        exact ih (by rwa [List.length_append, List.length_singleton]) fresh.2

theorem confined_iff {s : String} :
    Confined parent name below s ↔ parent ++ [name] <+: resolve (parent ++ [name] ++ below) s := by
  constructor
  · rintro (stays | ⟨_, inside⟩)
    · exact prefix_of_stays stays
    · exact inside
  · intro inside
    by_cases stays : Stays below.length (segments s)
    · exact .inl stays
    · refine .inr ⟨?_, inside⟩
      by_contra fresh
      exact not_prefix_of_not_stays stays fresh inside

theorem confined_nil_iff {s : String} :
    Confined parent name [] s ↔ parent ++ [name] <+: resolve (parent ++ [name]) s := by
  rw [confined_iff, List.append_nil]

end Machine.Path
