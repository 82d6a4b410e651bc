import Mathlib.Data.List.Basic

/-! # Computations in `Except`

What a successful bind, traversal or fold says about its parts, and how a sequence with a state runs. A
computation in `ExceptT ε (StateM σ)` has a state whether it returns or throws.
-/

namespace Except

universe u

variable {ε σ : Type*} {α β : Type u}

theorem bind_eq_ok_iff {x : Except ε α} {f : α → Except ε β} {b : β} :
    x.bind f = .ok b ↔ ∃ a, x = .ok a ∧ f a = .ok b := by
  cases x with
  | error e => simp [Except.bind]
  | ok a => simp [Except.bind]

theorem throw_ne_ok {e : ε} {a : α} : (throw e : Except ε α) ≠ .ok a := nofun

theorem map_eq_ok_iff {x : Except ε α} {f : α → β} {b : β} :
    f <$> x = .ok b ↔ ∃ a, x = .ok a ∧ f a = b := by
  cases x with
  | error e => simp [Functor.map, Except.map]
  | ok a => simp [Functor.map, Except.map]

/-- A traversal of a nonempty list that succeeds has a first result in front of those of the rest. -/
theorem mapM_cons_eq_ok {f : α → Except ε β} {a : α} {l : List α} {bs : List β}
    (ran : (a :: l).mapM f = .ok bs) : ∃ b rest, f a = .ok b ∧ l.mapM f = .ok rest ∧ bs = b :: rest := by
  rw [List.mapM_cons] at ran
  obtain ⟨b, one, ran⟩ := bind_eq_ok_iff.mp ran
  obtain ⟨rest, others, ran⟩ := bind_eq_ok_iff.mp ran
  exact ⟨b, rest, one, others, (Except.ok.inj ran).symm⟩

/-- A traversal of calls that succeed lists their results. -/
theorem mapM_eq_ok_of_forall {f : α → Except ε β} {g : α → β} {l : List α} (succeeds : ∀ a ∈ l, f a = .ok (g a)) :
    l.mapM f = .ok (l.map g) := by
  induction l with
  | nil => rfl
  | cons a l ih =>
    rw [List.mapM_cons, succeeds a List.mem_cons_self, ih fun b member => succeeds b (List.mem_cons_of_mem a member)]
    rfl

/-- The results of a traversal that succeeds are results of single calls. -/
theorem mem_mapM_eq_ok {f : α → Except ε β} {l : List α} {bs : List β} (ran : l.mapM f = .ok bs) {b : β}
    (member : b ∈ bs) : ∃ a ∈ l, f a = .ok b := by
  induction l generalizing bs with
  | nil =>
    obtain rfl := Except.ok.inj ran
    exact absurd member List.not_mem_nil
  | cons a l ih =>
    obtain ⟨first, rest, one, others, rfl⟩ := mapM_cons_eq_ok ran
    rcases List.mem_cons.mp member with rfl | later
    · exact ⟨a, List.mem_cons_self, one⟩
    · obtain ⟨a', member', same⟩ := ih others later
      exact ⟨a', List.mem_cons_of_mem a member', same⟩

/-- All calls of a traversal that succeeds have succeeded. -/
theorem exists_eq_ok_of_mapM {f : α → Except ε β} {l : List α} {bs : List β} (ran : l.mapM f = .ok bs) {a : α}
    (member : a ∈ l) : ∃ b, f a = .ok b := by
  induction l generalizing bs with
  | nil => exact absurd member List.not_mem_nil
  | cons first l ih =>
    obtain ⟨b, rest, one, others, rfl⟩ := mapM_cons_eq_ok ran
    rcases List.mem_cons.mp member with rfl | later
    · exact ⟨b, one⟩
    · exact ih others later

/-- A traversal succeeds with results that all have a property exactly if each call does. -/
theorem exists_mapM_eq_ok_and_iff {f : α → Except ε β} {p : β → Prop} {l : List α} :
    (∃ bs, l.mapM f = .ok bs ∧ ∀ b ∈ bs, p b) ↔ ∀ a ∈ l, ∃ b, f a = .ok b ∧ p b := by
  induction l with
  | nil => exact iff_of_true ⟨[], rfl, List.forall_mem_nil p⟩ (List.forall_mem_nil _)
  | cons a l ih =>
    rw [List.forall_mem_cons, ← ih]
    constructor
    · rintro ⟨_, ran, all⟩
      obtain ⟨b, rest, one, others, rfl⟩ := mapM_cons_eq_ok ran
      obtain ⟨first, later⟩ := List.forall_mem_cons.mp all
      exact ⟨⟨b, one, first⟩, rest, others, later⟩
    · rintro ⟨⟨b, one, first⟩, rest, others, later⟩
      refine ⟨b :: rest, ?_, List.forall_mem_cons.mpr ⟨first, later⟩⟩
      rw [List.mapM_cons, one, others]
      rfl

/-- What is read off the results of a traversal can be read off its arguments. -/
theorem flatMap_mapM_eq_ok {γ : Type*} {f : α → Except ε β} {g : β → List γ} {h : α → List γ}
    (computes : ∀ a b, f a = .ok b → g b = h a) {l : List α} {bs : List β} (ran : l.mapM f = .ok bs) :
    bs.flatMap g = l.flatMap h := by
  induction l generalizing bs with
  | nil =>
    obtain rfl := Except.ok.inj ran
    rfl
  | cons a l ih =>
    obtain ⟨first, rest, one, others, rfl⟩ := mapM_cons_eq_ok ran
    rw [List.flatMap_cons, List.flatMap_cons, computes a first one, ih others]

/-- A monadic fold whose successful steps compute `g` computes the fold of `g`. -/
theorem foldlM_eq_ok {f : σ → α → Except ε σ} {g : σ → α → σ}
    (computes : ∀ s a t, f s a = .ok t → t = g s a) {l : List α} {s t : σ}
    (ran : l.foldlM f s = .ok t) : t = l.foldl g s := by
  induction l generalizing s with
  | nil => exact (Except.ok.inj ran).symm
  | cons a l ih =>
    rw [List.foldlM_cons] at ran
    obtain ⟨next, first, rest⟩ := bind_eq_ok_iff.mp ran
    obtain rfl := computes s a next first
    exact ih rest

/-- A fold whose steps succeed on some elements, whatever the state, succeeds on lists of these. -/
theorem exists_foldlM_eq_ok_iff {f : σ → α → Except ε σ} {p : α → Prop}
    (succeeds : ∀ s a, (∃ t, f s a = .ok t) ↔ p a) {l : List α} {s : σ} :
    (∃ t, l.foldlM f s = .ok t) ↔ ∀ a ∈ l, p a := by
  induction l generalizing s with
  | nil => simp [pure, Except.pure]
  | cons a l ih =>
    rw [List.foldlM_cons, List.forall_mem_cons]
    constructor
    · rintro ⟨t, ran⟩
      obtain ⟨next, first, rest⟩ := bind_eq_ok_iff.mp ran
      exact ⟨(succeeds s a).mp ⟨next, first⟩, ih.mp ⟨t, rest⟩⟩
    · rintro ⟨here, later⟩
      obtain ⟨next, first⟩ := (succeeds s a).mpr here
      obtain ⟨t, rest⟩ := (ih (s := next)).mpr later
      exact ⟨t, bind_eq_ok_iff.mpr ⟨next, first, rest⟩⟩

theorem forM_eq_ok {f : α → Except ε PUnit} {l : List α} (ran : l.forM f = .ok ⟨⟩) : ∀ a ∈ l, f a = .ok ⟨⟩ := by
  induction l with
  | nil => exact fun _ member => absurd member List.not_mem_nil
  | cons a l ih =>
    obtain ⟨_, first, rest⟩ := bind_eq_ok_iff.mp ran
    exact List.forall_mem_cons.mpr ⟨first, ih rest⟩

/-- What every successful step of a monadic fold preserves holds after it. -/
theorem foldlM_invariant {f : σ → α → Except ε σ} {Inv : σ → Prop}
    (preserved : ∀ s a t, Inv s → f s a = .ok t → Inv t) {l : List α} {s t : σ} (initial : Inv s)
    (ran : l.foldlM f s = .ok t) : Inv t := by
  induction l generalizing s with
  | nil => exact Except.ok.inj ran ▸ initial
  | cons a l ih =>
    rw [List.foldlM_cons] at ran
    obtain ⟨next, first, rest⟩ := bind_eq_ok_iff.mp ran
    exact ih (preserved s a next initial first) rest

theorem bind_of_commutes {x : Except ε α} {g : β → β} {k k' : α → Except ε β}
    (commutes : ∀ a, k' a = (k a).map g) : x.bind k' = (x.bind k).map g := by
  cases x with
  | error e => rfl
  | ok a => exact commutes a

/-- A bind whose continuation commutes with changes of its argument and of its result. -/
theorem bind_map_of_commutes {x : Except ε α} {f : α → α} {g : β → β} {k k' : α → Except ε β}
    (commutes : ∀ a, k' (f a) = (k a).map g) : (x.map f).bind k' = (x.bind k).map g := by
  cases x with
  | error e => rfl
  | ok a => exact commutes a

/-- A fold whose steps commute with a change of the state commutes with it. -/
theorem foldlM_map {f : σ → α → Except ε σ} {g : σ → σ} (commutes : ∀ s a, f (g s) a = (f s a).map g) (l : List α)
    (s : σ) : l.foldlM f (g s) = (l.foldlM f s).map g := by
  induction l generalizing s with
  | nil => rfl
  | cons a l ih =>
    rw [List.foldlM_cons, List.foldlM_cons, commutes]
    cases f s a with
    | error e => rfl
    | ok next => exact ih next

end Except

namespace ExceptT

universe u

variable {ε σ α β : Type u} {first : ExceptT ε (StateM σ) α} {next : α → ExceptT ε (StateM σ) β} {s t : σ}

/-- A sequence goes on from where its first part has returned. -/
theorem bind_of_ok {a : α} (ran : first s = (.ok a, t)) : (first >>= next) s = next a t := by
  change ExceptT.bindCont next (first s).1 (first s).2 = _
  rw [ran]
  rfl

/-- A sequence ends where its first part has thrown. -/
theorem bind_of_error {e : ε} (ran : first s = (.error e, t)) : (first >>= next) s = (.error e, t) := by
  change ExceptT.bindCont next (first s).1 (first s).2 = _
  rw [ran]
  rfl

end ExceptT
