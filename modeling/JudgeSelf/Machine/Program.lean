import Mathlib.Data.List.Induction
import Mathlib.Data.Set.Defs
import Mathlib.Logic.Function.Iterate

/-! # Programs on a shared store

A program makes calls to a store and goes on with their replies. Several parties with programs of their own
take turns, one call at a time, in any order. Where the calls of each party are local to cells that no other
party writes, every party gets the replies, and so the result, that it gets alone (`interleave_eq_alone`).
-/

namespace Machine

/-- A program that makes calls. -/
inductive Program {Call : Type} (Reply : Call → Type) (α : Type)
  | done (a : α)
  | call (c : Call) (next : Reply c → Program Reply α)

namespace Program

variable {Call : Type} {Reply : Call → Type} {α β σ κ γ : Type}

def bind : Program Reply α → (α → Program Reply β) → Program Reply β
  | done a, f => f a
  | call c next, f => call c fun reply => (next reply).bind f

instance : Monad (Program Reply) where
  pure := done
  bind := bind

/-- A single call. -/
def request (c : Call) : Program Reply (Reply c) := call c done

section Alone

variable (perform : (c : Call) → σ → Reply c × σ)

/-- The result and the store of a program that runs alone. -/
def run : Program Reply α → σ → α × σ
  | done a, s => (a, s)
  | call c next, s => run (next (perform c s).1) (perform c s).2

/-- The next call; a program that is done stays so. -/
def step : Program Reply α × σ → Program Reply α × σ
  | (done a, s) => (done a, s)
  | (call c next, s) => (next (perform c s).1, (perform c s).2)

/-- The number of calls of a program that runs alone. -/
def calls : Program Reply α → σ → ℕ
  | done _, _ => 0
  | call c next, s => calls (next (perform c s).1) (perform c s).2 + 1

variable {perform} {p : Program Reply α} {s : σ}

@[simp] theorem run_pure (a : α) : (pure a : Program Reply α).run perform s = (a, s) := rfl

@[simp] theorem run_request (c : Call) : (request c : Program Reply (Reply c)).run perform s = perform c s := rfl

@[simp] theorem run_bind (f : α → Program Reply β) :
    (p >>= f).run perform s = (f (p.run perform s).1).run perform (p.run perform s).2 := by
  induction p generalizing s with
  | done a => rfl
  | call c next ih => exact ih _

theorem step_done (a : α) (n : ℕ) : (step perform)^[n] (done a, s) = (done a, s) :=
  Function.iterate_fixed rfl n

/-- A program that has made all its calls is done. -/
theorem iterate_step {n : ℕ} (enough : p.calls perform s ≤ n) :
    (step perform)^[n] (p, s) = (done (p.run perform s).1, (p.run perform s).2) := by
  induction p generalizing s n with
  | done a => exact step_done a n
  | call c next ih =>
    cases n with
    | zero => exact absurd enough (Nat.not_succ_le_zero _)
    | succ n =>
      rw [Function.iterate_succ_apply]
      exact ih _ (Nat.le_of_succ_le_succ enough)

end Alone

section Local

variable (read : σ → κ → γ) (perform : (c : Call) → σ → Reply c × σ)

/-- Two stores agree on some cells. -/
def AgreeOn (cells : Set κ) (s t : σ) : Prop := ∀ k ∈ cells, read s k = read t k

/-- A call that sees and changes certain cells only. -/
structure Local (own see : Set κ) (c : Call) : Prop where
  reply : ∀ s t, AgreeOn read see s t → (perform c s).1 = (perform c t).1
  agree : ∀ s t, AgreeOn read see s t → AgreeOn read see (perform c s).2 (perform c t).2
  frame : ∀ s, ∀ k ∉ own, read (perform c s).2 k = read s k

/-- All calls that a program makes, whatever others write in between, are local, and its result is as said. -/
def Within (own see : Set κ) (post : α → Prop) : Program Reply α → Prop
  | done a => post a
  | call c next => Local read perform own see c ∧ ∀ s, Within own see post (next (perform c s).1)

variable {read perform} {own see : Set κ} {post : α → Prop} {p : Program Reply α}

theorem within_request {c : Call} {post : Reply c → Prop} (isLocal : Local read perform own see c)
    (holds : ∀ s, post (perform c s).1) : Within read perform own see post (request c) := ⟨isLocal, holds⟩

theorem within_bind {f : α → Program Reply β} {post' : β → Prop} (first : Within read perform own see post p)
    (second : ∀ a, post a → Within read perform own see post' (f a)) :
    Within read perform own see post' (p >>= f) := by
  induction p with
  | done a => exact second a first
  | call c next ih => exact ⟨first.1, fun s => ih _ (first.2 s)⟩

/-- A step on a store that agrees with another goes on as there. -/
theorem Within.step {s t : σ} (within : Within read perform own see post p) (agree : AgreeOn read see s t) :
    (step perform (p, s)).1 = (step perform (p, t)).1 ∧
      AgreeOn read see (Program.step perform (p, s)).2 (Program.step perform (p, t)).2 ∧
      Within read perform own see post (Program.step perform (p, s)).1 ∧
      ∀ k ∉ own, read (Program.step perform (p, s)).2 k = read s k := by
  cases p with
  | done a => exact ⟨rfl, agree, within, fun _ _ => rfl⟩
  | call c next =>
    obtain ⟨isLocal, rest⟩ := within
    have same := isLocal.reply s t agree
    exact ⟨congrArg next same, isLocal.agree s t agree, rest s, isLocal.frame s⟩

end Local

section Turns

variable {ι : Type} [DecidableEq ι] (perform : ι → (c : Call) → σ → Reply c × σ)

/-- The turn of one party. -/
def turn (system : (ι → Program Reply α) × σ) (i : ι) : (ι → Program Reply α) × σ :=
  (Function.update system.1 i (step (perform i) (system.1 i, system.2)).1, (step (perform i) (system.1 i, system.2)).2)

variable {perform} in
@[simp] theorem turn_self (system : (ι → Program Reply α) × σ) (i : ι) :
    (turn perform system i).1 i = (step (perform i) (system.1 i, system.2)).1 := Function.update_self ..

variable {perform} in
theorem turn_of_ne (system : (ι → Program Reply α) × σ) {i j : ι} (other : j ≠ i) :
    (turn perform system i).1 j = system.1 j := Function.update_of_ne other ..

/-- The parties take turns in the order of a schedule. -/
def interleave (programs : ι → Program Reply α) (s : σ) (schedule : List ι) : (ι → Program Reply α) × σ :=
  schedule.foldl (turn perform) (programs, s)

variable {perform} {read : σ → κ → γ} {own see : ι → Set κ} {post : ι → α → Prop}
  {programs : ι → Program Reply α} {s : σ}

/-- The system under some schedule against the parties alone. -/
structure Apart (perform : ι → (c : Call) → σ → Reply c × σ) (read : σ → κ → γ) (own see : ι → Set κ)
    (post : ι → α → Prop) (alone : ι → Program Reply α × σ) (system : (ι → Program Reply α) × σ) :
    Prop where
  programs : ∀ i, system.1 i = (alone i).1
  within : ∀ i, Within read (perform i) (own i) (see i) (post i) (system.1 i)
  agree : ∀ i, AgreeOn read (see i) system.2 (alone i).2

theorem Apart.turn {alone : ι → Program Reply α × σ} {system : (ι → Program Reply α) × σ}
    (foreign : ∀ i j, i ≠ j → ∀ k ∈ own i, k ∉ see j) (apart : Apart perform read own see post alone system)
    (i : ι) :
    Apart perform read own see post (Function.update alone i (step (perform i) (alone i)))
      (Program.turn perform system i) := by
  obtain ⟨next, agree, within, frame⟩ := (apart.within i).step (apart.agree i)
  have mine : alone i = (system.1 i, (alone i).2) := Prod.ext (apart.programs i).symm rfl
  refine ⟨fun j => ?_, fun j => ?_, fun j => ?_⟩
  · rcases eq_or_ne j i with rfl | other
    · rw [turn_self, Function.update_self, mine]
      exact next
    · rw [turn_of_ne system other, Function.update_of_ne other]
      exact apart.programs j
  · rcases eq_or_ne j i with rfl | other
    · rw [turn_self]
      exact within
    · rw [turn_of_ne system other]
      exact apart.within j
  · rcases eq_or_ne j i with rfl | other
    · rw [Function.update_self, mine]
      exact agree
    · rw [Function.update_of_ne other]
      intro k seen
      have unowned : k ∉ own i := fun owned => foreign i j other.symm k owned seen
      exact (frame k unowned).trans (apart.agree j k seen)

/-- After any schedule each party is where it is alone after as many calls, with the same cells in sight. -/
theorem interleave_eq_alone (foreign : ∀ i j, i ≠ j → ∀ k ∈ own i, k ∉ see j)
    (within : ∀ i, Within read (perform i) (own i) (see i) (post i) (programs i)) (schedule : List ι) (i : ι) :
    (interleave perform programs s schedule).1 i = ((step (perform i))^[schedule.count i] (programs i, s)).1 ∧
      AgreeOn read (see i) (interleave perform programs s schedule).2
        ((step (perform i))^[schedule.count i] (programs i, s)).2 := by
  have apart : Apart perform read own see post (fun i => (step (perform i))^[schedule.count i] (programs i, s))
      (interleave perform programs s schedule) := by
    induction schedule using List.reverseRec with
    | nil => exact ⟨fun _ => rfl, within, fun _ _ _ => rfl⟩
    | append_singleton schedule j ih =>
      have counted : (fun i => (step (perform i))^[(schedule ++ [j]).count i] (programs i, s)) =
          Function.update (fun i => (step (perform i))^[schedule.count i] (programs i, s)) j
            (step (perform j) ((step (perform j))^[schedule.count j] (programs j, s))) := by
        funext i
        rw [List.count_append, List.count_singleton]
        rcases eq_or_ne i j with rfl | other
        · rw [Function.update_self, beq_self_eq_true, if_pos rfl, Function.iterate_succ_apply']
        · rw [Function.update_of_ne other, beq_false_of_ne other.symm, if_neg Bool.false_ne_true, Nat.add_zero]
      rw [counted, interleave, List.foldl_append, List.foldl_cons, List.foldl_nil]
      exact ih.turn foreign j
  exact ⟨apart.programs i, apart.agree i⟩

/-- What belongs to no party stays as it is. -/
theorem interleave_frame (within : ∀ i, Within read (perform i) (own i) (see i) (post i) (programs i))
    (schedule : List ι) {k : κ} (foreign : ∀ i, k ∉ own i) :
    read (interleave perform programs s schedule).2 k = read s k := by
  induction schedule generalizing programs s with
  | nil => rfl
  | cons i schedule ih =>
    obtain ⟨-, -, next, frame⟩ := (within i).step (fun _ _ => rfl : AgreeOn read (see i) s s)
    refine Eq.trans (ih fun j => ?_) (frame k (foreign i))
    rcases eq_or_ne j i with rfl | other
    · rw [Function.update_self]
      exact next
    · rw [Function.update_of_ne other]
      exact within j

/-- A party that had enough turns has the result that it gets alone. -/
theorem interleave_eq_done (foreign : ∀ i j, i ≠ j → ∀ k ∈ own i, k ∉ see j)
    (within : ∀ i, Within read (perform i) (own i) (see i) (post i) (programs i)) {schedule : List ι} {i : ι}
    (enough : (programs i).calls (perform i) s ≤ schedule.count i) :
    (interleave perform programs s schedule).1 i = done ((programs i).run (perform i) s).1 ∧
      AgreeOn read (see i) (interleave perform programs s schedule).2 ((programs i).run (perform i) s).2 := by
  have alone := interleave_eq_alone (s := s) foreign within schedule i
  rwa [iterate_step enough] at alone

end Turns

end Program

end Machine
