import Mathlib.Algebra.Ring.Nat
import Mathlib.Data.List.Basic
import Mathlib.Data.List.Induction

/-! # Finite labelled runs, their invariants and simulations

A machine is given by its step relation, or by a partial step function that rejects the labels it
does not offer. `Run` is the finite execution of a list of labels. What each step preserves holds
at the end of every run, also when it speaks of the labels taken so far; a guard restricts the labels
that may be taken in the state at hand; a map of states that matches steps by runs carries whole runs
along, and so does a projection, which drops the labels that it does not show.
-/

namespace Machine

variable {σ τ ε κ : Type*}

/-- Executing the labels one after another leads from `s` to `t`. -/
def Run (Step : σ → ε → σ → Prop) (s : σ) : List ε → σ → Prop
  | [], t => t = s
  | e :: es, t => ∃ next, Step s e next ∧ Run Step next es t

/-- The steps whose label is allowed in the state before the step. -/
def Guarded (Step : σ → ε → σ → Prop) (allowed : σ → ε → Prop) (s : σ) (e : ε) (t : σ) : Prop :=
  allowed s e ∧ Step s e t

/-- The steps of a partial step function. -/
def Steps (step : σ → ε → Option σ) (s : σ) (e : ε) (t : σ) : Prop := step s e = some t

/-- A partial step function that tests a guard first. -/
def guardedStep (step : σ → ε → Option σ) (allowed : σ → ε → Prop) [∀ s e, Decidable (allowed s e)]
    (s : σ) (e : ε) : Option σ :=
  if allowed s e then step s e else none

namespace Run

variable {Step : σ → ε → σ → Prop}

theorem nil (s : σ) : Run Step s [] s := rfl

theorem single {s t : σ} {e : ε} (step : Step s e t) : Run Step s [e] t := ⟨t, step, rfl⟩

theorem concat {s t next : σ} {es : List ε} {e : ε} (run : Run Step s es t) (step : Step t e next) :
    Run Step s (es ++ [e]) next := by
  induction es generalizing s with
  | nil =>
    obtain rfl := run
    exact single step
  | cons first es ih =>
    obtain ⟨mid, taken, rest⟩ := run
    exact ⟨mid, taken, ih rest⟩

theorem concat_iff {s t : σ} {es : List ε} {e : ε} :
    Run Step s (es ++ [e]) t ↔ ∃ mid, Run Step s es mid ∧ Step mid e t := by
  refine ⟨fun run => ?_, fun ⟨mid, run, step⟩ => run.concat step⟩
  induction es generalizing s with
  | nil =>
    obtain ⟨next, step, rfl⟩ := run
    exact ⟨s, rfl, step⟩
  | cons first es ih =>
    obtain ⟨next, taken, rest⟩ := run
    obtain ⟨mid, run, step⟩ := ih rest
    exact ⟨mid, ⟨next, taken, run⟩, step⟩

/-- What holds initially and survives every step holds at the end of every run. -/
theorem invariant {Inv : σ → Prop} (preserved : ∀ s e t, Inv s → Step s e t → Inv t) {s t : σ}
    {es : List ε} (initial : Inv s) (run : Run Step s es t) : Inv t := by
  induction es generalizing s with
  | nil =>
    obtain rfl := run
    exact initial
  | cons e es ih =>
    obtain ⟨next, step, rest⟩ := run
    exact ih (preserved s e next initial step) rest

/-- An invariant that speaks of the labels of the run too. -/
theorem history {Inv : List ε → σ → Prop} {s t : σ} {es : List ε} (initial : Inv [] s)
    (preserved : ∀ done mid e next, Run Step s done mid → Inv done mid → Step mid e next → Inv (done ++ [e]) next)
    (run : Run Step s es t) : Inv es t := by
  induction es using List.reverseRecOn generalizing t with
  | nil =>
    obtain rfl := run
    exact initial
  | append_singleton es e ih =>
    obtain ⟨mid, before, step⟩ := concat_iff.mp run
    exact preserved es mid e t before (ih before) step

/-- Amortised cost: every step is paid from the potential of its state or from what its label brings in. -/
theorem cost_add_le {Inv : σ → Prop} {cost gain : ε → ℕ} {μ : σ → ℕ} (preserved : ∀ s e t, Inv s → Step s e t → Inv t)
    (paid : ∀ s e t, Inv s → Step s e t → cost e + μ t ≤ μ s + gain e) {s t : σ} {es : List ε} (initial : Inv s)
    (run : Run Step s es t) : (es.map cost).sum + μ t ≤ μ s + (es.map gain).sum := by
  induction es generalizing s with
  | nil =>
    obtain rfl := run
    exact Nat.le_of_eq (Nat.add_comm _ _)
  | cons e es ih =>
    obtain ⟨next, step, rest⟩ := run
    have later := ih (preserved s e next initial step) rest
    have now := paid s e next initial step
    rw [List.map_cons, List.sum_cons, List.map_cons, List.sum_cons]
    omega

/-- Weaker step relations have the runs of stronger ones. -/
theorem mono {Other : σ → ε → σ → Prop} (weaken : ∀ s e t, Step s e t → Other s e t) {s t : σ}
    {es : List ε} (run : Run Step s es t) : Run Other s es t := by
  induction es generalizing s with
  | nil => exact run
  | cons e es ih =>
    obtain ⟨next, step, rest⟩ := run
    exact ⟨next, weaken s e next step, ih rest⟩

/-- A map of states that turns each step into one with the label's image, or into none, maps whole runs. -/
theorem project {Other : τ → κ → τ → Prop} {f : σ → τ} {label : ε → Option κ}
    (moves : ∀ s e t k, Step s e t → label e = some k → Other (f s) k (f t))
    (stays : ∀ s e t, Step s e t → label e = none → f t = f s) {s t : σ} {es : List ε} (run : Run Step s es t) :
    Run Other (f s) (es.filterMap label) (f t) := by
  induction es generalizing s with
  | nil =>
    obtain rfl := run
    exact nil (f t)
  | cons e es ih =>
    obtain ⟨next, step, rest⟩ := run
    cases image : label e with
    | none =>
      rw [List.filterMap_cons_none image, ← stays s e next step image]
      exact ih rest
    | some k =>
      rw [List.filterMap_cons_some image]
      exact ⟨f next, moves s e next k step image, ih rest⟩

/-- A run whose labels all satisfy `P` is a run guarded by `P`. -/
theorem guard_labels {P : ε → Prop} {s t : σ} {es : List ε} (holds : ∀ e ∈ es, P e)
    (run : Run Step s es t) : Run (Guarded Step fun _ e => P e) s es t := by
  induction es generalizing s with
  | nil => exact run
  | cons e es ih =>
    obtain ⟨next, step, rest⟩ := run
    exact ⟨next, ⟨holds e List.mem_cons_self, step⟩, ih (fun e member => holds e (List.mem_cons_of_mem _ member)) rest⟩

theorem of_foldlM {step : σ → ε → Option σ} {s t : σ} {es : List ε} (executed : es.foldlM step s = some t) :
    Run (Steps step) s es t := by
  induction es generalizing s with
  | nil => exact (Option.some.inj executed).symm
  | cons e es ih =>
    rw [List.foldlM_cons, Option.bind_eq_bind, Option.bind_eq_some_iff] at executed
    obtain ⟨next, taken, rest⟩ := executed
    exact ⟨next, taken, ih rest⟩

/-- A guarded run is executed by testing the guard before every step. -/
theorem of_foldlM_guarded {step : σ → ε → Option σ} {allowed : σ → ε → Prop}
    [∀ s e, Decidable (allowed s e)] {s t : σ} {es : List ε}
    (executed : es.foldlM (guardedStep step allowed) s = some t) :
    Run (Guarded (Steps step) allowed) s es t := by
  induction es generalizing s with
  | nil => exact (Option.some.inj executed).symm
  | cons e es ih =>
    rw [List.foldlM_cons, Option.bind_eq_bind, Option.bind_eq_some_iff] at executed
    obtain ⟨next, tested, rest⟩ := executed
    rw [guardedStep] at tested
    split at tested
    · next permitted => exact ⟨next, ⟨permitted, tested⟩, ih rest⟩
    · contradiction

/-- Where the guard decides which steps keep a property, the property holds all along a run exactly
if the run is guarded. -/
theorem always_iff_guarded {step : σ → ε → Option σ} {Inv : σ → Prop} {allowed : σ → ε → Prop}
    (decides : ∀ s e t, Inv s → step s e = some t → (Inv t ↔ allowed s e)) {s t : σ} {es : List ε}
    (initial : Inv s) (run : Run (Steps step) s es t) :
    (∀ done mid, done <+: es → Run (Steps step) s done mid → Inv mid) ↔
      Run (Guarded (Steps step) allowed) s es t := by
  induction es generalizing s with
  | nil =>
    refine iff_of_true (fun done mid front reached => ?_) run
    obtain rfl := List.prefix_nil.mp front
    obtain rfl := reached
    exact initial
  | cons e es ih =>
    obtain ⟨next, taken, rest⟩ := run
    constructor
    · intro always
      have kept := always [e] next ⟨es, rfl⟩ (single taken)
      refine ⟨next, ⟨(decides s e next initial taken).mp kept, taken⟩, (ih kept rest).mp ?_⟩
      intro done mid front reached
      exact always (e :: done) mid (List.cons_prefix_cons.mpr ⟨rfl, front⟩) ⟨next, taken, reached⟩
    · rintro ⟨also, ⟨permitted, again⟩, guarded⟩ done mid front reached
      obtain rfl := Option.some.inj (taken.symm.trans again)
      cases done with
      | nil =>
        obtain rfl := reached
        exact initial
      | cons first done =>
        obtain ⟨rfl, shorter⟩ := List.cons_prefix_cons.mp front
        obtain ⟨second, retaken, onward⟩ := reached
        obtain rfl := Option.some.inj (taken.symm.trans retaken)
        have kept := (decides s first next initial taken).mpr permitted
        exact (ih kept rest).mpr guarded done mid shorter onward

end Run

/-- The run of some labels takes a step. -/
def Taken (Step : σ → ε → σ → Prop) (s : σ) (es : List ε) (mid : σ) (e : ε) (next : σ) : Prop :=
  ∃ done, done ++ [e] <+: es ∧ Run Step s done mid ∧ Step mid e next

namespace Taken

variable {Step : σ → ε → σ → Prop} {s mid next : σ} {es : List ε} {e : ε}

theorem later (taken : Taken Step s es mid e next) (more : List ε) : Taken Step s (es ++ more) mid e next := by
  obtain ⟨done, front, run, step⟩ := taken
  exact ⟨done, front.trans (List.prefix_append _ _), run, step⟩

theorem last (run : Run Step s es mid) (step : Step mid e next) : Taken Step s (es ++ [e]) mid e next :=
  ⟨es, List.prefix_refl _, run, step⟩

end Taken

end Machine
