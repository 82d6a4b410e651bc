import JudgeSelf.Soundness.CacheCoherence
import JudgeSelf.Soundness.CheckerLock
import Mathlib.Logic.Relation

/-! # One download for each stay of a problem

The observations of the store follow a small abstract machine: a download stores an item under a key
that is free, a caller obtains the item stored under its key, a removal frees the key. Between two
removals of a key there is then at most one download and one item.
-/

namespace JudgeSelf.Engine

open Relation (ReflTransGen)

namespace Observation

/-- A removal of the key; the end of the process removes every key. -/
def ends (key : String) : Observation → Bool
  | .removed k => k = key
  | .exited => true
  | _ => false

def downloads (key : String) : Observation → Bool
  | .downloaded k _ => k = key
  | _ => false

end Observation

/-- The store together with its history. -/
inductive StoreStep : Record String ℕ × List Observation → Record String ℕ × List Observation → Prop
  | downloaded {store history key} (item : ℕ) (absent : store.get? key = none) :
    StoreStep (store, history) (store.set key item, .downloaded key item :: history)
  | obtained {store history key item} (stored : store.get? key = some item) :
    StoreStep (store, history) (store, .obtained key item :: history)
  | removed {store history} (key : String) : StoreStep (store, history) (store.erase key, .removed key :: history)
  | exited {store history} : StoreStep (store, history) (Record.empty, .exited :: history)

/-- The observations since the last removal of the key. -/
def since (key : String) (history : List Observation) : List Observation := history.takeWhile (!·.ends key)

private theorem since_cons (key : String) (o : Observation) (history : List Observation) :
    since key (o :: history) = if o.ends key then [] else o :: since key history := by
  rw [since, List.takeWhile_cons]
  cases o.ends key <;> rfl

/-- Downloads of the key and items obtained under it. -/
def OnceSince (key : String) (history : List Observation) : Prop :=
  (since key history).countP (·.downloads key) ≤ 1 ∧
    ∀ i j, .obtained key i ∈ since key history → .obtained key j ∈ since key history → i = j

/-- What has been seen since the last removal of a key is what is stored. -/
structure Recorded (state : Record String ℕ × List Observation) : Prop where
  obtained : ∀ key item, .obtained key item ∈ since key state.2 → state.1.get? key = some item
  downloads : ∀ key, (since key state.2).countP (·.downloads key) ≤ (state.1.get? key).elim 0 fun _ => 1
  past : ∀ back, back <:+ state.2 → ∀ key, OnceSince key back

private theorem onceSince_of_current {store : Record String ℕ} {history : List Observation} {key : String}
    (obtained : ∀ item, .obtained key item ∈ since key history → store.get? key = some item)
    (downloads : (since key history).countP (·.downloads key) ≤ (store.get? key).elim 0 fun _ => 1) :
    OnceSince key history := by
  refine ⟨downloads.trans ?_, fun i j first second => ?_⟩
  · cases store.get? key with
    | none => exact Nat.zero_le 1
    | some item => exact le_rfl
  · have same := obtained i first
    rw [obtained j second] at same
    exact (Option.some.inj same).symm

/-- One more observation that agrees with the store. -/
private theorem recorded_cons {store store' : Record String ℕ} {history : List Observation} {o : Observation}
    (recorded : Recorded (store, history))
    (obtained : ∀ key item, .obtained key item ∈ since key (o :: history) → store'.get? key = some item)
    (downloads : ∀ key, (since key (o :: history)).countP (·.downloads key) ≤ (store'.get? key).elim 0 fun _ => 1) :
    Recorded (store', o :: history) := by
  refine ⟨obtained, downloads, fun back suffix key => ?_⟩
  rcases List.suffix_cons_iff.mp suffix with rfl | earlier
  · exact onceSince_of_current (obtained key) (downloads key)
  · exact recorded.past back earlier key

theorem Recorded.step {state state' : Record String ℕ × List Observation} (recorded : Recorded state)
    (step : StoreStep state state') : Recorded state' := by
  cases step with
  | @downloaded store history key item absent =>
    refine recorded_cons recorded (fun k i member => ?_) fun k => ?_
    · rw [since_cons, if_neg (by simp [Observation.ends])] at member
      have before := recorded.obtained k i ((List.mem_cons.mp member).resolve_left Observation.noConfusion)
      rw [Record.get?_set, if_neg]
      · exact before
      · rintro rfl
        rw [absent] at before
        contradiction
    · have before := recorded.downloads k
      rw [since_cons, if_neg (by simp [Observation.ends]), Record.get?_set]
      by_cases same : k = key
      · subst same
        rw [absent] at before
        rw [List.countP_cons_of_pos (by simp [Observation.downloads]), if_pos rfl]
        exact Nat.succ_le_succ before
      · rw [List.countP_cons_of_neg (by simpa [Observation.downloads] using Ne.symm same), if_neg same]
        exact before
  | @obtained store history key item stored =>
    refine recorded_cons recorded (fun k i member => ?_) fun k => ?_
    · rw [since_cons, if_neg (by simp [Observation.ends])] at member
      rcases List.mem_cons.mp member with same | before
      · obtain ⟨rfl, rfl⟩ := Observation.obtained.inj same
        exact stored
      · exact recorded.obtained k i before
    · rw [since_cons, if_neg (by simp [Observation.ends]), List.countP_cons_of_neg (by simp [Observation.downloads])]
      exact recorded.downloads k
  | @removed store history key =>
    refine recorded_cons recorded (fun k i member => ?_) fun k => ?_
    · rw [since_cons] at member
      split at member
      · contradiction
      · next kept =>
        have other : k ≠ key := fun same => kept (by simp [Observation.ends, same])
        rw [Record.get?_erase, if_neg other]
        exact recorded.obtained k i ((List.mem_cons.mp member).resolve_left Observation.noConfusion)
    · rw [since_cons]
      split
      · exact Nat.zero_le _
      · next kept =>
        have other : k ≠ key := fun same => kept (by simp [Observation.ends, same])
        rw [List.countP_cons_of_neg (by simp [Observation.downloads]), Record.get?_erase, if_neg other]
        exact recorded.downloads k
  | @exited store history =>
    have emptied (k : String) : since k (.exited :: history) = [] := rfl
    refine recorded_cons recorded (fun k i member => ?_) fun k => ?_
    · rw [emptied] at member
      contradiction
    · rw [emptied]
      exact Nat.zero_le _

private theorem recorded_empty : Recorded (Record.empty, []) := by
  refine ⟨fun _ _ member => absurd member List.not_mem_nil, fun _ => Nat.zero_le _, fun back suffix key => ?_⟩
  obtain rfl := List.suffix_nil.mp suffix
  exact ⟨Nat.zero_le _, fun _ _ member => absurd member List.not_mem_nil⟩

theorem Recorded.steps {state state' : Record String ℕ × List Observation} (recorded : Recorded state)
    (steps : ReflTransGen StoreStep state state') : Recorded state' := by
  induction steps with
  | refl => exact recorded
  | tail _ last ih => exact ih.step last

/-- A period without a removal of the key, anywhere in the history. -/
theorem Recorded.period {state : Record String ℕ × List Observation} (recorded : Recorded state) {key : String}
    {front period back : List Observation} (split : state.2 = front ++ period ++ back)
    (stays : ∀ o ∈ period, ¬ o.ends key) :
    period.countP (·.downloads key) ≤ 1 ∧ ∀ i j, .obtained key i ∈ period → .obtained key j ∈ period → i = j := by
  have suffix : period ++ back <:+ state.2 := ⟨front, by rw [split, List.append_assoc]⟩
  obtain ⟨once, same⟩ := recorded.past _ suffix key
  have whole : since key (period ++ back) = period ++ since key back :=
    List.takeWhile_append_of_pos fun o member => by simpa using stays o member
  rw [whole] at once same
  rw [List.countP_append] at once
  exact ⟨le_of_add_le_left once, fun i j first second =>
    same i j (List.mem_append_left _ first) (List.mem_append_left _ second)⟩

namespace CacheSystem

variable {archives : String → ℤ → Directory} {outputs : Option String → String → Prop} {s t : CacheSystem}

/-- Any number of observations between two states. -/
abbrev Follows (s t : CacheSystem) : Prop := ReflTransGen StoreStep (s.store, s.history) (t.store, t.history)

theorem Coherent.follows (coherent : s.Coherent archives outputs) {event : CacheEvent}
    (taken : s.step archives event = some t) : s.Follows t := by
  cases effect_of_step taken with
  | found _ stored | foundLocked _ stored => exact .single (.obtained stored)
  | @downloaded worker _ _ _ at_ =>
    have absent := coherent.stages worker
    rw [at_] at absent
    -- the download stores the item and then returns it
    exact .tail (.single (.downloaded s.allocated (absent.2 rfl))) (.obtained (Record.get?_set_self _ _ _))
  | @cleanRemove key => exact .single (.removed key)
  | exit => exact .single .exited
  | _ => exact .refl

/-- All that holds of the caches in every reachable state. -/
structure Sound (archives : String → ℤ → Directory) (outputs : Option String → String → Prop) (s : CacheSystem) :
    Prop where
  pointers : s.Pointers
  locked : s.StoreLocked
  coherent : s.Coherent archives outputs
  recorded : Recorded (s.store, s.history)

theorem sound_of_run {events : List CacheEvent} (run : Machine.Run (Machine.Steps (step archives)) start events s) :
    s.Sound archives fun source bin => ∃ event ∈ events, event.Yields source bin := by
  refine (run.guard_labels fun _ member => member).invariant (fun s event t sound ⟨member, taken⟩ => ?_)
    ⟨pointers_start, storeLocked_start, coherent_start, recorded_empty⟩
  exact ⟨sound.pointers.step taken, sound.locked.step taken,
    sound.coherent.step sound.pointers sound.locked (fun _ _ yields => ⟨event, member, yields⟩) taken,
    sound.recorded.steps (sound.coherent.follows taken)⟩

end CacheSystem

/-- In every reachable state a key has at most one item, every period without a removal of the key has at most
one download of it and one item for all callers, and the cached binary of a stored item is what a compilation
of the run has yielded for the checker of the archive. -/
theorem problem_cache_coherent {archives : String → ℤ → Directory} {events : List CacheEvent} {s : CacheSystem}
    (run : Machine.Run (Machine.Steps (CacheSystem.step archives)) .start events s) :
    (∀ key, s.store.entries.countP (·.1 = key) ≤ 1) ∧
      (∀ key front period back, s.history = front ++ period ++ back → (∀ o ∈ period, ¬ o.ends key) →
        period.countP (·.downloads key) ≤ 1 ∧
          ∀ i j, .obtained key i ∈ period → .obtained key j ∈ period → i = j) ∧
      ∀ id version item bin, s.store.get? (cacheKey id version) = some item →
        (s.items item).compiledBin = some bin →
          ∃ event ∈ events, event.Yields (archives id version "checker") bin := by
  have sound := CacheSystem.sound_of_run run
  refine ⟨fun key => ?_, fun key front period back split stays => sound.recorded.period split stays,
    sound.coherent.binaries⟩
  have unique := List.nodup_iff_count_le_one.mp s.store.nodup key
  rwa [List.count_eq_countP, List.countP_map] at unique

/-- The binary of worker 1 stays with the item that worker 2 obtains. -/
theorem compiled_checker_coherent : ∃ final,
    (checkerCompiled noCompilers ++ nextJob).foldlM (CacheSystem.step checkerArchive) .start = some final ∧
      final.store.get? (cacheKey "p" 1) = some 0 ∧ (final.items 0).compiledBin = some "int main" ∧
      final.history.countP (·.downloads (cacheKey "p" 1)) ≤ 1 ∧
      ∃ event ∈ checkerCompiled noCompilers ++ nextJob, event.Yields (some "int main") "int main" := by
  have ended : ((checkerCompiled noCompilers ++ nextJob).foldlM (CacheSystem.step checkerArchive) .start).map
      (fun final => (final.store.get? (cacheKey "p" 1), (final.items 0).compiledBin,
        final.history.all fun o => !o.ends (cacheKey "p" 1))) = some (some 0, some "int main", true) := by
    decide +kernel
  obtain ⟨final, executed, state⟩ := Option.map_eq_some_iff.mp ended
  simp only [Prod.mk.injEq] at state
  obtain ⟨stored, compiled, stays⟩ := state
  obtain ⟨_, periods, binaries⟩ := problem_cache_coherent (.of_foldlM executed)
  have kept : ∀ o ∈ final.history, ¬ o.ends (cacheKey "p" 1) := fun o member => by
    simpa using List.all_eq_true.mp stays o member
  exact ⟨final, executed, stored, compiled, (periods _ [] final.history [] (by simp) kept).1,
    binaries _ _ _ _ stored compiled⟩

end JudgeSelf.Engine
