import JudgeSelf.Model.Engine.CachedPool
import JudgeSelf.Soundness.CacheProgress
import JudgeSelf.Soundness.Draining

/-! # Where the engine stops

Where settlements reach the broker and every checker compiles, the engine only stops when the broker is empty, and
the accepted submissions then have their verdicts. The workers wait for the locks of the archive cache, which always
goes on.
-/

namespace JudgeSelf.Engine

open Machine (Run Guarded Steps)

variable {n : ℕ} {s t : System}

/-- While the connection stands, settlements reach the broker. -/
def System.Reaches (s : System) : Event → Prop
  | .consume sent => sent = true ∨ s.pool.consuming = false
  | .settle _ sent => sent = true ∨ s.pool.consuming = false
  | _ => True

/-- No step of the engine is offered. -/
def System.Stopped (n : ℕ) (s : System) : Prop :=
  ∀ event, event.isWork = true → s.Offered n event → s.step event = none

namespace System

/-- While the connection stands, the broker waits for what the process holds. -/
structure Covered (n : ℕ) (s : System) : Prop where
  windowed : s.Windowed n
  covered : s.pool.consuming = true → (s.pool.heldTags n).Perm (s.stores.broker.unacked.map Prod.fst)

private theorem covered_start : start.Covered n :=
  ⟨windowed_start, fun _ => List.Perm.of_eq (Pool.heldTags_start n)⟩

private theorem covered_exit (windowed : s.exit.Windowed n) : s.exit.Covered n :=
  ⟨windowed, fun _ => List.Perm.of_eq (Pool.heldTags_start n)⟩

/-- Settling a delivery that is no longer held. -/
theorem perm_settle {broker : Machine.Broker SubmissionService.Payload} {tag : ℕ} {others : List ℕ}
    (covered : (tag :: others).Perm (broker.unacked.map Prod.fst)) (distinct : (tag :: others).Nodup) :
    others.Perm ((broker.settle tag).unacked.map Prod.fst) := by
  have fresh : ∀ other ∈ others, decide (other ≠ tag) = true := by
    intro other member
    refine decide_eq_true ?_
    rintro rfl
    exact (List.nodup_cons.mp distinct).1 member
  have filtered := covered.filter fun other => decide (other ≠ tag)
  rw [List.filter_cons_of_neg (by simp), List.filter_eq_self.mpr fresh, List.filter_map] at filtered
  exact filtered

theorem Covered.consume (state : s.Covered n) {sent : Bool} {delivery : ℕ × SubmissionService.Payload}
    {deliveries : List (ℕ × SubmissionService.Payload)} (head : s.pool.deliveries = delivery :: deliveries)
    (reaches : sent = true ∨ s.pool.consuming = false) : (s.consume sent delivery deliveries).Covered n := by
  refine ⟨state.windowed.consume head, ?_⟩
  have front := Pool.heldTags_read (n := n) head
  have distinct := state.windowed.distinct
  rw [front] at distinct
  rw [System.consume]
  split
  · next data _ =>
    have held := { s.pool with deliveries }.heldTags_send (n := n) ⟨delivery.1, data⟩
    rw [← front] at held
    exact fun consuming => held.trans (state.covered consuming)
  · rcases reaches with rfl | lost
    · intro consuming
      have covered := state.covered consuming
      rw [front] at covered
      exact perm_settle covered distinct
    · cases sent with
      | false | true => exact fun consuming => absurd (lost.symm.trans consuming) (by decide)

theorem Covered.settle (state : s.Covered n) {worker : ℕ} {sent : Bool} {job : Received} {error : Option String}
    {verdict : Option Verdict} (stage : s.pool.workers worker = .returned job error verdict)
    (reaches : sent = true ∨ s.pool.consuming = false) : (s.settle worker sent job verdict).Covered n := by
  have windowed : (s.settle worker sent job verdict).Windowed n := state.windowed.settle stage
  have busy : (s.pool.workers worker).tag? = some job.tag := by rw [stage, Stage.tag?]
  have front := s.pool.heldTags_free (state.windowed.counted busy) busy
  cases verdict with
  | none => exact covered_exit windowed
  | some verdict =>
    refine ⟨windowed, ?_⟩
    rcases reaches with rfl | lost
    · intro consuming
      exact perm_settle (front.symm.trans (state.covered consuming)) (front.nodup_iff.mp state.windowed.distinct)
    · cases sent with
      | false | true => exact fun consuming => absurd (lost.symm.trans consuming) (by decide)

theorem Covered.setWorker (state : s.Covered n) {worker tag : ℕ} {stage : Stage}
    (windowed : { s with pool := s.pool.setWorker worker stage }.Windowed n)
    (busy : (s.pool.workers worker).tag? = some tag) (same : stage.tag? = some tag) :
    { s with pool := s.pool.setWorker worker stage }.Covered n := by
  have held := s.pool.heldTags_setWorker (state.windowed.counted busy) (same.trans busy.symm)
  exact ⟨windowed, fun consuming => held.trans (state.covered consuming)⟩

theorem Covered.of_eq (state : s.Covered n) (pool : t.pool = s.pool)
    (unacked : t.stores.broker.unacked = s.stores.broker.unacked) : t.Covered n := by
  refine ⟨state.windowed.of_eq pool unacked, ?_⟩
  rw [pool, unacked]
  exact state.covered

theorem Covered.step (state : s.Covered n) (positive : 0 < n) {event : Event} (offered : s.Offered n event)
    (reaches : s.Reaches event) (taken : s.step event = some t) : t.Covered n := by
  have windowed := state.windowed.step positive offered taken
  cases effect_of_step taken with
  | rejected => exact state
  | beginSubmit => exact state.of_eq rfl rfl
  | take => exact state.of_eq rfl rfl
  | concludeSubmit _ _ rows _ =>
    refine state.of_eq rfl ?_
    rcases rows with rfl | rfl <;> rfl
  | inject => exact state.of_eq rfl rfl
  | @deliver delivery broker consuming delivered =>
    obtain ⟨-, unacked, -⟩ := Machine.Broker.deliver_eq_some delivered
    refine ⟨windowed, fun _ => (s.pool.heldTags_deliver delivery).trans ?_⟩
    change (delivery.1 :: s.pool.heldTags n).Perm (broker.unacked.map Prod.fst)
    rw [unacked, List.map_append]
    exact ((state.covered consuming).cons delivery.1).trans (List.perm_append_singleton _ _).symm
  | consume head => exact state.consume head reaches
  | receive idle head =>
    exact ⟨windowed, fun consuming => (Pool.heldTags_receive offered idle head).trans (state.covered consuming)⟩
  | call called =>
    obtain ⟨tag, busy, same⟩ := tag?_call called
    exact state.setWorker windowed busy same
  | @postExecute worker error job problemData results stage =>
    have busy : (s.pool.workers worker).tag? = some job.tag := by rw [stage, Stage.tag?]
    rw [System.postExecute] at windowed ⊢
    split at windowed
    · exact covered_exit windowed
    · next after _ =>
      have returned :
          { s with pool := s.pool.setWorker worker (.returned job after.error (some after.verdict)) }.Windowed n :=
        windowed.of_eq rfl (by split <;> rfl)
      exact (state.setWorker returned busy rfl).of_eq rfl (by split <;> rfl)
  | settle stage => exact state.settle stage reaches
  | connectionLost => exact ⟨windowed, fun consuming => by contradiction⟩
  | exit => exact covered_exit windowed

theorem Stopped.deliveries (stopped : s.Stopped n) : s.pool.deliveries = [] := by
  cases waiting : s.pool.deliveries with
  | nil => rfl
  | cons delivery deliveries =>
    have refused := stopped (.consume true) rfl trivial
    rw [step, waiting] at refused
    contradiction

/-- Every stage but one offers a step. -/
theorem Stopped.idle (stopped : s.Stopped n) (worker : ℕ) : s.pool.workers worker = .idle := by
  cases stage : s.pool.workers worker with
  | idle => rfl
  | started job =>
    have refused := stopped (.call worker (.mkdirAll none)) rfl trivial
    rw [step, stage] at refused
    contradiction
  | prepared job =>
    have refused := stopped (.call worker (.preExecute (.error ""))) rfl trivial
    rw [step, stage] at refused
    contradiction
  | loaded job problemData =>
    have refused := stopped (.call worker (.executeWorker (steadyIsolate none "") idleWorker)) rfl trivial
    rw [step, stage] at refused
    contradiction
  | executed job problemData results =>
    have refused := stopped (.postExecute worker none) rfl trivial
    rw [step, stage] at refused
    contradiction
  | returned job error verdict =>
    have refused := stopped (.settle worker true) rfl trivial
    rw [step, stage] at refused
    contradiction

theorem Stopped.jobQueue (stopped : s.Stopped n) (positive : 0 < n) : s.pool.jobQueue = [] := by
  cases waiting : s.pool.jobQueue with
  | nil => rfl
  | cons job jobQueue =>
    have refused := stopped (.receive 1) rfl ⟨le_rfl, positive⟩
    rw [step, stopped.idle, waiting] at refused
    contradiction

theorem Stopped.heldTags (stopped : s.Stopped n) (positive : 0 < n) : s.pool.heldTags n = [] := by
  have idle : s.pool = ⟨s.pool.consuming, [], [], fun _ => .idle⟩ := by
    rw [← stopped.deliveries, ← stopped.jobQueue positive]
    rw [← funext stopped.idle]
  rw [idle]
  exact Pool.heldTags_start n

theorem Stopped.ready (stopped : s.Stopped n) (consuming : s.pool.consuming = true)
    (room : s.stores.broker.unacked.length < n) : s.stores.broker.ready = [] := by
  have refused := stopped .deliver rfl (.inr room)
  rw [step, if_pos consuming, Option.map_eq_none_iff, Machine.Broker.deliver] at refused
  split at refused
  · next empty => exact empty
  · contradiction

/-- A process that holds nothing offers nothing but a delivery. -/
theorem stopped_of_heldTags (windowed : s.Windowed n) (ready : s.stores.broker.ready = [])
    (held : s.pool.heldTags n = []) : s.Stopped n := by
  obtain ⟨first, stages⟩ := List.append_eq_nil_iff.mp held
  obtain ⟨deliveries, jobQueue⟩ := List.append_eq_nil_iff.mp first
  rw [List.map_eq_nil_iff] at deliveries jobQueue
  have idle (worker : ℕ) : s.pool.workers worker = .idle := by
    rcases em (1 ≤ worker ∧ worker ≤ n) with counted | beyond
    · have stage := List.filterMap_eq_nil_iff.mp stages (s.pool.workers worker)
        (List.mem_map_of_mem (List.mem_range'_1.mpr (by omega)))
      cases current : s.pool.workers worker <;> simp_all [Stage.tag?]
    · exact windowed.outside worker beyond
  intro event work _
  cases event with
  | deliver =>
    rw [step, Machine.Broker.deliver, ready]
    exact ite_self _
  | consume sent => rw [step, deliveries]
  | receive worker => rw [step, idle, jobQueue]
  | call worker call =>
    rw [step, idle]
    cases call with
    | mkdirAll error => cases error <;> rfl
    | preExecute loaded => cases loaded <;> rfl
    | executeWorker => rfl
  | postExecute worker error => rw [step, idle]
  | settle worker sent => rw [step, idle]
  | _ => contradiction

end System

/-- Where a worker may be in the cache at a stage of its job. -/
def Stage.Admits : Stage → CacheStage → Prop
  | .prepared _, .idle | .prepared _, .loading .preExecute _ _ | .prepared _, .loaded _ => True
  | .loaded _ _, .loaded _ | .loaded _ _, .loading .compileCheckerCode _ _ | .loaded _ _, .compiling _ _ _
  | .loaded _ _, .returned _ => True
  | .idle, .idle | .started _, .idle | .executed _ _ _, .idle | .returned _ _ _, .idle => True
  | _, _ => False

/-- The next call is none that goes through the cache. -/
def Stage.outside : Stage → Bool
  | .prepared _ | .loaded _ _ => false
  | .idle | .started _ | .executed _ _ _ | .returned _ _ _ => true

/-- Between its calls of the cache a worker is in none of them. -/
theorem Stage.Admits.eq_idle {stage : Stage} {inside : CacheStage} (admits : stage.Admits inside)
    (outside : stage.outside = true) : inside = .idle := by
  cases stage with
  | prepared | loaded => contradiction
  | idle | started | executed | returned => cases inside <;> first | rfl | exact admits.elim

namespace CachedSystem

variable {archives : String → ℤ → Directory} {s t : CachedSystem}

def Admitted (s : CachedSystem) : Prop :=
  ∀ worker, (s.system.pool.workers worker).Admits (s.cache.workers worker)

/-- One worker moves in the cache. -/
private theorem Admitted.move (admitted : s.Admitted) {here : ℕ} {stage : CacheStage} {cache : CacheSystem}
    (moved : cache.workers = Function.update s.cache.workers here stage)
    (goes : (s.system.pool.workers here).Admits stage) : CachedSystem.Admitted { s with cache } := by
  intro worker
  dsimp only
  rw [moved]
  rcases eq_or_ne worker here with rfl | differs
  · rw [Function.update_self]
    exact goes
  · rw [Function.update_of_ne differs]
    exact admitted worker

/-- A step of the cache keeps each worker where its job admits it. -/
theorem Admitted.cache (admitted : s.Admitted) {event : CacheEvent} (asks : s.Asks event) {cache : CacheSystem}
    (taken : s.cache.step archives event = some cache) : CachedSystem.Admitted { s with cache } := by
  -- The stage of the job admits the next stage of the same call.
  have within {here : ℕ} {before after : CacheStage} (at_ : s.cache.workers here = before)
      (next : ∀ stage : Stage, stage.Admits before → stage.Admits after) :
      (s.system.pool.workers here).Admits after := next _ (at_ ▸ admitted here)
  cases CacheSystem.effect_of_step taken with
  | @preExecute here problem at_ =>
    obtain ⟨job, stage, -⟩ := asks
    exact admitted.move rfl (by rw [stage]; trivial)
  | compileCheckerCode at_ =>
    obtain ⟨job, problemData, stage⟩ := asks
    exact admitted.move rfl (by rw [stage]; trivial)
  | @storeRLock _ caller _ _ at_ | @missing _ caller _ _ at_ | @storeLock _ caller _ _ at_
  | @missingLocked _ caller _ at_ =>
    exact admitted.move rfl (within at_ fun stage admits => by cases caller <;> cases stage <;> exact admits)
  | @found _ _ caller _ _ at_ | @foundLocked _ _ caller _ _ at_ | @downloaded _ caller _ _ at_ =>
    refine admitted.move rfl (within at_ fun stage admits => ?_)
    cases caller <;> cases stage <;> trivial
  | itemRLock at_ | compiled at_ | uncompiled at_ | itemLock at_ | compiledLocked at_ | uncompiledLocked at_
  | readSource at_ | compile at_ | compileFailed at_ =>
    exact admitted.move rfl (within at_ fun stage admits => by cases stage <;> exact admits)
  | write | cleanStart | cleanLock | cleanRemove | cleanEnd => exact admitted
  | finish | downloadFailed | exit => exact asks.elim

/-- Where the process ends, its cache is empty. -/
private theorem admitted_exit (system : System) (cache : CacheSystem) (survives : String → String → Bool) :
    CachedSystem.Admitted ⟨system.exit, cache.exit survives⟩ := fun _ => trivial

/-- One worker moves in the pool, and perhaps in the cache. -/
private theorem Admitted.setWorker (admitted : s.Admitted) {here : ℕ} {stage : Stage} {system : System}
    {cache : CacheSystem} (moved : system.pool.workers = Function.update s.system.pool.workers here stage)
    (others : ∀ worker, worker ≠ here → cache.workers worker = s.cache.workers worker)
    (admits : stage.Admits (cache.workers here)) : CachedSystem.Admitted ⟨system, cache⟩ := by
  intro worker
  dsimp only
  rw [moved]
  rcases eq_or_ne worker here with rfl | differs
  · rw [Function.update_self]
    exact admits
  · rw [Function.update_of_ne differs, others worker differs]
    exact admitted worker

/-- A call that returns leaves its worker where the next stage admits it. -/
private theorem Admitted.call (admitted : s.Admitted) {worker : ℕ} {call : Call} {cache : CacheSystem}
    {stage : Stage} (answered : s.answer archives (.call worker call) = some cache)
    (called : (s.system.pool.workers worker).call call = some stage) :
    CachedSystem.Admitted ⟨{ s.system with pool := s.system.pool.setWorker worker stage }, cache⟩ := by
  have here := admitted worker
  cases Stage.called_of_call called with
  | prepared at_ | undirected at_ =>
    obtain rfl := Option.some.inj answered
    have idle := here.eq_idle (by rw [at_]; rfl)
    exact admitted.setWorker rfl (fun _ _ => rfl) (by rw [idle]; trivial)
  | loaded =>
    simp only [answer] at answered
    split at answered
    · next problem inside =>
      split at answered
      · obtain rfl := Option.some.inj answered
        exact admitted.setWorker rfl (fun _ _ => rfl) (by rw [inside]; trivial)
      · contradiction
    · contradiction
  | unloaded =>
    simp only [answer] at answered
    split at answered
    · next inside =>
      obtain rfl := Option.some.inj answered
      exact admitted.setWorker rfl (fun _ _ => rfl) (by rw [inside]; trivial)
    · next problem inside =>
      cases CacheSystem.effect_of_step answered with
      | downloadFailed at_ =>
        obtain ⟨rfl, -⟩ := CacheStage.loading.inj (inside.symm.trans at_)
        refine admitted.setWorker rfl (fun other differs => Function.update_of_ne differs _ _) ?_
        rw [CacheSystem.workers_setStage, Function.update_self]
        trivial
    · contradiction
  | executed =>
    simp only [answer] at answered
    split at answered
    · split at answered
      · cases CacheSystem.effect_of_step answered with
        | finish at_ =>
          refine admitted.setWorker rfl (fun other differs => Function.update_of_ne differs _ _) ?_
          rw [CacheSystem.workers_setStage, Function.update_self]
          trivial
      · contradiction
    · contradiction

/-- A step of the pool keeps each worker of the cache where its job admits it. -/
theorem Admitted.pool (admitted : s.Admitted) {event : Event} {survives : String → String → Bool}
    (taken : s.step archives (.pool event survives) = some t) : t.Admitted := by
  obtain ⟨cache, answered, taken⟩ := Option.bind_eq_some_iff.mp taken
  obtain ⟨system, stepped, taken⟩ := Option.bind_eq_some_iff.mp taken
  obtain rfl := Option.some.inj taken
  -- A step that leaves the stages as they are leaves the cache too.
  have same (kept : system.pool.workers = s.system.pool.workers) (asked : cache = s.cache) :
      CachedSystem.Admitted ⟨system, cache⟩ := by
    intro worker
    dsimp only
    rw [kept, asked]
    exact admitted worker
  cases System.effect_of_step stepped with
  | rejected | beginSubmit | take | concludeSubmit | inject | deliver | connectionLost =>
    exact same rfl (Option.some.inj answered).symm
  | @consume sent delivery deliveries =>
    refine same ?_ (Option.some.inj answered).symm
    rw [System.consume]
    split <;> rfl
  | @receive worker job _ idle =>
    obtain rfl := Option.some.inj answered
    have outside := (admitted worker).eq_idle (by rw [idle]; rfl)
    exact admitted.setWorker rfl (fun _ _ => rfl) (outside ▸ trivial)
  | call called => exact admitted.call answered called
  | @postExecute worker error job problemData results stage =>
    obtain rfl := Option.some.inj answered
    simp only [System.ends, stage, System.postExecute]
    cases Engine.postExecute (fun _ => error) ⟨job.data, problemData⟩ results with
    | none => exact admitted_exit _ _ _
    | some after =>
      have outside := (admitted worker).eq_idle (by rw [stage]; rfl)
      exact admitted.setWorker rfl (fun _ _ => rfl) (outside ▸ trivial)
  | @settle worker sent job error verdict stage =>
    obtain rfl := Option.some.inj answered
    simp only [System.ends, stage]
    cases verdict with
    | none => exact admitted_exit _ _ _
    | some verdict =>
      have outside := (admitted worker).eq_idle (by rw [stage]; rfl)
      exact admitted.setWorker rfl (fun _ _ => rfl) (outside ▸ trivial)
  | exit => exact admitted_exit _ _ _

/-- What is required of the steps of the pool. -/
def OnPool (P : System → Event → Prop) (s : CachedSystem) : CachedEvent → Prop
  | .pool event _ => P s.system event
  | .cache _ => True

/-- The checkers that are compiled come out with a binary. -/
def YieldsBinary (s : CachedSystem) : CachedEvent → Prop
  | .pool _ _ => True
  | .cache event => s.cache.YieldsBinary event

private theorem step_pool_eq_some {event : Event} {survives : String → String → Bool}
    (taken : s.step archives (.pool event survives) = some t) : ∃ cache, s.answer archives event = some cache ∧
      s.system.step event = some t.system ∧ t.cache = if s.system.ends event then cache.exit survives else cache := by
  obtain ⟨cache, answered, taken⟩ := Option.bind_eq_some_iff.mp taken
  obtain ⟨system, stepped, taken⟩ := Option.bind_eq_some_iff.mp taken
  obtain rfl := Option.some.inj taken
  exact ⟨cache, answered, stepped, rfl⟩

private theorem step_cache_eq_some {event : CacheEvent} (taken : s.step archives (.cache event) = some t) :
    s.Asks event ∧ s.cache.step archives event = some t.cache ∧ t.system = s.system := by
  rw [step] at taken
  split at taken
  · next asks =>
    obtain ⟨cache, stepped, rfl⟩ := Option.map_eq_some_iff.mp taken
    exact ⟨asks, stepped, rfl⟩
  · contradiction

/-- A run of both is a run of the pool. -/
theorem run_system {P : System → Event → Prop} {events : List CachedEvent}
    (run : Run (Guarded (Steps (step archives)) (OnPool P)) s events t) :
    Run (Guarded (Steps System.step) P) s.system (events.filterMap CachedEvent.event?) t.system := by
  refine run.project (f := system) (fun s event t e ⟨allowed, taken⟩ same => ?_) fun s event t ⟨_, taken⟩ same => ?_
  · cases event with
    | pool event survives =>
      obtain rfl := Option.some.inj same
      obtain ⟨_, _, stepped, _⟩ := step_pool_eq_some taken
      exact ⟨allowed, stepped⟩
    | cache => contradiction
  · cases event with
    | pool => contradiction
    | cache event => exact (step_cache_eq_some taken).2.2

/-- What is known of the cache and of its callers. -/
structure Orderly (s : CachedSystem) : Prop where
  pointers : s.cache.Pointers
  disciplined : s.cache.Disciplined
  locked : s.cache.StoreLocked
  admitted : s.Admitted

private theorem orderly_start : start.Orderly :=
  ⟨CacheSystem.pointers_start, CacheSystem.disciplined_start, CacheSystem.storeLocked_start, fun _ => trivial⟩

/-- A step leaves the cache as it is, or takes a step of it that compiles no checker in vain. -/
theorem exists_cache_step {event : CachedEvent} (yields : s.YieldsBinary event)
    (taken : s.step archives event = some t) :
    t.cache = s.cache ∨ ∃ e, s.cache.YieldsBinary e ∧ s.cache.step archives e = some t.cache := by
  cases event with
  | cache event => exact .inr ⟨event, yields, (step_cache_eq_some taken).2.1⟩
  | pool event survives =>
    obtain ⟨cache, answered, stepped, same⟩ := step_pool_eq_some taken
    rw [same]
    -- A call takes a step of the cache at most, any other step none unless the process ends.
    cases event with
    | call worker call =>
      cases call with
      | mkdirAll => exact .inl (Option.some.inj answered).symm
      | preExecute loaded =>
        cases loaded with
        | ok problemData =>
          simp only [answer] at answered
          split at answered
          · split at answered
            · exact .inl (Option.some.inj answered).symm
            · contradiction
          · contradiction
        | error err =>
          simp only [answer] at answered
          split at answered
          · exact .inl (Option.some.inj answered).symm
          · exact .inr ⟨.downloadFailed worker, trivial, answered⟩
          · contradiction
      | executeWorker env w =>
        simp only [answer] at answered
        split at answered
        · split at answered
          · exact .inr ⟨.finish worker, trivial, answered⟩
          · contradiction
        · contradiction
    | _ =>
      obtain rfl := Option.some.inj answered
      split
      · exact .inr ⟨.exit survives, trivial, rfl⟩
      · exact .inl rfl

theorem Orderly.step (orderly : s.Orderly) {event : CachedEvent} (yields : s.YieldsBinary event)
    (taken : s.step archives event = some t) : t.Orderly := by
  have admitted : t.Admitted := by
    cases event with
    | pool => exact orderly.admitted.pool taken
    | cache event =>
      obtain ⟨asks, stepped, same⟩ := step_cache_eq_some taken
      have moved := orderly.admitted.cache asks stepped
      rw [← same] at moved
      exact moved
  rcases exists_cache_step yields taken with same | ⟨e, yielded, stepped⟩
  · exact ⟨same ▸ orderly.pointers, same ▸ orderly.disciplined, same ▸ orderly.locked, admitted⟩
  · exact ⟨orderly.pointers.step stepped, orderly.disciplined.step orderly.pointers yielded stepped,
      orderly.locked.step stepped, admitted⟩

end CachedSystem

/-- Steps of the engine process; that the cleaner starts a round is due to the clock. -/
def CachedEvent.isWork : CachedEvent → Bool
  | .pool event _ => event.isWork
  | .cache .cleanStart => false
  | .cache _ => true

/-- No step of the engine is offered but the start of a round of the cleaner, neither of the pool nor of its cache. -/
def CachedSystem.Stopped (archives : String → ℤ → Directory) (n : ℕ) (s : CachedSystem) : Prop :=
  ∀ event : CachedEvent, event.isWork = true → s.OnPool (System.Offered n) event → s.step archives event = none

/-- `CompileCheckerCode` may come to anything. -/
theorem exists_compileCheckerCode (job : Job) (bin : Option String) :
    ∃ env w, (compileCheckerCode env job w).1 = bin := by
  cases bin with
  | some bin => exact ⟨steadyIsolate none "", { idleWorker with compiledBin := some bin }, rfl⟩
  | none =>
    refine ⟨{ steadyIsolate none "" with compileCommand := fun _ => none }, { idleWorker with compiledBin := none }, ?_⟩
    rw [compileCheckerCode]
    rfl

namespace CachedSystem

variable {archives : String → ℤ → Directory} {s : CachedSystem}

/-- A step of the pool is refused by the pool if the cache does not refuse it. -/
theorem Stopped.refused (stopped : s.Stopped archives n) (event : Event) (work : event.isWork = true)
    (offered : s.system.Offered n event) {cache : CacheSystem} (answered : s.answer archives event = some cache) :
    s.system.step event = none := by
  have refused := stopped (.pool event fun _ _ => false) work offered
  rw [step, answered] at refused
  cases stepped : s.system.step event with
  | none => rfl
  | some system =>
    rw [stepped] at refused
    contradiction

theorem Stopped.stuck (stopped : s.Stopped archives n) : s.cache.Stuck archives := by
  intro event goesOn
  have asks : s.Asks event := by cases event <;> trivial
  have refused := stopped (.cache event) (by cases event <;> first | rfl | contradiction) trivial
  rw [step, if_pos asks] at refused
  exact Option.map_eq_none_iff.mp refused

/-- A worker that has asked the cache for its problem is offered what the cache answers. -/
private theorem Stopped.not_prepared (stopped : s.Stopped archives n) (orderly : s.Orderly) {worker : ℕ} {job : Received}
    (stage : s.system.pool.workers worker = .prepared job) : False := by
  have resting := (stopped.stuck.resting orderly.locked orderly.disciplined).2 worker
  have admits := orderly.admitted worker
  rw [stage] at admits
  cases inside : s.cache.workers worker with
  | idle =>
    have answered : s.answer archives (.call worker (.preExecute (.error ""))) = some s.cache := by
      rw [answer, inside]
    have refused := stopped.refused (.call worker (.preExecute (.error ""))) rfl trivial answered
    rw [System.step, stage] at refused
    contradiction
  | loaded problem =>
    have answered : s.answer archives (.call worker (.preExecute (.ok problem.data))) = some s.cache := by
      simp only [answer, inside, if_true]
    have refused := stopped.refused (.call worker (.preExecute (.ok problem.data))) rfl trivial answered
    rw [System.step, stage] at refused
    contradiction
  | loading | compiling =>
    rw [inside] at resting
    exact resting
  | returned | panicking =>
    rw [inside] at admits
    exact admits

/-- A worker that has its problem is offered `CompileCheckerCode`, or what follows on its result. -/
private theorem Stopped.not_loaded (stopped : s.Stopped archives n) (orderly : s.Orderly) {worker : ℕ} {job : Received}
    {problemData : ProblemData} (stage : s.system.pool.workers worker = .loaded job problemData) : False := by
  have resting := (stopped.stuck.resting orderly.locked orderly.disciplined).2 worker
  have admits := orderly.admitted worker
  rw [stage] at admits
  cases inside : s.cache.workers worker with
  | idle | panicking =>
    rw [inside] at admits
    exact admits
  | loaded problem =>
    have refused := stopped (.cache (.compileCheckerCode worker)) rfl trivial
    rw [step, if_pos ⟨job, problemData, stage⟩, CacheSystem.step, inside] at refused
    contradiction
  | returned bin =>
    obtain ⟨env, w, compiles⟩ := exists_compileCheckerCode ⟨job.data, problemData⟩ bin
    have answered : s.answer archives (.call worker (.executeWorker env w)) =
        some (s.cache.setStage worker .idle) := by
      simp only [answer, stage, inside, compiles, if_true, CacheSystem.step]
    have refused := stopped.refused (.call worker (.executeWorker env w)) rfl trivial answered
    rw [System.step, stage] at refused
    contradiction
  | loading | compiling =>
    rw [inside] at resting
    exact resting

/-- Whoever has a job can go on with it: a worker that the cache does not hold up is offered its next call. -/
theorem Stopped.idle (stopped : s.Stopped archives n) (orderly : s.Orderly) (worker : ℕ) :
    s.system.pool.workers worker = .idle := by
  cases stage : s.system.pool.workers worker with
  | idle => rfl
  | started job =>
    have refused := stopped.refused (.call worker (.mkdirAll none)) rfl trivial rfl
    rw [System.step, stage] at refused
    contradiction
  | prepared job => exact (stopped.not_prepared orderly stage).elim
  | loaded job problemData => exact (stopped.not_loaded orderly stage).elim
  | executed job problemData results =>
    have refused := stopped.refused (.postExecute worker none) rfl trivial rfl
    rw [System.step, stage] at refused
    contradiction
  | returned job error verdict =>
    have refused := stopped.refused (.settle worker true) rfl trivial rfl
    rw [System.step, stage] at refused
    contradiction

theorem Stopped.system (stopped : s.Stopped archives n) (orderly : s.Orderly) : s.system.Stopped n := by
  have idle := stopped.idle orderly
  intro event work offered
  cases event with
  | deliver | consume | receive => exact stopped.refused _ work offered rfl
  | call worker call =>
    rw [System.step, idle]
    cases call with
    | mkdirAll error => cases error <;> rfl
    | preExecute loaded => cases loaded <;> rfl
    | executeWorker => rfl
  | postExecute worker => rw [System.step, idle]
  | settle worker => rw [System.step, idle]
  | _ => contradiction

/-- Where the pool has stopped, the cache has nothing to do but a round of the cleaner. -/
theorem Stopped.of_system (orderly : s.Orderly) (stopped : s.system.Stopped n) (cleaner : s.cache.cleaner = .idle) :
    s.Stopped archives n := by
  intro event work offered
  cases event with
  | pool event survives =>
    have refused := stopped event work offered
    cases answered : s.answer archives event with
    | none => rw [step, answered]; rfl
    | some cache => rw [step, answered, refused]; rfl
  | cache event =>
    have idle (worker : ℕ) : s.cache.workers worker = .idle :=
      (orderly.admitted worker).eq_idle (by rw [stopped.idle]; rfl)
    rw [step]
    split
    · next asks =>
      rw [Option.map_eq_none_iff]
      cases event with
      | preExecute worker problem =>
        obtain ⟨job, stage, -⟩ := asks
        rw [stopped.idle] at stage
        contradiction
      | advance worker | compileCheckerCode worker | write worker | downloaded worker | compile worker =>
        rw [CacheSystem.step, idle]
      | cleanStart => contradiction
      | cleanLock => exact if_neg (by rw [cleaner]; simp)
      | cleanRemove => rw [CacheSystem.step, cleaner]
      | cleanEnd => exact if_neg (by rw [cleaner]; simp)
      | finish | downloadFailed | exit => exact asks.elim
    · rfl

/-- What the guards of a run say of the system alone. -/
theorem covered_of_run (positive : 0 < n) {P : System → Event → Prop}
    (requires : ∀ s event, P s event → s.Offered n event ∧ s.Reaches event) {events : List CachedEvent}
    (run : Run (Guarded (Steps (step archives)) fun s event => s.OnPool P event ∧ s.YieldsBinary event)
      .start events s) : s.system.Covered n ∧ s.Orderly := by
  have pool := run_system (run.mono fun _ _ _ ⟨allowed, taken⟩ => ⟨allowed.1, taken⟩)
  exact ⟨pool.invariant (fun s event _ state ⟨allowed, taken⟩ => state.step positive (requires s event allowed).1
      (requires s event allowed).2 taken) System.covered_start,
    run.invariant (fun _ _ _ orderly ⟨allowed, taken⟩ => orderly.step allowed.2 taken) orderly_start⟩

end CachedSystem

variable {archives : String → ℤ → Directory} {s : CachedSystem}

/-- In every run in which checkers compile, and settlements reach the broker while the connection stands: the connected
engine has no step to take exactly where the broker is empty and the cleaner is not at work. -/
theorem engine_stops_iff (positive : 0 < n) {events : List CachedEvent}
    (run : Run (Guarded (Steps (CachedSystem.step archives)) fun s event =>
      s.OnPool (fun s event => s.Offered n event ∧ s.Reaches event) event ∧ s.YieldsBinary event) .start events s)
    (consuming : s.system.pool.consuming = true) :
    s.Stopped archives n ↔ (s.system.stores.broker.ready = [] ∧ s.system.stores.broker.unacked = []) ∧
      s.cache.cleaner = .idle := by
  obtain ⟨state, orderly⟩ := CachedSystem.covered_of_run positive (fun _ _ => id) run
  have covered := state.covered consuming
  constructor
  · intro stopped
    have pool := stopped.system orderly
    rw [pool.heldTags positive, List.nil_perm, List.map_eq_nil_iff] at covered
    exact ⟨⟨pool.ready consuming (by rw [covered]; exact positive), covered⟩,
      (stopped.stuck.resting orderly.locked orderly.disciplined).1⟩
  · rintro ⟨⟨ready, unacked⟩, cleaner⟩
    rw [unacked, List.map_nil, List.perm_nil] at covered
    exact CachedSystem.Stopped.of_system orderly (System.stopped_of_heldTags state.windowed ready covered) cleaner

/-- Where the engine stops, every accepted submission has its verdict, if no job is given up whose submission
waits for it. -/
theorem stopped_submissions_judged (positive : 0 < n) {events : List CachedEvent}
    (run : Run (Guarded (Steps (CachedSystem.step archives)) fun s event =>
      s.OnPool (fun s event => (s.Offered n event ∧ s.Reaches event) ∧ ¬ s.DropsWaiting event) event ∧
        s.YieldsBinary event) .start events s)
    (consuming : s.system.pool.consuming = true) (stopped : s.Stopped archives n) {id : String}
    (accepted : id ∈ s.system.accepted) : ¬ Waiting s.system.stores id := by
  obtain ⟨state, orderly⟩ := CachedSystem.covered_of_run positive (fun _ _ => And.left) run
  have pool := stopped.system orderly
  have sound := System.sound_of_run ((CachedSystem.run_system (run.mono fun _ _ _ ⟨allowed, taken⟩ =>
    ⟨allowed.1, taken⟩)).mono fun _ _ _ ⟨allowed, taken⟩ => ⟨allowed.2, taken⟩)
  have covered := state.covered consuming
  rw [pool.heldTags positive, List.nil_perm, List.map_eq_nil_iff] at covered
  intro waits
  obtain ⟨message, -, ready | ⟨tag, unacked⟩⟩ := (sound.owed id (.inl accepted)).2 waits
  · rw [pool.ready consuming (by rw [covered]; exact positive)] at ready
    exact List.not_mem_nil ready
  · rw [covered] at unacked
    exact List.not_mem_nil unacked

instance (s : System) (event : Event) : Decidable (s.Reaches event) :=
  match event with
  | .consume sent => inferInstanceAs (Decidable (sent = true ∨ s.pool.consuming = false))
  | .settle _ sent => inferInstanceAs (Decidable (sent = true ∨ s.pool.consuming = false))
  | .beginSubmit _ _ _ | .take _ | .concludeSubmit _ _ _ | .inject _ | .deliver | .receive _ | .call _ _
  | .postExecute _ _ | .connectionLost | .exit => isTrue trivial

instance (P : System → Event → Prop) [∀ s event, Decidable (P s event)] (s : CachedSystem) (event : CachedEvent) :
    Decidable (s.OnPool P event) :=
  match event with
  | .pool event _ => inferInstanceAs (Decidable (P s.system event))
  | .cache _ => isTrue trivial

instance (s : CachedSystem) (event : CachedEvent) : Decidable (s.YieldsBinary event) :=
  match event with
  | .pool _ _ => isTrue trivial
  | .cache event => inferInstanceAs (Decidable (s.cache.YieldsBinary event))

def onPool (events : List Event) : List CachedEvent := events.map fun event => .pool event fun _ _ => false

def onCache (events : List CacheEvent) : List CachedEvent := events.map .cache

/-- The job of `judgedJob`, with its way through the cache. -/
def cachedJob : List CachedEvent :=
  onPool startedJob ++ onCache (.preExecute 1 ⟨pythonJob.problemData, 1⟩ :: List.replicate 4 (.advance 1)) ++
    onCache [.downloaded 1] ++
    onPool [.call 1 (.preExecute (.ok { pythonJob.problemData with localProblemDir := tmpDir ++ "p_1" }))] ++
    onCache (.compileCheckerCode 1 :: List.replicate 7 (.advance 1)) ++ onCache [.compile 1 noCompilers idleWorker] ++
    onPool [.call 1 (.executeWorker (steadyIsolate none "") { idleWorker with compiledBin := some "int main" }),
      .postExecute 1 none, .settle 1 true]

/-- After the verdict the engine has nothing left to do. -/
theorem cached_job_stops : ∃ final,
    cachedJob.foldlM (Machine.guardedStep (CachedSystem.step checkerArchive) fun s event =>
      s.OnPool (fun s event => s.Offered 1 event ∧ s.Reaches event) event ∧ s.YieldsBinary event) .start = some final ∧
        final.Stopped checkerArchive 1 := by
  have ended : (cachedJob.foldlM (Machine.guardedStep (CachedSystem.step checkerArchive) fun s event =>
      s.OnPool (fun s event => s.Offered 1 event ∧ s.Reaches event) event ∧ s.YieldsBinary event) .start).map
        (fun final => (final.system.pool.consuming, final.system.stores.broker.ready,
          final.system.stores.broker.unacked, final.cache.cleaner)) = some (true, [], [], .idle) := by
    decide +kernel
  obtain ⟨final, executed, state⟩ := Option.map_eq_some_iff.mp ended
  simp only [Prod.mk.injEq] at state
  obtain ⟨consuming, ready, unacked, cleaner⟩ := state
  exact ⟨final, executed,
    (engine_stops_iff Nat.one_pos (.of_foldlM_guarded executed) consuming).mpr ⟨⟨ready, unacked⟩, cleaner⟩⟩

theorem cached_job_not_waiting : ∃ final,
    cachedJob.foldlM (Machine.guardedStep (CachedSystem.step checkerArchive) fun s event =>
      s.OnPool (fun s event => (s.Offered 1 event ∧ s.Reaches event) ∧ ¬ s.DropsWaiting event) event ∧
        s.YieldsBinary event) .start = some final ∧
      "s" ∈ final.system.accepted ∧ ¬ Waiting final.system.stores "s" := by
  have ended : (cachedJob.foldlM (Machine.guardedStep (CachedSystem.step checkerArchive) fun s event =>
      s.OnPool (fun s event => (s.Offered 1 event ∧ s.Reaches event) ∧ ¬ s.DropsWaiting event) event ∧
        s.YieldsBinary event) .start).map (fun final =>
          (final.system.pool.consuming, final.system.accepted, final.system.stores.broker.ready,
            final.system.pool.heldTags 1, final.cache.cleaner)) = some (true, ["s"], [], [], .idle) := by
    decide +kernel
  obtain ⟨final, executed, state⟩ := Option.map_eq_some_iff.mp ended
  simp only [Prod.mk.injEq] at state
  obtain ⟨consuming, accepted, ready, held, cleaner⟩ := state
  have run := Run.of_foldlM_guarded executed
  obtain ⟨covered, orderly⟩ := CachedSystem.covered_of_run Nat.one_pos (fun _ _ => And.left) run
  have stopped : final.Stopped checkerArchive 1 :=
    .of_system orderly (System.stopped_of_heldTags covered.windowed ready held) cleaner
  have member : "s" ∈ final.system.accepted := accepted ▸ List.mem_singleton_self "s"
  exact ⟨final, executed, member, stopped_submissions_judged Nat.one_pos run consuming stopped member⟩

end JudgeSelf.Engine
