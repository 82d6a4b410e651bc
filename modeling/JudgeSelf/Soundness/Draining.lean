import JudgeSelf.Soundness.JudgingLoop
import JudgeSelf.Soundness.Prefetch

/-! # The engine comes to an end with its work

A message costs the engine at most eight steps, from its delivery to its settlement, and steps that are done
again are due to an interruption from outside or to a job that is given up for it. So the steps of a run are
bounded by what was published and by the interruptions.
-/

namespace JudgeSelf.Engine

open Machine (Run Guarded Steps)

variable {n : ℕ} {s t : System}

/-- Steps of the engine process itself. -/
def Event.isWork : Event → Bool
  | .deliver | .consume _ | .receive _ | .call _ _ | .postExecute _ _ | .settle _ _ => true
  | _ => false

def Event.publishes : Event → Bool
  | .take _ | .inject _ => true
  | _ => false

/-- Steps after which work is done again: the process ends, its connection is lost, or a settlement does not
reach the broker. -/
def Event.interrupts : Event → Bool
  | .exit | .connectionLost | .settle _ false => true
  | _ => false

/-- No problem with a negative test count is loaded; on such a count `make` panics in `ExecuteWorker`. -/
def Event.Loads : Event → Prop
  | .call _ (.preExecute (.ok problemData)) => 0 ≤ problemData.testCount
  | _ => True

/-- The steps that a worker has left for its delivery. -/
def Stage.rest : Stage → ℕ
  | .idle => 0
  | .started _ => 5
  | .prepared _ => 4
  | .loaded _ _ => 3
  | .executed _ _ _ => 2
  | .returned _ _ _ => 1

/-- The steps left for what the process holds. -/
def Pool.rest (workerCount : ℕ) (pool : Pool) : ℕ :=
  7 * pool.deliveries.length + 6 * pool.jobQueue.length + ((pool.stages workerCount).map Stage.rest).sum

/-- A message may be the reason that as many deliveries as there are workers start again. -/
def System.potential (workerCount : ℕ) (s : System) : ℕ :=
  8 * workerCount * (s.stores.broker.ready.length + s.stores.broker.unacked.length) +
    8 * s.stores.broker.ready.length + s.pool.rest workerCount

/-- `ExecuteWorker` returns results, which `PostExecute` reads. -/
def Stage.Judgeable : Stage → Prop
  | .loaded _ problemData => 0 ≤ problemData.testCount
  | .executed _ _ results => results ≠ []
  | _ => True

private theorem executeWorker_ne_nil (env : Environment) (job : Job) (w : World)
    (counted : 0 ≤ job.problemData.testCount) :
    (executeWorker env job w).1 ≠ [] := by
  have returned : returnedResults env job w = some (executeWorker env job w).1 := by
    rw [returnedResults]
    exact if_neg fun panics => absurd panics.2.2 (Int.not_lt.mpr counted)
  exact returnedResults_ne_nil returned

theorem Stage.Judgeable.call {stage next : Stage} {call : Call} {worker : ℕ} (judgeable : stage.Judgeable)
    (loads : (Event.call worker call).Loads) (called : stage.call call = some next) :
    next.Judgeable ∧ next.rest + 1 ≤ stage.rest := by
  cases Stage.called_of_call called with
  | prepared at_ =>
    rw [at_]
    exact ⟨trivial, Nat.le_refl _⟩
  | loaded at_ =>
    rw [at_]
    exact ⟨loads, Nat.le_refl _⟩
  | undirected at_ =>
    rw [at_]
    exact ⟨trivial, (by decide : 2 ≤ 5)⟩
  | unloaded at_ =>
    rw [at_]
    exact ⟨trivial, (by decide : 2 ≤ 4)⟩
  | @executed job problemData env w at_ =>
    rw [at_] at judgeable ⊢
    exact ⟨executeWorker_ne_nil env ⟨job.data, problemData⟩ w judgeable, Nat.le_refl _⟩

namespace Pool

variable {pool : Pool}

/-- What one worker has left, and what is left beside it. -/
theorem rest_setWorker {worker : ℕ} (counted : 1 ≤ worker ∧ worker ≤ n) :
    ∃ others, pool.rest n = (pool.workers worker).rest + others ∧
      ∀ stage, (pool.setWorker worker stage).rest n = stage.rest + others := by
  obtain ⟨others, before, after⟩ := pool.exists_stages_perm counted
  refine ⟨7 * pool.deliveries.length + 6 * pool.jobQueue.length + (others.map Stage.rest).sum, ?_, fun stage => ?_⟩
  · rw [rest, (before.map Stage.rest).sum_eq, List.map_cons, List.sum_cons]
    omega
  · have sum : (((pool.setWorker worker stage).stages n).map Stage.rest).sum =
        stage.rest + (others.map Stage.rest).sum := by
      rw [((after stage).map Stage.rest).sum_eq, List.map_cons, List.sum_cons]
    rw [rest, sum]
    change 7 * pool.deliveries.length + 6 * pool.jobQueue.length + _ = _
    omega

private theorem mem_heldTags {worker tag : ℕ} (counted : 1 ≤ worker ∧ worker ≤ n)
    (busy : (pool.workers worker).tag? = some tag) : tag ∈ pool.heldTags n :=
  (pool.heldTags_free counted busy).mem_iff.mpr List.mem_cons_self

private theorem rest_start : Pool.start.rest n = 0 := by
  have idle : ((Pool.start.stages n).map Stage.rest).sum = 0 := by
    refine List.sum_eq_zero fun rest member => ?_
    obtain ⟨stage, listed, rfl⟩ := List.mem_map.mp member
    obtain ⟨worker, -, rfl⟩ := List.mem_map.mp listed
    rfl
  rw [rest, idle]
  rfl

end Pool

def Event.work (event : Event) : ℕ := if event.isWork then 1 else 0

/-- What a step from outside brings in. -/
def Event.gain (workerCount : ℕ) (event : Event) : ℕ :=
  if event.publishes then 8 * workerCount + 8 else if event.interrupts then 8 * workerCount else 0

namespace System

structure Workable (n : ℕ) (s : System) : Prop where
  windowed : s.Windowed n
  /-- After a lost connection the broker waits for nothing. -/
  disconnected : s.pool.consuming = false → s.stores.broker.unacked = []
  judgeable : ∀ worker, (s.pool.workers worker).Judgeable

private theorem workable_start : start.Workable n := ⟨windowed_start, fun _ => rfl, fun _ => trivial⟩

private theorem judgeable_setWorker (judgeable : ∀ worker, (s.pool.workers worker).Judgeable) (stage : Stage)
    (next : stage.Judgeable) (worker other : ℕ) : ((s.pool.setWorker worker stage).workers other).Judgeable := by
  change (Function.update s.pool.workers worker stage other).Judgeable
  rcases eq_or_ne other worker with rfl | differs
  · rwa [Function.update_self]
  · rw [Function.update_of_ne differs]
    exact judgeable other

/-- A step that publishes nothing and leaves less to do. -/
theorem potential_le {cost : ℕ} (ready : t.stores.broker.ready = s.stores.broker.ready)
    (unacked : t.stores.broker.unacked.length ≤ s.stores.broker.unacked.length)
    (rest : cost + t.pool.rest n ≤ s.pool.rest n) : cost + t.potential n ≤ s.potential n := by
  have messages := Nat.mul_le_mul_left (8 * n) (Nat.add_le_add_left unacked s.stores.broker.ready.length)
  rw [potential, potential, ready]
  omega

private theorem potential_exit (s : System) : s.exit.potential n =
    (8 * n + 8) * (s.stores.broker.ready.length + s.stores.broker.unacked.length) := by
  have rest : s.exit.pool.rest n = 0 := Pool.rest_start
  have ready : s.exit.stores.broker.ready.length = s.stores.broker.unacked.length + s.stores.broker.ready.length := by
    change (s.stores.broker.unacked.map Prod.snd ++ s.stores.broker.ready).length = _
    rw [List.length_append, List.length_map]
  rw [potential, rest, ready]
  change 8 * n * (_ + 0) + _ + 0 = _
  ring

/-- What is left when the process ends is no more than its messages make it do. -/
theorem Windowed.potential_exit_le (windowed : s.Windowed n) : s.exit.potential n ≤ s.potential n + 8 * n := by
  have window := windowed.window
  rw [potential_exit, potential, Nat.add_mul]
  omega

private theorem potential_deliver {delivery : ℕ × SubmissionService.Payload}
    {broker : Machine.Broker SubmissionService.Payload}
    (delivered : s.stores.broker.deliver = some (delivery, broker)) :
    1 + { s.setBroker broker with pool := { s.pool with deliveries := s.pool.deliveries ++ [delivery] } }.potential n =
      s.potential n := by
  obtain ⟨ready, unacked, -⟩ := Machine.Broker.deliver_eq_some delivered
  rw [potential, potential, ready]
  change 1 + (8 * n * (broker.ready.length + broker.unacked.length) + 8 * broker.ready.length +
    (7 * (s.pool.deliveries ++ [delivery]).length + 6 * s.pool.jobQueue.length +
      ((s.pool.stages n).map Stage.rest).sum)) = _
  rw [unacked, List.length_append, List.length_singleton, List.length_append, List.length_singleton, List.length_cons,
    Pool.rest, Nat.add_right_comm broker.ready.length 1, Nat.add_assoc broker.ready.length _ 1]
  omega

/-- The step keeps the invariant and is paid. -/
structure Paid (n : ℕ) (s : System) (event : Event) (t : System) : Prop where
  workable : t.Workable n
  paid : event.work + t.potential n ≤ s.potential n + event.gain n

theorem Workable.of_eq (workable : s.Workable n) (pool : t.pool = s.pool)
    (broker : t.stores.broker = s.stores.broker) : t.Workable n where
  windowed := workable.windowed.of_eq pool (congrArg _ broker)
  disconnected := by
    rw [pool, broker]
    exact workable.disconnected
  judgeable := by
    rw [pool]
    exact workable.judgeable

theorem Paid.of_eq {event : Event} {u : System} (paid : s.Paid n event t) (pool : u.pool = t.pool)
    (broker : u.stores.broker = t.stores.broker) : s.Paid n event u where
  workable := paid.workable.of_eq pool broker
  paid := by
    have same : u.potential n = t.potential n := by rw [potential, potential, pool, broker]
    rw [same]
    exact paid.paid

/-- A step of a worker on its delivery. -/
theorem Workable.setWorker (workable : s.Workable n) {worker : ℕ} {stage : Stage} {event : Event}
    (counted : 1 ≤ worker ∧ worker ≤ n) (windowed : { s with pool := s.pool.setWorker worker stage }.Windowed n)
    (next : stage.Judgeable) (rest : stage.rest + 1 ≤ (s.pool.workers worker).rest) :
    s.Paid n event { s with pool := s.pool.setWorker worker stage } := by
  obtain ⟨others, before, after⟩ := s.pool.rest_setWorker counted
  refine ⟨⟨windowed, workable.disconnected, judgeable_setWorker workable.judgeable stage next worker⟩, ?_⟩
  have work : event.work ≤ 1 := by
    rw [Event.work]
    split <;> decide
  refine Nat.le_add_right_of_le (potential_le rfl le_rfl ?_)
  change event.work + (s.pool.setWorker worker stage).rest n ≤ _
  rw [before, after]
  omega

theorem Workable.exit (workable : s.Workable n) : s.exit.Workable n :=
  ⟨workable.windowed.exit, fun _ => rfl, fun _ => trivial⟩

theorem Workable.deliver (workable : s.Workable n) {delivery : ℕ × SubmissionService.Payload}
    {broker : Machine.Broker SubmissionService.Payload} (consuming : s.pool.consuming = true)
    (room : s.stores.broker.unacked.length < n) (delivered : s.stores.broker.deliver = some (delivery, broker)) :
    s.Paid n .deliver
      { s.setBroker broker with pool := { s.pool with deliveries := s.pool.deliveries ++ [delivery] } } where
  workable :=
    { windowed := workable.windowed.deliver consuming room delivered
      disconnected := fun lost => absurd (consuming.symm.trans lost) (by decide)
      judgeable := workable.judgeable }
  paid := Nat.le_of_eq (potential_deliver delivered)

theorem Workable.consume (workable : s.Workable n) {sent : Bool} {delivery : ℕ × SubmissionService.Payload}
    {deliveries : List (ℕ × SubmissionService.Payload)} (head : s.pool.deliveries = delivery :: deliveries) :
    s.Paid n (.consume sent) (s.consume sent delivery deliveries) := by
  have windowed : (s.consume sent delivery deliveries).Windowed n := workable.windowed.consume head
  rw [System.consume] at windowed ⊢
  split at windowed
  · refine ⟨⟨windowed, workable.disconnected, workable.judgeable⟩, potential_le rfl le_rfl ?_⟩
    rw [Pool.rest, Pool.rest, head, List.length_append, List.length_singleton, List.length_cons]
    change 1 + (7 * deliveries.length + 6 * (s.pool.jobQueue.length + 1) + ((s.pool.stages n).map Stage.rest).sum) ≤ _
    omega
  · have rest : { s.pool with deliveries }.rest n + 7 = s.pool.rest n := by
      rw [Pool.rest, Pool.rest, head, List.length_cons]
      change 7 * deliveries.length + 6 * s.pool.jobQueue.length + ((s.pool.stages n).map Stage.rest).sum + 7 = _
      omega
    cases sent with
    | false =>
      refine ⟨⟨windowed, workable.disconnected, workable.judgeable⟩, potential_le rfl le_rfl ?_⟩
      change 1 + { s.pool with deliveries }.rest n ≤ s.pool.rest n
      omega
    | true =>
      have unacked : (s.stores.broker.settle delivery.1).unacked.length ≤ s.stores.broker.unacked.length :=
        List.length_filter_le _ _
      refine ⟨⟨windowed, fun lost => ?_, workable.judgeable⟩, potential_le rfl unacked ?_⟩
      · change (s.stores.broker.unacked.filter _) = []
        rw [workable.disconnected lost, List.filter_nil]
      · change 1 + { s.pool with deliveries }.rest n ≤ s.pool.rest n
        omega

theorem Workable.receive (workable : s.Workable n) {worker : ℕ} {job : Received} {jobQueue : List Received}
    (counted : 1 ≤ worker ∧ worker ≤ n) (idle : s.pool.workers worker = .idle)
    (head : s.pool.jobQueue = job :: jobQueue) :
    s.Paid n (.receive worker) { s with pool := { s.pool.setWorker worker (.started job) with jobQueue } } := by
  have windowed := workable.windowed.receive counted idle head
  obtain ⟨others, before, after⟩ := ({ s.pool with jobQueue } : Pool).rest_setWorker counted
  have fewer : s.pool.rest n = { s.pool with jobQueue }.rest n + 6 := by
    rw [Pool.rest, Pool.rest, head, List.length_cons]
    change _ = 7 * s.pool.deliveries.length + 6 * jobQueue.length + ((s.pool.stages n).map Stage.rest).sum + 6
    omega
  have judgeable := judgeable_setWorker workable.judgeable (.started job) trivial worker
  refine ⟨⟨windowed, workable.disconnected, judgeable⟩, potential_le rfl le_rfl ?_⟩
  change 1 + ({ s.pool with jobQueue }.setWorker worker (.started job)).rest n ≤ _
  rw [after, fewer, before]
  change 1 + (5 + others) ≤ _
  omega

theorem Workable.postExecute (workable : s.Workable n) {worker : ℕ} {error : Option String} {job : Received}
    {problemData : ProblemData} {results : List Models.Result}
    (stage : s.pool.workers worker = .executed job problemData results) :
    s.Paid n (.postExecute worker error) (s.postExecute worker error job problemData results) := by
  have windowed : (s.postExecute worker error job problemData results).Windowed n :=
    workable.windowed.postExecute stage
  have nonempty : results ≠ [] := by
    have judgeable := workable.judgeable worker
    rwa [stage] at judgeable
  have busy : (s.pool.workers worker).tag? = some job.tag := by rw [stage, Stage.tag?]
  have counted := workable.windowed.counted busy
  rw [System.postExecute] at windowed ⊢
  split at windowed
  · next panics =>
    have last := Option.map_eq_none_iff.mp (Option.map_eq_none_iff.mp panics)
    exact absurd (List.getLast?_eq_none_iff.mp last) nonempty
  · next after _ =>
    have returned : { s with pool := s.pool.setWorker worker (.returned job after.error (some after.verdict)) }.Windowed
        n := windowed.of_eq rfl (by split <;> rfl)
    have paid : s.Paid n (.postExecute worker error) _ :=
      workable.setWorker counted returned trivial (by rw [stage]; exact Nat.le_refl 2)
    exact paid.of_eq rfl (by split <;> rfl)

/-- A message that is published. -/
theorem Workable.publish (workable : s.Workable n) {payload : SubmissionService.Payload} {event : Event}
    (publishes : event.publishes = true) (work : event.isWork = false) (pool : t.pool = s.pool)
    (stores : t.stores = s.stores.enqueue payload) : s.Paid n event t where
  workable :=
    { windowed := workable.windowed.of_eq pool (by rw [stores]; rfl)
      disconnected := by
        rw [pool, stores]
        exact workable.disconnected
      judgeable := by
        rw [pool]
        exact workable.judgeable }
  paid := by
    rw [Event.work, work, Event.gain, publishes, potential, potential, pool, stores]
    change 0 + (8 * n * ((s.stores.broker.ready ++ [payload]).length + s.stores.broker.unacked.length) +
      8 * (s.stores.broker.ready ++ [payload]).length + _) ≤ _ + (8 * n + 8)
    rw [List.length_append, List.length_singleton]
    linarith

/-- The connection is lost; what the process holds stays with it. -/
theorem potential_requeue (windowed : s.Windowed n) :
    { s.setBroker s.stores.broker.requeue with pool := { s.pool with consuming := false } }.potential n ≤
      s.potential n + 8 * n := by
  have window := windowed.window
  rw [potential, potential]
  change 8 * n * ((s.stores.broker.unacked.map Prod.snd ++ s.stores.broker.ready).length + 0) +
    8 * (s.stores.broker.unacked.map Prod.snd ++ s.stores.broker.ready).length + s.pool.rest n ≤ _
  rw [List.length_append, List.length_map]
  linarith

theorem Workable.settle (workable : s.Workable n) {worker : ℕ} {sent : Bool} {job : Received}
    {error : Option String} {verdict : Option Verdict}
    (stage : s.pool.workers worker = .returned job error verdict) :
    s.Paid n (.settle worker sent) (s.settle worker sent job verdict) := by
  have windowed : (s.settle worker sent job verdict).Windowed n := workable.windowed.settle stage
  have busy : (s.pool.workers worker).tag? = some job.tag := by rw [stage, Stage.tag?]
  have counted := workable.windowed.counted busy
  obtain ⟨others, before, after⟩ := s.pool.rest_setWorker counted
  have last : s.pool.rest n = 1 + others := by rw [before, stage, Stage.rest]
  have room := workable.windowed.window
  have fewer : (s.stores.broker.settle job.tag).unacked.length ≤ s.stores.broker.unacked.length :=
    List.length_filter_le _ _
  cases verdict with
  | some verdict =>
    have idle : 1 + (s.pool.setWorker worker .idle).rest n ≤ s.pool.rest n := by
      rw [after, last]
      exact Nat.le_of_eq (congrArg _ (Nat.zero_add others))
    have judgeable := judgeable_setWorker workable.judgeable .idle trivial worker
    cases sent with
    | false =>
      exact ⟨⟨windowed, workable.disconnected, judgeable⟩, Nat.le_add_right_of_le (potential_le rfl le_rfl idle)⟩
    | true =>
      refine ⟨⟨windowed, fun lost => ?_, judgeable⟩, potential_le rfl fewer idle⟩
      change s.stores.broker.unacked.filter _ = []
      rw [workable.disconnected lost, List.filter_nil]
  | none =>
    refine ⟨⟨windowed, fun _ => rfl, fun _ => trivial⟩, ?_⟩
    cases sent with
    | false =>
      change 1 + s.exit.potential n ≤ s.potential n + 8 * n
      rw [potential_exit, potential, Nat.add_mul]
      omega
    | true =>
      change 1 + (s.setBroker (s.stores.broker.settle job.tag)).exit.potential n ≤ s.potential n
      rw [potential_exit, potential, last]
      change 1 + (8 * n + 8) * (s.stores.broker.ready.length + (s.stores.broker.settle job.tag).unacked.length) ≤ _
      rcases consuming : s.pool.consuming with _ | _
      · have none : s.stores.broker.unacked.length = 0 := by rw [workable.disconnected consuming, List.length_nil]
        have gone : (s.stores.broker.settle job.tag).unacked.length = 0 := Nat.le_zero.mp (none ▸ fewer)
        rw [gone, none]
        linarith
      · obtain ⟨delivery, member, same⟩ := List.mem_map.mp
          (workable.windowed.connected consuming job.tag (s.pool.mem_heldTags counted busy))
        have settled : (s.stores.broker.settle job.tag).unacked.length < s.stores.broker.unacked.length :=
          List.length_filter_lt_length_iff_exists.mpr ⟨delivery, member, by simp [same]⟩
        have messages := Nat.mul_le_mul_left (8 * n + 8) (Nat.add_le_add_left settled s.stores.broker.ready.length)
        linarith

theorem Workable.step (workable : s.Workable n) (positive : 0 < n) {event : Event} (offered : s.Offered n event)
    (loads : event.Loads) (taken : s.step event = some t) : s.Paid n event t := by
  cases effect_of_step taken with
  | rejected => exact ⟨workable, Nat.le_of_eq (Nat.zero_add _)⟩
  | beginSubmit => exact Paid.of_eq (t := s) ⟨workable, Nat.le_of_eq (Nat.zero_add _)⟩ rfl rfl
  | take => exact workable.publish rfl rfl rfl rfl
  | concludeSubmit _ _ rows _ =>
    refine Paid.of_eq (t := s) ⟨workable, Nat.le_of_eq (Nat.zero_add _)⟩ rfl ?_
    rcases rows with rfl | rfl <;> rfl
  | inject => exact workable.publish rfl rfl rfl rfl
  | deliver consuming delivered => exact workable.deliver consuming (offered.resolve_left positive.ne') delivered
  | consume head => exact workable.consume head
  | receive idle head => exact workable.receive offered idle head
  | @call worker call stage called =>
    obtain ⟨tag, busy, -⟩ := tag?_call called
    obtain ⟨next, rest⟩ := (workable.judgeable worker).call loads called
    exact workable.setWorker (workable.windowed.counted busy) (workable.windowed.call called) next rest
  | postExecute stage => exact workable.postExecute stage
  | settle stage => exact workable.settle stage
  | connectionLost =>
    have windowed := workable.windowed.step positive offered taken
    have potential := potential_requeue workable.windowed
    exact ⟨⟨windowed, fun _ => rfl, workable.judgeable⟩, (Nat.le_of_eq (Nat.zero_add _)).trans potential⟩
  | exit => exact ⟨workable.exit, (Nat.le_of_eq (Nat.zero_add _)).trans workable.windowed.potential_exit_le⟩

end System

private theorem sum_map_work (events : List Event) : (events.map Event.work).sum = events.countP Event.isWork := by
  induction events with
  | nil => rfl
  | cons event events ih =>
    rw [List.map_cons, List.sum_cons, ih, List.countP_cons, Event.work, Nat.add_comm]

private theorem sum_map_gain_le (events : List Event) : (events.map (Event.gain n)).sum ≤
    (8 * n + 8) * events.countP Event.publishes + 8 * n * events.countP Event.interrupts := by
  induction events with
  | nil => rfl
  | cons event events ih =>
    rw [List.map_cons, List.sum_cons, List.countP_cons, List.countP_cons, Event.gain]
    split
    · have more := Nat.zero_le (8 * n * (if event.interrupts = true then 1 else 0))
      linarith
    · split <;> linarith

/-- In every run that loads no negative test count, the steps of the engine are bounded by the messages that were
published and by the interruptions from outside; jobs that are given up make the process end, but not for ever. -/
theorem engine_work_bounded (positive : 0 < n) {events : List Event}
    (run : Run (Guarded (Steps System.step) fun s event => s.Offered n event ∧ event.Loads) .start events s) :
    events.countP Event.isWork ≤
      (8 * n + 8) * events.countP Event.publishes + 8 * n * events.countP Event.interrupts := by
  have paid := run.cost_add_le (μ := System.potential n)
    (fun _ _ _ workable ⟨allowed, taken⟩ => (workable.step positive allowed.1 allowed.2 taken).workable)
    (fun _ _ _ workable ⟨allowed, taken⟩ => (workable.step positive allowed.1 allowed.2 taken).paid)
    System.workable_start
  have start : System.start.potential n = 0 := by
    rw [System.potential, System.start, Pool.rest_start]
    rfl
  rw [sum_map_work, start, Nat.zero_add] at paid
  exact (Nat.le_of_add_right_le paid).trans (sum_map_gain_le events)

instance (event : Event) : Decidable event.Loads :=
  match event with
  | .call _ (.preExecute (.ok problemData)) => inferInstanceAs (Decidable (0 ≤ problemData.testCount))
  | .call _ (.preExecute (.error _)) | .call _ (.mkdirAll _) | .call _ (.executeWorker _ _) | .beginSubmit _ _ _
  | .take _ | .concludeSubmit _ _ _ | .inject _ | .deliver | .consume _ | .receive _ | .postExecute _ _
  | .settle _ _ | .connectionLost | .exit => isTrue trivial

/-- The job goes through a sandbox that accepts everything, and its verdict is stored. -/
def judgedJob : List Event :=
  startedJob ++ [.call 1 (.preExecute (.ok pythonJob.problemData)),
    .call 1 (.executeWorker (steadyIsolate none "") idleWorker), .postExecute 1 none, .settle 1 true]

theorem judged_job_work : ∃ final,
    judgedJob.foldlM (Machine.guardedStep System.step fun s event => s.Offered 1 event ∧ event.Loads) .start =
      some final ∧ judgedJob.countP Event.isWork ≤ 16 := by
  have ended : (judgedJob.foldlM
      (Machine.guardedStep System.step fun s event => s.Offered 1 event ∧ event.Loads) .start).isSome = true := by
    decide +kernel
  obtain ⟨final, executed⟩ := Option.isSome_iff_exists.mp ended
  exact ⟨final, executed, engine_work_bounded Nat.one_pos (.of_foldlM_guarded executed)⟩

end JudgeSelf.Engine
