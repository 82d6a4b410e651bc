import JudgeSelf.Machine.Channel
import JudgeSelf.Soundness.SubmissionQueue

/-! # What the engine holds

`WorkerCount` is the prefetch count of the consumer, the capacity of the job queue and the number of workers.
So the engine never holds more deliveries than it has workers, each of them in one place, and the consumer is
never blocked when it hands a job over. Also after a lost connection this is so: the process gets no further
deliveries until it is started again.
-/

namespace JudgeSelf.Engine

open Machine (Run Guarded Steps)

variable {n : ℕ} {s t : System}

namespace Pool

variable {pool : Pool} {worker tag : ℕ}

theorem heldTags_deliver (pool : Pool) (delivery : ℕ × SubmissionService.Payload) :
    ({ pool with deliveries := pool.deliveries ++ [delivery] }.heldTags n).Perm (delivery.1 :: pool.heldTags n) := by
  simp only [heldTags, stages, List.map_append, List.map_cons, List.map_nil, List.append_assoc]
  exact List.perm_middle

theorem heldTags_read {delivery : ℕ × SubmissionService.Payload} {deliveries : List (ℕ × SubmissionService.Payload)}
    (head : pool.deliveries = delivery :: deliveries) :
    pool.heldTags n = delivery.1 :: { pool with deliveries }.heldTags n := by
  rw [heldTags, head]
  rfl

theorem heldTags_send (pool : Pool) (job : Received) :
    ({ pool with jobQueue := pool.jobQueue ++ [job] }.heldTags n).Perm (job.tag :: pool.heldTags n) := by
  simp only [heldTags, stages, List.map_append, List.map_cons, List.map_nil, List.append_assoc]
  rw [← List.append_assoc, ← List.append_assoc (pool.deliveries.map _)]
  exact List.perm_middle

theorem heldTags_receive {job : Received} {jobQueue : List Received} (counted : 1 ≤ worker ∧ worker ≤ n)
    (idle : pool.workers worker = .idle) (head : pool.jobQueue = job :: jobQueue) :
    ({ pool.setWorker worker (.started job) with jobQueue }.heldTags n).Perm (pool.heldTags n) := by
  obtain ⟨others, before, after⟩ := { pool with jobQueue }.heldTags_perm counted
  have front : (pool.heldTags n).Perm (job.tag :: { pool with jobQueue }.heldTags n) := by
    simp only [heldTags, head, List.map_cons, List.append_assoc, List.cons_append]
    exact List.perm_middle
  rw [idle] at before
  exact (after (.started job)).trans ((before.symm.cons job.tag).trans front.symm)

/-- A worker that goes on with its delivery. -/
theorem heldTags_setWorker {stage : Stage} (counted : 1 ≤ worker ∧ worker ≤ n)
    (same : stage.tag? = (pool.workers worker).tag?) :
    ((pool.setWorker worker stage).heldTags n).Perm (pool.heldTags n) := by
  obtain ⟨others, before, after⟩ := pool.heldTags_perm counted
  rw [← same] at before
  exact (after stage).trans before.symm

/-- A worker that is done with its delivery. -/
theorem heldTags_free (counted : 1 ≤ worker ∧ worker ≤ n) (busy : (pool.workers worker).tag? = some tag) :
    (pool.heldTags n).Perm (tag :: (pool.setWorker worker .idle).heldTags n) := by
  obtain ⟨others, before, after⟩ := pool.heldTags_perm counted
  rw [busy] at before
  exact before.trans ((after .idle).symm.cons tag)

theorem heldTags_start (n : ℕ) : start.heldTags n = [] := by
  have idle : ∀ stage ∈ start.stages n, stage.tag? = none := by
    intro stage member
    obtain ⟨_, _, rfl⟩ := List.mem_map.mp member
    rfl
  rw [heldTags, List.filterMap_eq_nil_iff.mpr idle]
  rfl

end Pool

structure System.Windowed (n : ℕ) (s : System) : Prop where
  window : s.stores.broker.unacked.length ≤ n
  bounded : (s.pool.heldTags n).length ≤ n
  distinct : (s.pool.heldTags n).Nodup
  /-- While the connection stands, what is held is not settled. -/
  connected : s.pool.consuming = true → ∀ tag ∈ s.pool.heldTags n, tag ∈ s.stores.broker.unacked.map Prod.fst
  outside : ∀ worker, ¬ (1 ≤ worker ∧ worker ≤ n) → s.pool.workers worker = .idle

namespace System

theorem windowed_start : start.Windowed n where
  window := Nat.zero_le _
  bounded := by
    rw [start, Pool.heldTags_start]
    exact Nat.zero_le _
  distinct := by
    rw [start, Pool.heldTags_start]
    exact List.nodup_nil
  connected _ := by
    rw [start, Pool.heldTags_start]
    exact List.forall_mem_nil _
  outside _ _ := rfl

/-- A step after which no more is held than before. -/
theorem Windowed.of_subperm (windowed : s.Windowed n) (held : (t.pool.heldTags n).Subperm (s.pool.heldTags n))
    (window : t.stores.broker.unacked.length ≤ s.stores.broker.unacked.length)
    (connected : t.pool.consuming = true →
      ∀ tag ∈ t.pool.heldTags n, tag ∈ t.stores.broker.unacked.map Prod.fst)
    (outside : ∀ worker, ¬ (1 ≤ worker ∧ worker ≤ n) → t.pool.workers worker = .idle) : t.Windowed n where
  window := window.trans windowed.window
  bounded := held.length_le.trans windowed.bounded
  distinct := by
    obtain ⟨tags, perm, sublist⟩ := held
    exact perm.nodup_iff.mp (windowed.distinct.sublist sublist)
  connected := connected
  outside := outside

/-- A step that leaves the pool and the deliveries of the broker as they are. -/
theorem Windowed.of_eq (windowed : s.Windowed n) (pool : t.pool = s.pool)
    (unacked : t.stores.broker.unacked = s.stores.broker.unacked) : t.Windowed n := by
  refine windowed.of_subperm ?_ (Nat.le_of_eq (congrArg _ unacked)) ?_ ?_
  · rw [pool]
  · rw [pool, unacked]
    exact windowed.connected
  · rw [pool]
    exact windowed.outside

/-- The worker that has a delivery is one of the pool. -/
theorem Windowed.counted (windowed : s.Windowed n) {worker tag : ℕ} (busy : (s.pool.workers worker).tag? = some tag) :
    1 ≤ worker ∧ worker ≤ n := by
  by_contra beyond
  rw [windowed.outside worker beyond] at busy
  contradiction

theorem Windowed.exit (windowed : s.Windowed n) : s.exit.Windowed n := by
  have none : s.exit.pool.heldTags n = [] := Pool.heldTags_start n
  refine windowed.of_subperm ?_ (Nat.zero_le _) (fun _ => ?_) fun _ _ => rfl
  · rw [none]
    exact List.nil_subperm
  · rw [none]
    exact List.forall_mem_nil _

/-- A worker of the pool is at another stage. -/
theorem Windowed.outside_setWorker (windowed : s.Windowed n) {worker : ℕ} (counted : 1 ≤ worker ∧ worker ≤ n)
    (stage : Stage) (other : ℕ) (beyond : ¬ (1 ≤ other ∧ other ≤ n)) :
    (s.pool.setWorker worker stage).workers other = .idle := by
  change Function.update s.pool.workers worker stage other = .idle
  have differs : other ≠ worker := by
    rintro rfl
    exact beyond counted
  rw [Function.update_of_ne differs]
  exact windowed.outside other beyond

/-- A worker goes on with its delivery. -/
theorem Windowed.setWorker (windowed : s.Windowed n) {worker tag : ℕ} {stage : Stage}
    (busy : (s.pool.workers worker).tag? = some tag) (same : stage.tag? = some tag) :
    { s with pool := s.pool.setWorker worker stage }.Windowed n := by
  have counted := windowed.counted busy
  have held := s.pool.heldTags_setWorker counted (same.trans busy.symm)
  refine windowed.of_subperm held.subperm le_rfl (fun consuming other member => ?_)
    (windowed.outside_setWorker counted stage)
  exact windowed.connected consuming other (held.mem_iff.mp member)

theorem Windowed.deliver (windowed : s.Windowed n) (consuming : s.pool.consuming = true) {tag : ℕ}
    {payload : SubmissionService.Payload} {broker : Machine.Broker SubmissionService.Payload}
    (room : s.stores.broker.unacked.length < n) (delivered : s.stores.broker.deliver = some ((tag, payload), broker)) :
    { s.setBroker broker with
      pool := { s.pool with deliveries := s.pool.deliveries ++ [(tag, payload)] } }.Windowed n := by
  obtain ⟨-, unacked, rfl, -⟩ := Machine.Broker.deliver_eq_some delivered
  have held := s.pool.heldTags_deliver (n := n) (s.stores.broker.nextTag, payload)
  have known := windowed.connected consuming
  have fresh : s.stores.broker.nextTag ∉ s.pool.heldTags n := by
    intro member
    obtain ⟨delivery, old, same⟩ := List.mem_map.mp (known _ member)
    exact absurd (s.stores.broker.tagged delivery old) (by omega)
  have fewer : (s.pool.heldTags n).length ≤ s.stores.broker.unacked.length := by
    rw [← List.length_map (f := Prod.fst)]
    exact (List.subperm_of_subset windowed.distinct known).length_le
  refine ⟨?_, ?_, ?_, fun _ other member => ?_, windowed.outside⟩
  · change broker.unacked.length ≤ n
    rw [unacked, List.length_append, List.length_singleton]
    exact room
  · rw [held.length_eq, List.length_cons]
    omega
  · exact held.nodup_iff.mpr (List.nodup_cons.mpr ⟨fresh, windowed.distinct⟩)
  · change other ∈ broker.unacked.map Prod.fst
    rw [unacked, List.map_append, List.mem_append]
    rcases List.mem_cons.mp (held.mem_iff.mp member) with rfl | before
    · exact .inr (List.mem_singleton_self _)
    · exact .inl (known other before)

private theorem mem_unacked_settle {broker : Machine.Broker SubmissionService.Payload} {tag other : ℕ}
    (differs : other ≠ tag) :
    other ∈ (broker.settle tag).unacked.map Prod.fst ↔ other ∈ broker.unacked.map Prod.fst := by
  simp only [Machine.Broker.settle, List.mem_map, List.mem_filter, decide_eq_true_eq]
  constructor
  · rintro ⟨delivery, ⟨member, -⟩, rfl⟩
    exact ⟨delivery, member, rfl⟩
  · rintro ⟨delivery, member, rfl⟩
    exact ⟨delivery, ⟨member, differs⟩, rfl⟩

theorem Windowed.consume (windowed : s.Windowed n) {sent : Bool} {delivery : ℕ × SubmissionService.Payload}
    {deliveries : List (ℕ × SubmissionService.Payload)} (head : s.pool.deliveries = delivery :: deliveries) :
    (s.consume sent delivery deliveries).Windowed n := by
  have front := Pool.heldTags_read (n := n) head
  rw [System.consume]
  split
  · next data _ =>
    have held := { s.pool with deliveries }.heldTags_send (n := n) ⟨delivery.1, data⟩
    rw [← front] at held
    refine windowed.of_subperm held.subperm le_rfl (fun consuming tag member => ?_) windowed.outside
    exact windowed.connected consuming tag (held.mem_iff.mp member)
  · have fewer : ({ s.pool with deliveries }.heldTags n).Sublist (s.pool.heldTags n) := by
      rw [front]
      exact List.sublist_cons_self _ _
    have fresh : delivery.1 ∉ { s.pool with deliveries }.heldTags n := by
      have distinct := windowed.distinct
      rw [front] at distinct
      exact (List.nodup_cons.mp distinct).1
    cases sent with
    | false =>
      refine windowed.of_subperm fewer.subperm le_rfl (fun consuming tag member => ?_) windowed.outside
      exact windowed.connected consuming tag (fewer.subset member)
    | true =>
      refine windowed.of_subperm fewer.subperm (List.length_filter_le _ _) (fun consuming tag member => ?_)
        windowed.outside
      have differs : tag ≠ delivery.1 := by
        rintro rfl
        exact fresh member
      exact (mem_unacked_settle differs).mpr (windowed.connected consuming tag (fewer.subset member))

theorem Windowed.receive (windowed : s.Windowed n) {worker : ℕ} {job : Received} {jobQueue : List Received}
    (counted : 1 ≤ worker ∧ worker ≤ n) (idle : s.pool.workers worker = .idle)
    (head : s.pool.jobQueue = job :: jobQueue) :
    { s with pool := { s.pool.setWorker worker (.started job) with jobQueue } }.Windowed n := by
  have held := Pool.heldTags_receive counted idle head
  refine windowed.of_subperm held.subperm le_rfl (fun consuming tag member => ?_)
    (windowed.outside_setWorker counted (.started job))
  exact windowed.connected consuming tag (held.mem_iff.mp member)

theorem tag?_call {stage next : Stage} {call : Call} (called : stage.call call = some next) :
    ∃ tag, stage.tag? = some tag ∧ next.tag? = some tag := by
  cases Stage.called_of_call called with
  | @prepared job at_ | @undirected job _ at_ | @loaded job _ at_ | @unloaded job _ at_ | @executed job _ _ _ at_ =>
    exact ⟨job.tag, by rw [at_]; rfl, rfl⟩

theorem Windowed.call (windowed : s.Windowed n) {worker : ℕ} {call : Call} {stage : Stage}
    (called : (s.pool.workers worker).call call = some stage) :
    { s with pool := s.pool.setWorker worker stage }.Windowed n := by
  obtain ⟨tag, busy, same⟩ := tag?_call called
  exact windowed.setWorker busy same

theorem Windowed.postExecute (windowed : s.Windowed n) {worker : ℕ} {error : Option String} {job : Received}
    {problemData : ProblemData} {results : List Models.Result}
    (stage : s.pool.workers worker = .executed job problemData results) :
    (s.postExecute worker error job problemData results).Windowed n := by
  have busy : (s.pool.workers worker).tag? = some job.tag := by rw [stage, Stage.tag?]
  rw [System.postExecute]
  split
  · exact windowed.exit
  · next after _ =>
    have returned : { s with pool := s.pool.setWorker worker (.returned job after.error (some after.verdict)) }.Windowed
        n := windowed.setWorker busy rfl
    refine returned.of_eq rfl ?_
    split <;> rfl

theorem Windowed.settle (windowed : s.Windowed n) {worker : ℕ} {sent : Bool} {job : Received}
    {error : Option String} {verdict : Option Verdict}
    (stage : s.pool.workers worker = .returned job error verdict) : (s.settle worker sent job verdict).Windowed n := by
  have busy : (s.pool.workers worker).tag? = some job.tag := by rw [stage, Stage.tag?]
  have counted := windowed.counted busy
  have front := s.pool.heldTags_free counted busy
  have fewer : ((s.pool.setWorker worker .idle).heldTags n).Subperm (s.pool.heldTags n) :=
    (List.sublist_cons_self _ _).subperm.trans front.symm.subperm
  have outside := windowed.outside_setWorker counted .idle
  have free : { (if sent then s.setBroker (s.stores.broker.settle job.tag) else s) with
      pool := s.pool.setWorker worker .idle }.Windowed n := by
    cases sent with
    | false =>
      exact windowed.of_subperm fewer le_rfl
        (fun consuming tag member => windowed.connected consuming tag (fewer.subset member)) outside
    | true =>
      refine windowed.of_subperm fewer (List.length_filter_le _ _) (fun consuming tag member => ?_) outside
      have differs : tag ≠ job.tag := by
        rintro rfl
        exact (List.nodup_cons.mp (front.nodup_iff.mp windowed.distinct)).1 member
      exact (mem_unacked_settle differs).mpr (windowed.connected consuming tag (fewer.subset member))
  cases verdict with
  | none => exact free.exit.of_eq rfl rfl
  | some verdict => exact free

theorem Windowed.step (windowed : s.Windowed n) (positive : 0 < n) {event : Event} (offered : s.Offered n event)
    (taken : s.step event = some t) : t.Windowed n := by
  cases effect_of_step taken with
  | rejected => exact windowed
  | beginSubmit => exact windowed.of_eq rfl rfl
  | take => exact windowed.of_eq rfl rfl
  | concludeSubmit _ _ rows _ =>
    refine windowed.of_eq rfl ?_
    rcases rows with rfl | rfl <;> rfl
  | inject => exact windowed.of_eq rfl rfl
  | deliver consuming delivered => exact windowed.deliver consuming (offered.resolve_left positive.ne') delivered
  | consume head => exact windowed.consume head
  | receive idle head => exact windowed.receive offered idle head
  | call called => exact windowed.call called
  | postExecute stage => exact windowed.postExecute stage
  | settle stage => exact windowed.settle stage
  | connectionLost =>
    exact windowed.of_subperm (.refl _) (Nat.zero_le _) (fun consuming => by contradiction) windowed.outside
  | exit => exact windowed.exit

end System

/-- In every run the engine holds at most as many deliveries as it has workers, each in one place, and a job that
the consumer has read finds room in the channel. -/
theorem engine_holds_at_most (positive : 0 < n) {events : List Event}
    (run : Run (Guarded (Steps System.step) (System.Offered n)) .start events s) :
    (s.pool.heldTags n).length ≤ n ∧ (s.pool.heldTags n).Nodup ∧
      ∀ delivery deliveries data, s.pool.deliveries = delivery :: deliveries → decode delivery.2 = some data →
        Machine.Channel.send ⟨n, s.pool.jobQueue, false⟩ (Received.mk delivery.1 data) =
          .sent ⟨n, s.pool.jobQueue ++ [⟨delivery.1, data⟩], false⟩ := by
  have windowed : s.Windowed n := run.invariant
    (fun _ _ _ windowed ⟨offered, taken⟩ => windowed.step positive offered taken) System.windowed_start
  refine ⟨windowed.bounded, windowed.distinct, fun delivery deliveries data head _ => ?_⟩
  have bounded := windowed.bounded
  simp only [Pool.heldTags, head, List.map_cons, List.length_append, List.length_cons, List.length_map] at bounded
  have room : s.pool.jobQueue.length < n := by omega
  rw [Machine.Channel.send, if_neg Bool.false_ne_true, if_pos room]

instance (s : System) (event : Event) : Decidable (s.Offered n event) :=
  match event with
  | .deliver => inferInstanceAs (Decidable (_ ∨ _))
  | .receive _ => inferInstanceAs (Decidable (_ ∧ _))
  | .beginSubmit _ _ _ | .take _ | .concludeSubmit _ _ _ | .inject _ | .consume _ | .call _ _ | .postExecute _ _
  | .settle _ _ | .connectionLost | .exit => isTrue trivial

/-- With one worker the delivery is the only one that is held, and its job is sent to the worker. -/
theorem delivered_job_sent : ∃ final delivery data,
    (startedJob.take 4).foldlM (Machine.guardedStep System.step (System.Offered 1)) .start = some final ∧
      final.pool.deliveries = [delivery] ∧ decode delivery.2 = some data ∧ (final.pool.heldTags 1).length ≤ 1 ∧
        Machine.Channel.send ⟨1, [], false⟩ (Received.mk delivery.1 data) = .sent ⟨1, [⟨delivery.1, data⟩], false⟩ := by
  have ended : ((startedJob.take 4).foldlM (Machine.guardedStep System.step (System.Offered 1)) .start).map
      (fun final =>
        (final.pool.deliveries.map fun delivery => (decode delivery.2).isSome, final.pool.jobQueue.length)) =
        some ([true], 0) := by
    decide +kernel
  obtain ⟨final, executed, state⟩ := Option.map_eq_some_iff.mp ended
  obtain ⟨read, none⟩ := Prod.mk.inj state
  obtain ⟨delivery, deliveries, head, decodes, rest⟩ := List.map_eq_cons_iff.mp read
  rw [List.map_eq_nil_iff.mp rest] at head
  obtain ⟨data, decoded⟩ := Option.isSome_iff_exists.mp decodes
  obtain ⟨bounded, -, sent⟩ := engine_holds_at_most Nat.one_pos (.of_foldlM_guarded executed)
  have sent := sent delivery [] data head decoded
  rw [List.eq_nil_of_length_eq_zero none] at sent
  exact ⟨final, delivery, data, executed, head, decoded, bounded, sent⟩

end JudgeSelf.Engine
