import JudgeSelf.Model.Engine.Shutdown

/-! # Sends on the closed job queue

`main` closes `JobQueue`, and the consumer sends on it. Nothing orders the two: after the
cancellation the consumer may be about to send, and its `select` may still take a delivery. The
process does not panic in the runs in which `main` closes the queue while the consumer has no job in
hand and the consumer takes no job afterwards; in all others the consumer's next steps panic.
-/

namespace JudgeSelf.Engine.Shutdown

open SubmissionService (Payload)

/-- The consumer has a delivery in hand that is or becomes a job. -/
def Consumer.HoldsJob : Consumer → Prop
  | .decoding body => (decode body).isSome
  | .sending _ => True
  | _ => False

instance (consumer : Consumer) : Decidable consumer.HoldsJob :=
  match consumer with
  | .decoding body => inferInstanceAs (Decidable ((decode body).isSome = true))
  | .sending _ => isTrue trivial
  | .subscribing | .selecting | .returned => isFalse not_false

namespace Process

/-- `main` does not close the queue on a consumer with a job in hand, and the consumer takes no
decodable delivery after the close. -/
def Orderly (s : Process) : Event → Prop
  | .close => ¬ s.consumer.HoldsJob
  | .consumerTake => s.jobQueue.closed → ∀ body ∈ s.deliveries.buffer.head?, decode body = none
  | _ => True

/-- What keeps the consumer from sending on the closed queue. -/
structure Sound (s : Process) : Prop where
  quiet : s.jobQueue.closed → ¬ s.consumer.HoldsJob
  alive : s.panicked = false

variable {s t : Process}

theorem sound_start (workerCount prefetch : ℕ) : (start workerCount prefetch).Sound := ⟨nofun, rfl⟩

/-- A step that leaves the queue open or closed, and the consumer without a new job. -/
theorem Sound.of_same (sound : s.Sound) (closed : t.jobQueue.closed = s.jobQueue.closed)
    (job : t.consumer.HoldsJob → s.consumer.HoldsJob) (alive : t.panicked = s.panicked) : t.Sound where
  quiet shut holds := sound.quiet (closed ▸ shut) (job holds)
  alive := alive.trans sound.alive

theorem Sound.consumerReturns (sound : s.Sound) (error : Bool) : (s.consumerReturns error).Sound :=
  sound.of_same rfl False.elim rfl

theorem Sound.consumerTake (sound : s.Sound) (orderly : s.Orderly .consumerTake)
    (taken : s.advance .consumerTake = some t) : t.Sound := by
  rw [advance] at taken
  split at taken
  · next body deliveries selecting received =>
    cases taken
    refine ⟨fun shut holds => ?_, sound.alive⟩
    have undecodable : decode body = none := orderly shut body (Machine.Channel.head?_of_receive received)
    rw [Consumer.HoldsJob, undecodable] at holds
    contradiction
  · cases taken
    exact sound.consumerReturns false
  · contradiction

/-- An undecodable delivery is given back, so that a job in hand after `decode` was in hand before. -/
theorem Sound.decode (sound : s.Sound) (taken : s.advance .decode = some t) : t.Sound := by
  rw [advance] at taken
  split at taken
  · next body decoding =>
    cases taken
    refine sound.of_same rfl (fun holds => ?_) rfl
    rw [decoding, Consumer.HoldsJob]
    cases decoded : Engine.decode body with
    | none =>
      rw [decoded] at holds
      exact holds.elim
    | some job => rfl
  · contradiction

theorem Sound.send (sound : s.Sound) (taken : s.advance .send = some t) : t.Sound := by
  rw [advance] at taken
  split at taken
  · next job sending =>
    have holds : s.consumer.HoldsJob := by rw [sending]; trivial
    split at taken
    · next panics => exact absurd holds (sound.quiet (Machine.Channel.send_eq_panics_iff.mp panics))
    · contradiction
    · next jobQueue sent =>
      cases taken
      exact sound.of_same (Machine.Channel.closed_of_sent sent) False.elim rfl
  · contradiction

theorem Sound.close (sound : s.Sound) (orderly : s.Orderly .close) (taken : s.advance .close = some t) : t.Sound := by
  rw [advance] at taken
  split at taken
  · obtain ⟨jobQueue, _, rfl⟩ := Option.map_eq_some_iff.mp taken
    exact ⟨fun _ => orderly, sound.alive⟩
  · contradiction

theorem Sound.workerTake (sound : s.Sound) {worker : ℕ} (taken : s.advance (.workerTake worker) = some t) :
    t.Sound := by
  rw [advance] at taken
  split at taken
  · next received =>
    cases taken
    exact sound.of_same (Machine.Channel.closed_of_receive received) id rfl
  · cases taken
    exact sound.of_same rfl id rfl
  · contradiction

theorem Sound.advance (sound : s.Sound) {event : Event} (orderly : s.Orderly event)
    (taken : s.advance event = some t) : t.Sound := by
  cases event with
  | consumerTake => exact sound.consumerTake orderly taken
  | decode => exact sound.decode taken
  | send => exact sound.send taken
  | close => exact sound.close orderly taken
  | workerTake worker => exact sound.workerTake taken
  | signal =>
    cases taken
    exact sound.of_same rfl id rfl
  | arrive body =>
    rw [Process.advance] at taken
    split at taken
    · cases taken
      exact sound.of_same rfl id rfl
    · contradiction
  | disconnect =>
    obtain ⟨deliveries, _, rfl⟩ := Option.map_eq_some_iff.mp taken
    exact sound.of_same rfl id rfl
  | subscribe error =>
    rw [Process.advance] at taken
    split at taken
    · cases taken
      split
      · exact sound.consumerReturns true
      · exact sound.of_same rfl False.elim rfl
    · contradiction
  | consumerDone =>
    rw [Process.advance] at taken
    split at taken
    · split at taken
      · cases taken
        exact sound.consumerReturns true
      · contradiction
    · contradiction
  | handOver worker =>
    rw [Process.advance] at taken
    split at taken
    · split at taken
      · cases taken
        exact sound.of_same rfl False.elim rfl
      · contradiction
    · contradiction
  | wake | finish | workerDone worker =>
    rw [Process.advance] at taken
    split at taken
    · split at taken
      · cases taken
        exact sound.of_same rfl id rfl
      · contradiction
    · contradiction
  | complete worker =>
    rw [Process.advance] at taken
    split at taken
    · cases taken
      exact sound.of_same rfl id rfl
    · contradiction

theorem Sound.step (sound : s.Sound) {event : Event} (orderly : s.Orderly event) (taken : s.step event = some t) :
    t.Sound := by
  rw [Process.step] at taken
  split at taken
  · contradiction
  · exact sound.advance orderly taken

/-- With a job in hand and the queue closed, the consumer's next steps end in a panic. -/
theorem panics_of_holdsJob (shut : s.jobQueue.closed) (holds : s.consumer.HoldsJob) (alive : s.panicked = false)
    (running : s.main ≠ .returned) : ∃ events t, Machine.Run (Machine.Steps step) s events t ∧ t.panicked = true := by
  have live : ¬ (s.panicked ∨ s.main = .returned) := by simp [alive, running]
  have panics (job : SubmissionData) : s.jobQueue.send job = .panics := Machine.Channel.send_eq_panics_iff.mpr shut
  cases stage : s.consumer with
  | sending job =>
    refine ⟨[.send], { s with panicked := true }, Machine.Run.single ?_, rfl⟩
    rw [Machine.Steps, step, if_neg live, Process.advance, stage]
    simp only [panics]
  | decoding body =>
    rw [stage] at holds
    obtain ⟨job, decoded⟩ := Option.isSome_iff_exists.mp holds
    have first : s.step .decode = some { s with consumer := .sending job } := by
      rw [step, if_neg live, Process.advance, stage]
      simp only [decoded, Option.elim_some]
    have second : ({ s with consumer := .sending job } : Process).step .send =
        some { s with consumer := .sending job, panicked := true } := by
      rw [step, if_neg live, Process.advance]
      simp only [panics]
    exact ⟨[.decode, .send], _, ⟨_, first, Machine.Run.single second⟩, rfl⟩
  | subscribing | selecting | returned =>
    rw [stage] at holds
    exact holds.elim

/-- Any other step leaves a job in hand in front of the closed queue. -/
theorem panics_of_disorderly {event : Event} (disorderly : ¬ s.Orderly event) (taken : s.step event = some t) :
    ∃ events u, Machine.Run (Machine.Steps step) t events u ∧ u.panicked = true := by
  rw [step] at taken
  split at taken
  · contradiction
  next live =>
  obtain ⟨alive, running⟩ := not_or.mp live
  have alive : s.panicked = false := Bool.eq_false_iff.mpr alive
  rw [Process.advance.eq_def] at taken
  cases event with
  | close =>
    have holds : s.consumer.HoldsJob := not_not.mp disorderly
    dsimp only at taken
    split at taken
    · obtain ⟨jobQueue, shut, rfl⟩ := Option.map_eq_some_iff.mp taken
      exact panics_of_holdsJob (Machine.Channel.closed_of_close shut).2 holds alive Main.noConfusion
    · contradiction
  | consumerTake =>
    simp only [Orderly, Classical.not_imp, not_forall] at disorderly
    obtain ⟨shut, body, head, decodable⟩ := disorderly
    dsimp only at taken
    split at taken
    · next other deliveries selecting received =>
      cases taken
      obtain rfl : other = body := Option.some.inj ((Machine.Channel.head?_of_receive received).symm.trans head)
      exact panics_of_holdsJob shut (Option.isSome_iff_ne_none.mpr decodable) alive running
    · next received =>
      have none_eq : none = some body := (Machine.Channel.head?_of_receive received).symm.trans head
      contradiction
    · contradiction
  | _ => exact absurd trivial disorderly

end Process

/-- In every run in which `main` does not close the queue while the consumer has a job in hand, and the consumer takes
no job afterwards, no goroutine sends on the closed queue; from any other step on, a run that does can follow. -/
theorem orderly_shutdown {workerCount prefetch : ℕ} {events : List Event} {s : Process}
    (run : Machine.Run (Machine.Guarded (Machine.Steps Process.step) Process.Orderly)
      (.start workerCount prefetch) events s) :
    s.panicked = false ∧ ∀ event t, s.step event = some t → ¬ s.Orderly event →
      ∃ later u, Machine.Run (Machine.Steps Process.step) t later u ∧ u.panicked = true := by
  have preserved : ∀ s event t, s.Sound → Machine.Guarded (Machine.Steps Process.step) Process.Orderly s event t →
      t.Sound := fun _ _ _ sound ⟨orderly, taken⟩ => sound.step orderly taken
  have sound : s.Sound := run.invariant preserved (Process.sound_start workerCount prefetch)
  exact ⟨sound.alive, fun _ _ taken disorderly => Process.panics_of_disorderly disorderly taken⟩

def accepted (submissionId : String) : Payload :=
  .submission
    { submissionId, code := "", language := "C++17", problemId := "p", problemVersion := 0, type := "RATED"
      userId := "u", relativeSubmissionTime := 0 }

/-- The signal comes while a worker judges a submission. -/
def judging : List Event :=
  [.subscribe none, .arrive (accepted "s"), .consumerTake, .decode, .send, .workerTake 0, .arrive (accepted "t"),
    .signal]

/-- The consumer stops before `main` closes the queue, and the worker ends its job. -/
def drained : List Event := judging ++ [.consumerDone, .wake, .close, .complete 0, .workerDone 0, .finish]

/-- After the signal the consumer's `select` takes the delivery that is there, and `main` closes the queue before the
consumer sends. -/
def overrun : List Event := judging ++ [.consumerTake, .wake, .close, .decode, .send]

def Worker.IsRunning : Worker → Prop
  | .running _ => True
  | .selecting | .returned => False

instance (worker : Worker) : Decidable worker.IsRunning :=
  match worker with
  | .running _ => isTrue trivial
  | .selecting | .returned => isFalse not_false

instance (s : Process) (event : Event) : Decidable (s.Orderly event) :=
  match event with
  | .close => inferInstanceAs (Decidable (¬ s.consumer.HoldsJob))
  | .consumerTake =>
    inferInstanceAs (Decidable (s.jobQueue.closed = true → ∀ body ∈ s.deliveries.buffer.head?, decode body = none))
  | .signal | .arrive _ | .disconnect | .subscribe _ | .consumerDone | .decode | .send | .handOver _ | .wake | .finish
  | .workerDone _ | .workerTake _ | .complete _ => isTrue trivial

theorem drained_shut_down : ∃ s,
    Machine.Run (Machine.Guarded (Machine.Steps Process.step) Process.Orderly) (.start 1 1) drained s ∧
      s.panicked = false := by
  have ended : (drained.foldlM (Machine.guardedStep Process.step Process.Orderly) (.start 1 1)).isSome = true := by
    decide +kernel
  obtain ⟨s, executed⟩ := Option.isSome_iff_exists.mp ended
  have run := Machine.Run.of_foldlM_guarded executed
  exact ⟨s, run, (orderly_shutdown run).1⟩

/-- The panic cuts off the job that `main` waits for. -/
theorem overrun_panics : ∃ s,
    Machine.Run (Machine.Steps Process.step) (.start 1 1) overrun s ∧ s.panicked = true ∧ s.main = .waiting ∧
      (s.workers 0).IsRunning := by
  have ended : (overrun.foldlM Process.step (.start 1 1)).any
      (fun s => s.panicked = true ∧ s.main = .waiting ∧ (s.workers 0).IsRunning) = true := by
    decide +kernel
  obtain ⟨s, executed, panics⟩ := (Option.any_eq_true _ _).mp ended
  exact ⟨s, Machine.Run.of_foldlM executed, of_decide_eq_true panics⟩

end JudgeSelf.Engine.Shutdown
