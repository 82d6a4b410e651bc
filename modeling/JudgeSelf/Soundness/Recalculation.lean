import JudgeSelf.Model.Leaderboard.Handlers
import JudgeSelf.Model.Leaderboard.Recorded
import JudgeSelf.ToMathlib.Decimal

/-! # Recalculations next to live verdicts

A recalculation forgets the entry of a user and replays the rows of the table; verdicts keep being
stored, published and handled meanwhile. A row read in status 'QUEUE' is replayed like a verdict,
and once its id is processed the final verdict is skipped. Along runs in which no such row is
recorded, every final verdict is recorded, on its way to the script, or about to be selected.
-/

namespace JudgeSelf.LeaderboardService

/-- The script is not called for a row in status 'QUEUE' whose id is not processed. -/
def Service.RecordsVerdicts (s : Service) : Action → Prop
  | .advance (.process (verdict :: _)) => verdict.status = "QUEUE" → verdict.submissionId ∈
      ((s.redis.metadata verdict.contestId verdict.userId).getD .initial).processedSubmissions
  | _ => True

instance (s : Service) (action : Action) : Decidable (s.RecordsVerdicts action) :=
  match action with
  | .advance (.process (verdict :: _)) => inferInstanceAs (Decidable (verdict.status = "QUEUE" →
      verdict.submissionId ∈
        ((s.redis.metadata verdict.contestId verdict.userId).getD .initial).processedSubmissions))
  | .advance (.process []) | .advance (.zAdd _ _ _ _ _) | .advance (.hDel _ _) | .advance (.select _ _) =>
    isTrue trivial
  | .submit _ | .store _ _ _ | .publish _ | .deliver _ | .call _ | .recalculate _ _ => isTrue trivial

/-- Everything but a call that no published verdict has caused. -/
def Action.IsDelivered : Action → Prop
  | .call _ => False
  | _ => True

instance (action : Action) : Decidable action.IsDelivered :=
  match action with
  | .call _ => isFalse id
  | .submit _ | .store _ _ _ | .publish _ | .deliver _ | .recalculate _ _ | .advance _ => isTrue trivial

/-- All messages on their way to the script. -/
def Service.messages (s : Service) : List QueueMessage :=
  s.unpublished ++ s.queue ++ s.handlers.flatMap Handler.pending

namespace Database

/-- The message is about a RATED row and carries its status, or was read before the verdict. -/
def Knows (db : Database) (verdict : QueueMessage) : Prop :=
  ∃ sub ∈ db.ratedOf verdict.contestId verdict.userId, verdict.submissionId = toString sub.id ∧
    (verdict.status = sub.status ∨ verdict.status = "QUEUE")

/-- The recorded submission is a RATED row of the user with its final status. -/
def Final (db : Database) (contestId userId : String) (recorded : ProblemProblemState) : Prop :=
  ∃ sub ∈ db.ratedOf contestId userId, recorded.submissionId = toString sub.id ∧
    recorded.status = sub.status ∧ sub.status ≠ "QUEUE"

/-- Rows stay, and a status changes at most from 'QUEUE'. -/
def Advances (db later : Database) : Prop :=
  ∀ c u, ∀ sub ∈ db.ratedOf c u, ∃ next ∈ later.ratedOf c u, next.id = sub.id ∧
    (next.status = sub.status ∨ sub.status = "QUEUE")

variable {db later : Database}

theorem Advances.refl (db : Database) : db.Advances db := fun _ _ sub member => ⟨sub, member, rfl, .inl rfl⟩

theorem Advances.knows (advances : db.Advances later) {verdict : QueueMessage} (known : db.Knows verdict) :
    later.Knows verdict := by
  obtain ⟨sub, member, id, status⟩ := known
  obtain ⟨next, present, same, kept⟩ := advances _ _ sub member
  refine ⟨next, present, by rw [id, same], ?_⟩
  rcases status with status | queued
  · rcases kept with kept | queued
    · exact .inl (status.trans kept.symm)
    · exact .inr (status.trans queued)
  · exact .inr queued

theorem Advances.final (advances : db.Advances later) {c u : String} {recorded : ProblemProblemState}
    (final : db.Final c u recorded) : later.Final c u recorded := by
  obtain ⟨sub, member, id, status, judged⟩ := final
  obtain ⟨next, present, same, kept⟩ := advances c u sub member
  have unchanged := kept.resolve_right judged
  exact ⟨next, present, by rw [id, same], status.trans unchanged.symm, unchanged ▸ judged⟩

private theorem advances_insertSubmission (db : Database) (sub : Submission)
    (fresh : sub.id ∉ db.submissions.map Submission.id) : db.Advances (db.insertSubmission sub fresh) := by
  intro c u row member
  rw [mem_ratedOf] at member
  exact ⟨row, mem_ratedOf.mpr ⟨List.mem_append_left _ member.1, member.2⟩, rfl, .inl rfl⟩

private theorem mem_ratedOf_insertSubmission {db : Database} {sub row : Submission}
    (fresh : sub.id ∉ db.submissions.map Submission.id) {c u : String}
    (member : row ∈ (db.insertSubmission sub fresh).ratedOf c u) : row ∈ db.ratedOf c u ∨ row = sub := by
  rw [mem_ratedOf] at member
  obtain ⟨present, rated⟩ := member
  rcases List.mem_append.mp present with before | new
  · exact .inl (mem_ratedOf.mpr ⟨before, rated⟩)
  · exact .inr (List.mem_singleton.mp new)

private theorem advances_updateStatus (db : Database) {id : ℕ} {status : String}
    (queued : ∀ sub ∈ db.submissions, sub.id = id → sub.status = "QUEUE") :
    db.Advances (db.updateStatus id status) := by
  intro c u row member
  rw [mem_ratedOf] at member
  by_cases same : row.id = id
  · refine ⟨{ row with status }, mem_ratedOf.mpr ⟨?_, member.2⟩, rfl, .inr (queued row member.1 same)⟩
    exact List.mem_map.mpr ⟨row, member.1, if_pos same⟩
  · refine ⟨row, mem_ratedOf.mpr ⟨?_, member.2⟩, rfl, .inl rfl⟩
    exact List.mem_map.mpr ⟨row, member.1, if_neg same⟩

/-- A row after the update is the updated one or was there before. -/
theorem mem_ratedOf_updateStatus {db : Database} {id : ℕ} {status : String} {row : Submission} {c u : String}
    (member : row ∈ (db.updateStatus id status).ratedOf c u) :
    row ∈ db.ratedOf c u ∨ ∃ sub ∈ db.ratedOf c u, sub.id = id ∧ row.id = id := by
  rw [mem_ratedOf] at member
  obtain ⟨present, rated⟩ := member
  obtain ⟨sub, before, rfl⟩ := List.mem_map.mp present
  by_cases same : sub.id = id
  · rw [if_pos same] at rated ⊢
    exact .inr ⟨sub, mem_ratedOf.mpr ⟨before, rated⟩, same, same⟩
  · rw [if_neg same] at rated ⊢
    exact .inl (mem_ratedOf.mpr ⟨before, rated⟩)

end Database

/-- What holds along runs that record only verdicts. -/
structure Faithful (s : Service) : Prop where
  known : ∀ verdict ∈ s.messages, s.database.Knows verdict
  wellFormed : ∀ c u metadata, s.redis.metadata c u = some metadata → metadata.WellFormed
  recorded : ∀ c u metadata, s.redis.metadata c u = some metadata →
    ∀ sub ∈ metadata.submissions, s.database.Final c u sub
  /-- A row is undecided, its message is on the way, it will be selected, or it is processed. -/
  kept : ∀ c u, ∀ sub ∈ s.database.ratedOf c u, sub.status = "QUEUE" ∨
    (∃ verdict ∈ s.messages, verdict.Concerns c u ∧ verdict.submissionId = toString sub.id) ∨
    .select c u ∈ s.handlers ∨
    toString sub.id ∈ ((s.redis.metadata c u).getD .initial).processedSubmissions

/-- Steps that leave the entries alone and lose no message and no selection. -/
theorem Faithful.mono {s t : Service} (faithful : Faithful s)
    (entries : ∀ c u, t.redis.metadata c u = s.redis.metadata c u)
    (advances : s.database.Advances t.database)
    (messages : ∀ verdict ∈ s.messages, verdict ∈ t.messages)
    (selects : ∀ c u, .select c u ∈ s.handlers → .select c u ∈ t.handlers)
    (known : ∀ verdict ∈ t.messages, verdict ∈ s.messages ∨ t.database.Knows verdict)
    (rows : ∀ c u, ∀ row ∈ t.database.ratedOf c u, row ∈ s.database.ratedOf c u ∨ row.status = "QUEUE" ∨
      ∃ verdict ∈ t.messages, verdict.Concerns c u ∧ verdict.submissionId = toString row.id) :
    Faithful t where
  known verdict member := by
    rcases known verdict member with before | new
    · exact advances.knows (faithful.known verdict before)
    · exact new
  wellFormed c u metadata stored := faithful.wellFormed c u metadata (entries c u ▸ stored)
  recorded c u metadata stored sub member :=
    advances.final (faithful.recorded c u metadata (entries c u ▸ stored) sub member)
  kept c u row member := by
    rcases rows c u row member with before | queued | ⟨verdict, present, concerned, id⟩
    · rw [entries]
      rcases faithful.kept c u row before with queued | ⟨verdict, present, concerned⟩ | select | processed
      · exact .inl queued
      · exact .inr (.inl ⟨verdict, messages verdict present, concerned⟩)
      · exact .inr (.inr (.inl (selects c u select)))
      · exact .inr (.inr (.inr processed))
    · exact .inl queued
    · exact .inr (.inl ⟨verdict, present, concerned, id⟩)

/-- Steps that only hand messages on. -/
theorem Faithful.handOver {s t : Service} (faithful : Faithful s)
    (entries : ∀ c u, t.redis.metadata c u = s.redis.metadata c u) (database : t.database = s.database)
    (messages : ∀ verdict, verdict ∈ t.messages ↔ verdict ∈ s.messages)
    (selects : ∀ c u, .select c u ∈ s.handlers → .select c u ∈ t.handlers) : Faithful t := by
  apply faithful.mono entries (database ▸ .refl _) (fun verdict => (messages verdict).mpr) selects
  · intro verdict member
    exact .inl ((messages verdict).mp member)
  · intro c u row member
    exact .inl (database ▸ member)

private theorem mem_messages {s : Service} {verdict : QueueMessage} : verdict ∈ s.messages ↔
    verdict ∈ s.unpublished ∨ verdict ∈ s.queue ∨ ∃ handler ∈ s.handlers, verdict ∈ handler.pending := by
  simp [Service.messages]

private theorem mem_or_mem_erase {verdict other : QueueMessage} {l : List QueueMessage}
    (member : verdict ∈ l) : other ∈ l ↔ other = verdict ∨ other ∈ l.erase verdict := by
  constructor
  · intro present
    by_cases same : other = verdict
    · exact .inl same
    · exact .inr ((List.mem_erase_of_ne same).mpr present)
  · rintro (rfl | rest)
    · exact member
    · exact List.mem_of_mem_erase rest

section Advance

variable {s : Service} {handler : Handler} {rest : List Handler}

private theorem mem_messages_of_perm (perm : s.handlers.Perm (handler :: rest)) {verdict : QueueMessage} :
    verdict ∈ s.messages ↔ verdict ∈ handler.pending ∨
      verdict ∈ s.unpublished ∨ verdict ∈ s.queue ∨ ∃ other ∈ rest, verdict ∈ other.pending := by
  simp only [mem_messages, perm.mem_iff, List.mem_cons, exists_eq_or_imp]
  tauto

/-- A script call that records no row in status 'QUEUE'. -/
private theorem Faithful.eval {verdict : QueueMessage} {pending : List QueueMessage} (faithful : Faithful s)
    (perm : s.handlers.Perm (.process (verdict :: pending) :: rest))
    (allowed : s.RecordsVerdicts (.advance (.process (verdict :: pending)))) :
    Faithful (s.advance rest (.process (verdict :: pending))) := by
  have here : verdict ∈ s.messages := (mem_messages_of_perm perm).mpr (.inl List.mem_cons_self)
  have messages (other : QueueMessage) : other ∈ s.messages ↔ other = verdict ∨
      other ∈ (s.advance rest (.process (verdict :: pending))).messages := by
    rw [mem_messages_of_perm perm, mem_messages]
    simp only [Handler.pending_process, Handler.pending_zAdd, List.mem_cons, Service.advance, exists_eq_or_imp]
    tauto
  have entry (c u : String) :
      (s.advance rest (.process (verdict :: pending))).redis.metadata c u =
        if verdict.Concerns c u then some (((s.redis.metadata c u).getD .initial).absorb verdict)
        else s.redis.metadata c u := metadata_evalVerdict s.redis verdict c u
  have before (c u : String) : ((s.redis.metadata c u).getD .initial).WellFormed ∧
      ∀ sub ∈ ((s.redis.metadata c u).getD .initial).submissions, s.database.Final c u sub := by
    cases stored : s.redis.metadata c u with
    | none => exact ⟨UserContestMetadata.wellFormed_initial, List.forall_mem_nil _⟩
    | some metadata => exact ⟨faithful.wellFormed c u metadata stored, faithful.recorded c u metadata stored⟩
  refine ⟨fun other member => faithful.known other ((messages other).mpr (.inr member)), ?_, ?_, ?_⟩
  · intro c u metadata stored
    rw [entry] at stored
    split at stored
    · obtain rfl := Option.some.inj stored
      exact (before c u).1.absorb verdict
    · exact faithful.wellFormed c u metadata stored
  · intro c u metadata stored sub member
    rw [entry] at stored
    split at stored
    · next concerned =>
      obtain ⟨rfl, rfl⟩ := concerned
      obtain rfl := Option.some.inj stored
      rcases UserContestMetadata.mem_submissions_absorb member with old | ⟨rfl, fresh⟩
      · exact (before _ _).2 sub old
      · obtain ⟨row, present, id, status⟩ := faithful.known verdict here
        have judged : verdict.status ≠ "QUEUE" := fun queued => fresh (allowed queued)
        have same := status.resolve_right judged
        exact ⟨row, present, id, same, same ▸ judged⟩
    · exact faithful.recorded c u metadata stored sub member
  · intro c u sub member
    rw [entry]
    rcases faithful.kept c u sub member with queued | ⟨other, present, concerned, id⟩ | select | processed
    · exact .inl queued
    · rcases (messages other).mp present with rfl | remains
      · rw [if_pos concerned, Option.getD_some, UserContestMetadata.mem_processedSubmissions_absorb]
        exact .inr (.inr (.inr (.inr id.symm)))
      · exact .inr (.inl ⟨other, remains, concerned, id⟩)
    · refine .inr (.inr (.inl (List.mem_cons_of_mem _ ?_)))
      exact (List.mem_cons.mp (perm.mem_iff.mp select)).resolve_left Handler.noConfusion
    · refine .inr (.inr (.inr ?_))
      split
      · rw [Option.getD_some, UserContestMetadata.mem_processedSubmissions_absorb]
        exact .inl processed
      · exact processed

/-- The `hDel` of a recalculation, which goes on to select. -/
private theorem Faithful.hDel {c u : String} (faithful : Faithful s)
    (perm : s.handlers.Perm (.hDel c u :: rest)) : Faithful (s.advance rest (.hDel c u)) := by
  have messages (verdict : QueueMessage) :
      verdict ∈ (s.advance rest (.hDel c u)).messages ↔ verdict ∈ s.messages := by
    rw [mem_messages_of_perm perm, mem_messages]
    simp [Service.advance]
  have entry (c' u' : String) : (s.advance rest (.hDel c u)).redis.metadata c' u' =
      if c' = c ∧ u' = u then none else s.redis.metadata c' u' := metadata_hDel s.redis c u c' u'
  refine ⟨fun verdict member => faithful.known verdict ((messages verdict).mp member), ?_, ?_, ?_⟩
  · intro c' u' metadata stored
    rw [entry] at stored
    split at stored
    · contradiction
    · exact faithful.wellFormed c' u' metadata stored
  · intro c' u' metadata stored
    rw [entry] at stored
    split at stored
    · contradiction
    · exact faithful.recorded c' u' metadata stored
  · intro c' u' sub member
    by_cases same : c' = c ∧ u' = u
    · obtain ⟨rfl, rfl⟩ := same
      exact .inr (.inr (.inl List.mem_cons_self))
    · rw [entry, if_neg same]
      rcases faithful.kept c' u' sub member with queued | ⟨verdict, present, concerned⟩ | select | processed
      · exact .inl queued
      · exact .inr (.inl ⟨verdict, (messages verdict).mpr present, concerned⟩)
      · refine .inr (.inr (.inl (List.mem_cons_of_mem _ ?_)))
        exact (List.mem_cons.mp (perm.mem_iff.mp select)).resolve_left Handler.noConfusion
      · exact .inr (.inr (.inr processed))

/-- The query of a recalculation puts every row of the user on the way to the script. -/
private theorem Faithful.select {c u : String} (faithful : Faithful s)
    (perm : s.handlers.Perm (.select c u :: rest)) : Faithful (s.advance rest (.select c u)) := by
  have messages (verdict : QueueMessage) :
      verdict ∈ (s.advance rest (.select c u)).messages ↔ verdict ∈ s.messages ∨
        ∃ sub ∈ s.database.ratedOf c u, (s.database.submissionRow c sub).verdict c u = verdict := by
    rw [mem_messages_of_perm perm, mem_messages]
    simp only [Service.advance, List.mem_cons, exists_eq_or_imp, Handler.pending_process,
      Handler.pending_select, List.mem_map, Database.mem_ratedSubmissionsOf, List.not_mem_nil, false_or,
      exists_exists_and_eq_and]
    exact iff_of_eq (by ac_rfl)
  refine ⟨?_, faithful.wellFormed, faithful.recorded, ?_⟩
  · intro verdict member
    rcases (messages verdict).mp member with before | ⟨sub, present, rfl⟩
    · exact faithful.known verdict before
    · exact ⟨sub, present, rfl, .inl rfl⟩
  · intro c' u' sub member
    by_cases same : c' = c ∧ u' = u
    · obtain ⟨rfl, rfl⟩ := same
      exact .inr (.inl ⟨_, (messages _).mpr (.inr ⟨sub, member, rfl⟩), ⟨rfl, rfl⟩, rfl⟩)
    · rcases faithful.kept c' u' sub member with queued | ⟨verdict, present, concerned⟩ | select | processed
      · exact .inl queued
      · exact .inr (.inl ⟨verdict, (messages verdict).mpr (.inl present), concerned⟩)
      · refine .inr (.inr (.inl (List.mem_cons_of_mem _ ?_)))
        apply (List.mem_cons.mp (perm.mem_iff.mp select)).resolve_left
        intro equal
        exact same (Handler.select.inj equal)
      · exact .inr (.inr (.inr processed))

private theorem Faithful.advance (faithful : Faithful s) (perm : s.handlers.Perm (handler :: rest))
    (allowed : s.RecordsVerdicts (.advance handler)) : Faithful (s.advance rest handler) := by
  cases handler with
  | process pending =>
    cases pending with
    | nil =>
      refine faithful.handOver (fun _ _ => rfl) rfl ?_ fun c' u' select => ?_
      · intro verdict
        rw [mem_messages_of_perm perm, mem_messages]
        simp [Service.advance]
      · exact (List.mem_cons.mp (perm.mem_iff.mp select)).resolve_left Handler.noConfusion
    | cons verdict pending => exact faithful.eval perm allowed
  | zAdd c u metadata stamp pending =>
    refine faithful.handOver (fun _ _ => rfl) rfl ?_ fun c' u' select => ?_
    · intro verdict
      rw [mem_messages_of_perm perm, mem_messages]
      simp [Service.advance, or_left_comm]
    · exact List.mem_cons_of_mem _
        ((List.mem_cons.mp (perm.mem_iff.mp select)).resolve_left Handler.noConfusion)
  | hDel c u => exact faithful.hDel perm
  | select c u => exact faithful.select perm

end Advance

/-- The engine stores a final status, and the verdict of a RATED row is on its way. -/
private theorem Faithful.store {s t : Service} {id : ℕ} {status : String} {time : ℤ} (faithful : Faithful s)
    (taken : s.storeStatus id status time = some t) : Faithful t := by
  simp only [Service.storeStatus, bind, Option.bind_eq_some_iff] at taken
  obtain ⟨sub, found, problem, ofProblem, taken⟩ := taken
  split at taken
  · next judged =>
    obtain rfl := Option.some.inj taken
    have member := List.mem_of_find?_eq_some found
    have hasId : sub.id = id := by simpa using List.find?_some found
    have inProblems := List.mem_of_find?_eq_some ofProblem
    have hasProblem : problem.id = sub.problemId := by simpa using List.find?_some ofProblem
    have queued : ∀ row ∈ s.database.submissions, row.id = id → row.status = "QUEUE" := by
      intro row present same
      rw [Database.eq_of_id_eq present member (same.trans hasId.symm)]
      exact judged.1
    have advances : s.database.Advances (s.database.updateStatus id status) :=
      s.database.advances_updateStatus queued
    refine faithful.mono (fun _ _ => rfl) advances (fun verdict present => ?_) (fun _ _ select => select)
      (fun verdict present => ?_) fun c u row present => ?_
    · simp only [mem_messages, List.mem_append] at present ⊢
      tauto
    · simp only [mem_messages, List.mem_append] at present ⊢
      rcases present with (before | new) | before
      · exact .inl (.inl before)
      · right
        split at new
        · next rated =>
          obtain rfl := List.mem_singleton.mp new
          refine ⟨{ sub with status }, Database.mem_ratedOf.mpr ⟨?_, ?_, rfl, rated⟩, rfl, .inl rfl⟩
          · exact List.mem_map.mpr ⟨sub, member, if_pos hasId⟩
          · exact ⟨problem, inProblems, hasProblem, rfl⟩
        · contradiction
      · exact .inl (.inr before)
    · rcases Database.mem_ratedOf_updateStatus present with before | ⟨old, before, same, here⟩
      · exact .inl before
      · obtain ⟨inTable, within, user, rated⟩ := Database.mem_ratedOf.mp before
        obtain rfl := Database.eq_of_id_eq inTable member (same.trans hasId.symm)
        refine .inr (.inr ⟨old.verdict problem status time, ?_, ⟨?_, user.symm⟩, ?_⟩)
        · rw [mem_messages, List.mem_append, if_pos rated]
          exact .inl (.inr (List.mem_singleton_self _))
        · exact within.eq inProblems hasProblem
        · rw [here, ← same]
          rfl
  · contradiction

private theorem Faithful.step {s t : Service} {action : Action} (faithful : Faithful s)
    (delivered : action.IsDelivered) (allowed : s.RecordsVerdicts action)
    (taken : s.step action = some t) : Faithful t := by
  cases action with
  | submit sub =>
    rw [Service.step] at taken
    split at taken
    · next fresh =>
      obtain rfl := Option.some.inj taken
      refine faithful.mono (fun _ _ => rfl) (s.database.advances_insertSubmission sub fresh.1)
        (fun _ => id) (fun _ _ => id) (fun _ => .inl) fun c u row present => ?_
      rcases Database.mem_ratedOf_insertSubmission fresh.1 present with before | rfl
      · exact .inl before
      · exact .inr (.inl fresh.2)
    · contradiction
  | store id status time => exact faithful.store taken
  | publish verdict =>
    rw [Service.step] at taken
    split at taken
    · next member =>
      obtain rfl := Option.some.inj taken
      refine faithful.handOver (fun _ _ => rfl) rfl ?_ ?_
      · intro other
        rw [mem_messages, mem_messages, mem_or_mem_erase member, List.mem_append, List.mem_singleton]
        tauto
      · exact fun _ _ select => select
    · contradiction
  | deliver verdict =>
    rw [Service.step] at taken
    split at taken
    · next member =>
      obtain rfl := Option.some.inj taken
      refine faithful.handOver (fun _ _ => rfl) rfl ?_ ?_
      · intro other
        rw [mem_messages, mem_messages, mem_or_mem_erase member]
        simp only [List.mem_cons, exists_eq_or_imp, Handler.pending_process, List.not_mem_nil, or_false]
        tauto
      · exact fun _ _ => List.mem_cons_of_mem _
    · contradiction
  | call verdict => exact False.elim delivered
  | recalculate c u =>
    obtain rfl := Option.some.inj taken
    refine faithful.handOver (fun _ _ => rfl) rfl ?_ ?_
    · intro other
      simp [mem_messages]
    · exact fun _ _ => List.mem_cons_of_mem _
  | advance handler =>
    rw [Service.step] at taken
    split at taken
    · next member =>
      obtain rfl := Option.some.inj taken
      exact faithful.advance (List.perm_cons_erase member) allowed
    · contradiction

private theorem faithful_start {database : Database} (noRows : database.submissions = []) :
    Faithful (.start Redis.empty database) := by
  refine ⟨nofun, nofun, nofun, fun c u sub member => ?_⟩
  have present := (Database.mem_ratedOf.mp member).1
  change sub ∈ database.submissions at present
  rw [noRows] at present
  contradiction

/-- Along runs whose commands are in order and record only verdicts. -/
def Service.Orderly (s : Service) (action : Action) : Prop := s.InOrder action ∧ s.RecordsVerdicts action

instance (s : Service) (action : Action) : Decidable (s.Orderly action) := inferInstanceAs (Decidable (_ ∧ _))

private theorem faithful_of_run {s t : Service} {actions : List Action} (faithful : Faithful s)
    (delivered : ∀ action ∈ actions, action.IsDelivered)
    (run : Machine.Run (Machine.Guarded (Machine.Steps Service.step) Service.Orderly) s actions t) :
    Faithful t := by
  have preserved : ∀ s action t, Faithful s →
      Machine.Guarded (Machine.Guarded (Machine.Steps Service.step) Service.Orderly)
        (fun _ action => action.IsDelivered) s action t → Faithful t :=
    fun _ _ _ faithful ⟨delivered, orderly, taken⟩ => faithful.step delivered orderly.2 taken
  exact (run.guard_labels delivered).invariant preserved faithful

/-- Once nothing about the user is on the way, every row is recorded once, with its status. -/
theorem Faithful.exists_recorded {s : Service} (faithful : Faithful s) {c u : String}
    (judged : ∀ sub ∈ s.database.ratedOf c u, sub.status ≠ "QUEUE")
    (handled : ∀ verdict ∈ s.messages, ¬ verdict.Concerns c u) (selected : .select c u ∉ s.handlers)
    {sub : Submission} (member : sub ∈ s.database.ratedOf c u) :
    ∃ metadata, s.redis.metadata c u = some metadata ∧
      ∃ recorded, metadata.submissions.filter (fun r => r.submissionId = toString sub.id) = [recorded] ∧
        recorded.status = sub.status := by
  have processed : toString sub.id ∈ ((s.redis.metadata c u).getD .initial).processedSubmissions := by
    rcases faithful.kept c u sub member with queued | ⟨verdict, present, concerned, _⟩ | select | processed
    · exact absurd queued (judged sub member)
    · exact absurd concerned (handled verdict present)
    · exact absurd select selected
    · exact processed
  cases stored : s.redis.metadata c u with
  | none =>
    rw [stored] at processed
    contradiction
  | some metadata =>
    rw [stored, Option.getD_some] at processed
    obtain ⟨recorded, once⟩ := (faithful.wellFormed c u metadata stored).exists_unique processed
    refine ⟨metadata, rfl, recorded, once, ?_⟩
    have found := List.mem_filter.mp (once ▸ List.mem_singleton_self recorded)
    rw [decide_eq_true_eq] at found
    obtain ⟨row, present, id, status, _⟩ := faithful.recorded c u metadata stored recorded found.1
    have same : row.id = sub.id := Nat.toString_injective (id.symm.trans found.2)
    rw [status, Database.eq_of_id_eq (Database.mem_ratedOf.mp present).1 (Database.mem_ratedOf.mp member).1 same]

/-- In every orderly run from an empty board: once every RATED row of a user is judged, every verdict
has been delivered and all handlers have returned, the entry holds each row once with its final
status, and the score is that of the entry. -/
theorem recalculation_keeps_verdicts {database : Database} (noRows : database.submissions = [])
    {actions : List Action} (delivered : ∀ action ∈ actions, action.IsDelivered) {final : Service}
    (run : Machine.Run (Machine.Guarded (Machine.Steps Service.step) Service.Orderly)
      (.start Redis.empty database) actions final)
    {c u : String} (judged : ∀ sub ∈ final.database.ratedOf c u, sub.status ≠ "QUEUE")
    (handled : ∀ verdict ∈ final.unpublished ++ final.queue, ¬ verdict.Concerns c u)
    (returned : ∀ handler ∈ final.handlers, ¬ handler.Concerns c u)
    {sub : Submission} (member : sub ∈ final.database.ratedOf c u) :
    ∃ metadata, final.redis.metadata c u = some metadata ∧
      (∃ recorded, metadata.submissions.filter (fun r => r.submissionId = toString sub.id) = [recorded] ∧
        recorded.status = sub.status) ∧
      final.redis.score? c u = some (computeUserScores metadata).score := by
  have faithful := faithful_of_run (faithful_start noRows) delivered run
  have settled : final.Settled :=
    settled_of_run (settled_start (by simp)) (run.mono fun _ _ _ step => ⟨step.1.1, step.2⟩)
  have messages : ∀ verdict ∈ final.messages, ¬ verdict.Concerns c u := by
    intro verdict present
    rcases List.mem_append.mp present with waiting | pending
    · exact handled verdict waiting
    · obtain ⟨handler, present, pending⟩ := List.mem_flatMap.mp pending
      exact fun concerned => returned handler present (.inl ⟨verdict, pending, concerned⟩)
  have selected : .select c u ∉ final.handlers := fun present => returned _ present (.inr ⟨rfl, rfl⟩)
  obtain ⟨metadata, stored, recorded⟩ := faithful.exists_recorded judged messages selected member
  exact ⟨metadata, stored, recorded, settled.score_of_idle returned stored⟩

/-- A running contest with one problem and no submissions. -/
def runningContest : Database where
  contests := [⟨"7", 0, 3600000000, false⟩]
  problems := [⟨"p", "7"⟩]
  submissions := []
  contestResults := []
  problemIds := List.nodup_singleton "p"
  submissionIds := List.nodup_nil

def submittedRow : Submission := ⟨1, "p", "u", "RATED", "QUEUE", 60000000⟩

def acceptedVerdict : QueueMessage := ⟨"1", "7", "u", "p", "AC", 60⟩

/-- The row as a recalculation reads it before the verdict. -/
def queuedVerdict : QueueMessage := ⟨"1", "7", "u", "p", "QUEUE", 60⟩

/-- A recalculation between the storing of the verdict and its delivery. -/
def recalculatedAfterVerdict : List Action :=
  [.submit submittedRow, .store 1 "AC" 60, .recalculate "7" "u", .advance (.hDel "7" "u"),
    .advance (.select "7" "u"), .advance (.process [acceptedVerdict]),
    .advance (.zAdd "7" "u" (.ofVerdicts [acceptedVerdict]) 0 []), .advance (.process []),
    .publish acceptedVerdict, .deliver acceptedVerdict, .advance (.process [acceptedVerdict]),
    .advance (.zAdd "7" "u" (.ofVerdicts [acceptedVerdict]) 1 []), .advance (.process [])]

/-- A recalculation while the submission is in the queue of the engine. -/
def recalculatedWhileQueued : List Action :=
  [.submit submittedRow, .recalculate "7" "u", .advance (.hDel "7" "u"), .advance (.select "7" "u"),
    .advance (.process [queuedVerdict]), .advance (.zAdd "7" "u" (.ofVerdicts [queuedVerdict]) 0 []),
    .advance (.process []), .store 1 "AC" 60, .publish acceptedVerdict, .deliver acceptedVerdict,
    .advance (.process [acceptedVerdict]), .advance (.zAdd "7" "u" (.ofVerdicts [queuedVerdict]) 1 []),
    .advance (.process [])]

/-- A recalculation after the verdict records it, and the delivered verdict changes nothing. -/
theorem recalculatedAfterVerdict_keeps_verdict : ∃ final,
    recalculatedAfterVerdict.foldlM (Machine.guardedStep Service.step Service.Orderly)
      (.start Redis.empty runningContest) = some final ∧
      ∃ metadata, final.redis.metadata "7" "u" = some metadata ∧
        (∃ recorded, metadata.submissions.filter (fun r => r.submissionId = toString 1) = [recorded] ∧
          recorded.status = "AC") ∧
        final.redis.score? "7" "u" = some (computeUserScores metadata).score := by
  have ended : (recalculatedAfterVerdict.foldlM (Machine.guardedStep Service.step Service.Orderly)
      (.start Redis.empty runningContest)).map
        (fun final => (final.database.ratedOf "7" "u", final.unpublished ++ final.queue, final.handlers)) =
      some ([⟨1, "p", "u", "RATED", "AC", 60000000⟩], [], []) := by
    decide +kernel
  obtain ⟨final, executed, states⟩ := Option.map_eq_some_iff.mp ended
  obtain ⟨rows, rest⟩ := Prod.mk.inj states
  obtain ⟨messages, handlers⟩ := Prod.mk.inj rest
  exact ⟨final, executed, recalculation_keeps_verdicts rfl (by decide) (.of_foldlM_guarded executed)
    (by simp [rows]) (by simp [messages]) (by simp [handlers]) (rows ▸ List.mem_singleton_self _)⟩

/-- Everything has returned, the row is accepted, and the entry still says 'QUEUE' with score zero. -/
theorem recalculatedWhileQueued_loses_verdict :
    let final := recalculatedWhileQueued.foldlM Service.step (.start Redis.empty runningContest)
    (∀ action ∈ recalculatedWhileQueued, action.IsDelivered) ∧
      (final.map fun s => (s.database.ratedOf "7" "u", s.unpublished ++ s.queue, s.handlers)) =
        some ([⟨1, "p", "u", "RATED", "AC", 60000000⟩], [], []) ∧
      (final.map fun s => ((s.redis.metadata "7" "u").map UserContestMetadata.submissions,
        s.redis.score? "7" "u")) = some (some [⟨"1", 60, "QUEUE"⟩], some 0) := by
  decide +kernel

end JudgeSelf.LeaderboardService
