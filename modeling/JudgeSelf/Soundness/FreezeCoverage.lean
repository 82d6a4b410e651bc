import JudgeSelf.Model.Leaderboard.Sweep
import JudgeSelf.ToMathlib.Decimal

/-! # What a freeze covers

The four moments that decide whether a RATED submission is in the frozen standings are independent: its
classification, its insertion, the pending check and the query of the freeze. While a contest runs no sweep
selects it, and the pending check waits for every row that is there and still to be judged. What is inserted
behind the check, or changes behind the query, is lost.
-/

namespace JudgeSelf.LeaderboardService

namespace Database

/-- The standings written for the user of a row contain it with its final status. -/
def Covers (db : Database) (contestId : String) (sub : Submission) : Prop :=
  sub.status ≠ "QUEUE" ∧ ∃ result ∈ db.resultsOf contestId, result.userId = sub.userId ∧
    ∃ state, (∃ detail, result.problemDetails.get? sub.problemId = some detail ∧ state ∈ detail.submissions) ∧
      state.submissionId = toString sub.id ∧ state.status = sub.status

/-- The row is a RATED one of the contest. -/
def IsRated (db : Database) (contestId : String) (sub : Submission) : Prop :=
  db.InContest contestId sub ∧ sub.type = "RATED"

instance (db : Database) (contestId : String) (sub : Submission) : Decidable (db.IsRated contestId sub) :=
  inferInstanceAs (Decidable (_ ∧ _))

/-- The frozen standings miss no RATED submission. -/
def FreezeComplete (db : Database) : Prop :=
  ∀ contest ∈ db.contests, contest.leaderboardFrozen = true →
    ∀ sub ∈ db.submissions, db.IsRated contest.id sub → db.Covers contest.id sub

end Database

/-- The query has returned the row as it stands. -/
def Submission.ReadIn (sub : Submission) (rows : List SubmissionRow) : Prop :=
  ∃ row ∈ rows, row.id = sub.id ∧ row.userId = sub.userId ∧ row.problemId = sub.problemId ∧ row.status = sub.status

instance (sub : Submission) (rows : List SubmissionRow) : Decidable (sub.ReadIn rows) :=
  inferInstanceAs (Decidable (∃ row ∈ rows, _))

/-- The contests that a sweep still has before it. -/
def Sweep.contests : Sweep → List String
  | .counting contestId rest | .selecting contestId rest | .writing contestId _ rest => contestId :: rest

/-- The sweep has found nothing to wait for in the contest. -/
def Sweep.Counted (contestId : String) : Sweep → Prop
  | .counting _ _ => False
  | .selecting current _ | .writing current _ _ => current = contestId

/-- The freeze of the contest has read the submissions. -/
def Sweep.Read (contestId : String) : Sweep → Prop
  | .counting _ _ | .selecting _ _ => False
  | .writing current _ _ => current = contestId

instance (contestId : String) : (sweep : Sweep) → Decidable (sweep.Counted contestId)
  | .counting _ _ => isFalse id
  | .selecting current _ | .writing current _ _ => inferInstanceAs (Decidable (current = contestId))

instance (contestId : String) : (sweep : Sweep) → Decidable (sweep.Read contestId)
  | .counting _ _ | .selecting _ _ => isFalse id
  | .writing current _ _ => inferInstanceAs (Decidable (current = contestId))

namespace Database

/-- By the clock of the database the contest has not ended. -/
def Runs (db : Database) (now : ℤ) (contestId : String) : Prop :=
  ∀ contest ∈ db.contests, contest.id = contestId → databaseTime now ≤ contest.endTime

def Unfrozen (db : Database) (contestId : String) : Prop :=
  ∀ contest ∈ db.contests, contest.id = contestId → contest.leaderboardFrozen = false

instance (db : Database) (now : ℤ) (contestId : String) : Decidable (db.Runs now contestId) :=
  inferInstanceAs (Decidable (∀ contest ∈ db.contests, _))

instance (db : Database) (contestId : String) : Decidable (db.Unfrozen contestId) :=
  inferInstanceAs (Decidable (∀ contest ∈ db.contests, _))

end Database

/-- A RATED row is inserted while its contest runs, or later, as long as the contest is not frozen and no sweep is
past its pending check. The status of a RATED row changes only as long as the contest is not frozen and no freeze
has read it. -/
def ContestSystem.Timely (s : ContestSystem) : ContestEvent → Prop
  | .insert _ problemId type _ =>
    type = "RATED" → ∀ problem ∈ s.database.problems, problem.id = problemId →
      s.database.Runs s.now problem.contestId ∨
        s.database.Unfrozen problem.contestId ∧ ∀ sweep ∈ s.sweeps, ¬ sweep.Counted problem.contestId
  | .update id status =>
    ∀ sub ∈ s.database.submissions, sub.id = id → sub.type = "RATED" →
      ∀ problem ∈ s.database.problems, problem.id = sub.problemId →
        sub.status = status ∨
          s.database.Unfrozen problem.contestId ∧ ∀ sweep ∈ s.sweeps, ¬ sweep.Read problem.contestId
  | _ => True

namespace Database

variable {db : Database} {c c' : String} {rows : List SubmissionRow} {sub : Submission}

private theorem resultsOf_commitFreeze : (db.commitFreeze c rows).resultsOf c' =
    if c' = c then freezeResults c rows else db.resultsOf c' := by
  have mine : ∀ result ∈ freezeResults c rows, result.contestId = c :=
    fun result member => (of_mem_freezeResults member).1
  rw [resultsOf, commitFreeze, List.filter_append]
  split
  · next same =>
    subst same
    rw [deleteContestResults, List.filter_filter, List.filter_eq_nil_iff.mpr (by simp), List.nil_append]
    exact List.filter_eq_self.mpr fun result member => decide_eq_true (mine result member)
  · next other =>
    have none : (freezeResults c rows).filter (fun result => result.contestId = c') = [] := by
      apply List.filter_eq_nil_iff.mpr
      intro result member
      rw [mine result member]
      simpa using Ne.symm other
    rw [none, List.append_nil, deleteContestResults, List.filter_filter, resultsOf]
    apply List.filter_congr
    intro result _
    by_cases here : result.contestId = c' <;> simp [here, other]

/-- The commit covers the rows that its query returned as they stand, if they are judged. -/
theorem covers_commitFreeze :
    (db.commitFreeze c rows).Covers c sub ↔ sub.status ≠ "QUEUE" ∧ sub.ReadIn rows := by
  rw [Covers, resultsOf_commitFreeze, if_pos rfl]
  refine and_congr_right fun _ => ⟨?_, ?_⟩
  · rintro ⟨result, member, user, state, detailed, id, status⟩
    obtain ⟨_, _, _, details⟩ := of_mem_freezeResults member
    rw [details, mem_details_ofVerdicts] at detailed
    obtain ⟨verdict, recorded, problem, rfl⟩ := detailed
    obtain ⟨row, read, mine, rfl⟩ := mem_verdictsOf.mp recorded
    exact ⟨row, read, Nat.toString_injective id, mine.trans user, problem, status⟩
  · rintro ⟨row, read, id, user, problem, status⟩
    have recorded : row.verdict c sub.userId ∈ verdictsOf c sub.userId rows :=
      mem_verdictsOf.mpr ⟨row, read, user, rfl⟩
    obtain ⟨result, member, mine⟩ := exists_mem_freezeResults (List.ne_nil_of_mem recorded)
    obtain ⟨_, _, _, details⟩ := of_mem_freezeResults member
    refine ⟨result, member, mine, (row.verdict c sub.userId).state, ?_, congrArg toString id, status⟩
    rw [details, mem_details_ofVerdicts, mine]
    exact ⟨_, recorded, problem, rfl⟩

/-- The results of the other contests stay, and so does what they cover. -/
theorem covers_commitFreeze_of_ne (other : c' ≠ c) :
    (db.commitFreeze c rows).Covers c' sub ↔ db.Covers c' sub := by
  rw [Covers, Covers, resultsOf_commitFreeze, if_neg other]

theorem FreezeComplete.commitFreeze (complete : db.FreezeComplete)
    (read : ∀ sub ∈ db.submissions, db.IsRated c sub → sub.status ≠ "QUEUE" ∧ sub.ReadIn rows) :
    (db.commitFreeze c rows).FreezeComplete := by
  intro _ member frozen sub present rated
  obtain ⟨contest, before, rfl⟩ := List.mem_map.mp member
  by_cases same : contest.id = c
  · rw [if_pos same] at rated ⊢
    subst same
    exact covers_commitFreeze.mpr (read sub present rated)
  · rw [if_neg same] at frozen rated ⊢
    exact (covers_commitFreeze_of_ne same).mpr (complete contest before frozen sub present rated)

theorem FreezeComplete.insertSubmission (complete : db.FreezeComplete)
    {fresh : sub.id ∉ db.submissions.map Submission.id}
    (outside : ∀ contest ∈ db.contests, contest.leaderboardFrozen = true → ¬ db.IsRated contest.id sub) :
    (db.insertSubmission sub fresh).FreezeComplete := by
  intro contest member frozen other present rated
  rcases List.mem_append.mp present with before | new
  · exact complete contest member frozen other before rated
  · obtain rfl := List.mem_singleton.mp new
    exact absurd rated (outside contest member frozen)

theorem FreezeComplete.deleteSubmission (complete : db.FreezeComplete) (id : ℕ) :
    (db.deleteSubmission id).FreezeComplete :=
  fun contest member frozen sub present => complete contest member frozen sub (List.mem_of_mem_filter present)

theorem FreezeComplete.updateStatus (complete : db.FreezeComplete) {id : ℕ} {status : String}
    (unchanged : ∀ contest ∈ db.contests, contest.leaderboardFrozen = true →
      ∀ sub ∈ db.submissions, db.IsRated contest.id sub → sub.id = id → sub.status = status) :
    (db.updateStatus id status).FreezeComplete := by
  intro contest member frozen sub present rated
  obtain ⟨old, before, rfl⟩ := List.mem_map.mp present
  by_cases same : old.id = id
  · rw [if_pos same] at rated ⊢
    have kept := unchanged contest member frozen old before rated same
    subst kept
    exact complete contest member frozen old before rated
  · rw [if_neg same] at rated ⊢
    exact complete contest member frozen old before rated

end Database

/-- The contest has ended by the clock of the database. -/
def Database.Ended (db : Database) (now : ℤ) (contestId : String) : Prop :=
  ∃ contest ∈ db.contests, contest.id = contestId ∧ contest.endTime < databaseTime now

/-- What a sweep in flight has made sure of. -/
structure Sweep.Sound (db : Database) (now : ℤ) (sweep : Sweep) : Prop where
  ended : ∀ contestId ∈ sweep.contests, db.Ended now contestId
  judged : ∀ contestId, sweep.Counted contestId →
    ∀ sub ∈ db.submissions, db.IsRated contestId sub → sub.status ≠ "QUEUE"
  read : ∀ contestId rows rest, sweep = .writing contestId rows rest →
    ∀ sub ∈ db.submissions, db.IsRated contestId sub → sub.ReadIn rows

/-- The invariant of timely steps. -/
structure ContestSystem.Swept (s : ContestSystem) : Prop where
  sweeps : ∀ sweep ∈ s.sweeps, sweep.Sound s.database s.now
  ended : ∀ contest ∈ s.database.contests, contest.leaderboardFrozen = true → s.database.Ended s.now contest.id
  complete : s.database.FreezeComplete

section Sweeps

variable {db : Database} {now : ℤ} {c : String} {sub : Submission} {s t : ContestSystem} {sweep : Sweep}

private theorem Database.Ended.later {later : ℤ} (ended : db.Ended now c) (passes : now ≤ later) :
    db.Ended later c := by
  obtain ⟨contest, member, id, past⟩ := ended
  exact ⟨contest, member, id, past.trans_le (Int.ediv_le_ediv (by decide) passes)⟩

private theorem Database.Ended.not_runs (ended : db.Ended now c) : ¬ db.Runs now c := by
  obtain ⟨contest, member, id, past⟩ := ended
  exact fun runs => absurd (runs contest member id) (not_le.mpr past)

private theorem Database.Ended.commitFreeze {frozen : String} {rows : List SubmissionRow} (ended : db.Ended now c) :
    (db.commitFreeze frozen rows).Ended now c := by
  obtain ⟨contest, member, id, past⟩ := ended
  refine ⟨_, List.mem_map_of_mem member, ?_⟩
  split <;> exact ⟨id, past⟩

private theorem Sweep.Counted.mem_contests (counted : sweep.Counted c) : c ∈ sweep.contests := by
  cases sweep with
  | counting => exact counted.elim
  | selecting current rest | writing current rows rest => exact List.mem_cons.mpr (.inl (Eq.symm counted))

/-- A sweep that is before its pending check. -/
private theorem Sweep.sound_next {contests : List String} (ended : ∀ c ∈ contests, db.Ended now c) :
    ∀ sweep ∈ Sweep.next contests, sweep.Sound db now := by
  intro sweep member
  cases contests with
  | nil => exact absurd member List.not_mem_nil
  | cons first rest =>
    obtain rfl := List.mem_singleton.mp member
    exact ⟨ended, fun _ counted => counted.elim, fun _ _ _ same => by cases same⟩

/-- Rows are as they were for what a sweep has made sure of. -/
private theorem Sweep.Sound.of_rows {db' : Database} (sound : sweep.Sound db now)
    (contests : db'.contests = db.contests)
    (rows : ∀ c, sweep.Counted c → ∀ sub ∈ db'.submissions, db'.IsRated c sub →
      sub.status ≠ "QUEUE" ∧ (sweep.Read c → ∃ old ∈ db.submissions, db.IsRated c old ∧ old = sub)) :
    sweep.Sound db' now := by
  refine ⟨fun c member => ?_, fun c counted sub member rated => (rows c counted sub member rated).1, ?_⟩
  · rw [Database.Ended, contests]
    exact sound.ended c member
  · rintro c read rest rfl sub member rated
    obtain ⟨_, kept⟩ := rows c rfl sub member rated
    obtain ⟨_, before, wasRated, rfl⟩ := kept rfl
    exact sound.read c read rest rfl _ before wasRated

namespace ContestSystem

private theorem Swept.moveSweep {next : List Sweep} (inv : s.Swept)
    (sound : ∀ sweep ∈ next, sweep.Sound s.database s.now) : (s.moveSweep sweep next).Swept := by
  refine ⟨fun other member => ?_, inv.ended, inv.complete⟩
  rcases List.mem_append.mp member with new | old
  · exact sound other new
  · exact inv.sweeps other (List.mem_of_mem_erase old)

private theorem Swept.tick (inv : s.Swept) (elapsed : ℕ) : Swept { s with now := s.now + elapsed } := by
  have passes : s.now ≤ s.now + elapsed := by omega
  refine ⟨fun sweep member => ?_, fun contest member frozen => (inv.ended contest member frozen).later passes,
    inv.complete⟩
  obtain ⟨ended, judged, read⟩ := inv.sweeps sweep member
  exact ⟨fun c has => (ended c has).later passes, judged, read⟩

/-- A sweep that is past its pending check of a contest keeps RATED insertions out, and a frozen contest does. -/
private theorem Swept.not_inserted {userId problemId type : String} {id : ℕ} (inv : s.Swept)
    (timely : s.Timely (.insert userId problemId type id))
    (rated : s.database.IsRated c (s.newRow userId problemId type id)) :
    (∀ sweep ∈ s.sweeps, ¬ sweep.Counted c) ∧
      ∀ contest ∈ s.database.contests, contest.id = c → contest.leaderboardFrozen = false := by
  obtain ⟨⟨problem, member, same, rfl⟩, isRated⟩ := rated
  rcases timely isRated problem member same with runs | ⟨unfrozen, unread⟩
  · refine ⟨fun sweep inFlight counted => ?_, fun contest present id => ?_⟩
    · exact ((inv.sweeps sweep inFlight).ended _ counted.mem_contests).not_runs runs
    · by_contra frozen
      exact (inv.ended contest present (by simpa using frozen)).not_runs (id ▸ runs)
  · exact ⟨unread, unfrozen⟩

private theorem Swept.insert {userId problemId type : String} {id : ℕ} (inv : s.Swept)
    (timely : s.Timely (.insert userId problemId type id))
    {fresh : (s.newRow userId problemId type id).id ∉ s.database.submissions.map Submission.id}
    (requests : List Request) (issued : List ℕ) :
    Swept { s with
      database := s.database.insertSubmission (s.newRow userId problemId type id) fresh
      requests := requests
      issued := issued } := by
  refine ⟨fun sweep member => (inv.sweeps sweep member).of_rows rfl fun c counted sub present rated => ?_, inv.ended,
    @Database.FreezeComplete.insertSubmission _ _ inv.complete fresh fun contest member frozen rated => ?_⟩
  · rcases List.mem_append.mp present with before | new
    · exact ⟨(inv.sweeps sweep member).judged c counted sub before rated, fun _ => ⟨sub, before, rated, rfl⟩⟩
    · obtain rfl := List.mem_singleton.mp new
      exact absurd counted ((inv.not_inserted timely rated).1 sweep member)
  · rw [(inv.not_inserted timely rated).2 contest member rfl] at frozen
    contradiction

private theorem Swept.conclude {id : ℕ} {outcome : SubmissionService.PublishOutcome} {deleteError : Option String}
    (inv : s.Swept) (requests : List Request) :
    Swept { s with
      requests := requests
      database := concludeRequest s.database id outcome deleteError } := by
  have deleted : Swept { s with
      requests := requests
      database := s.database.deleteSubmission id } := by
    refine ⟨fun sweep member => (inv.sweeps sweep member).of_rows rfl fun c counted sub present rated => ?_, inv.ended,
      inv.complete.deleteSubmission id⟩
    have before := List.mem_of_mem_filter present
    exact ⟨(inv.sweeps sweep member).judged c counted sub before rated, fun _ => ⟨sub, before, rated, rfl⟩⟩
  unfold concludeRequest
  split
  · exact deleted
  · exact ⟨inv.sweeps, inv.ended, inv.complete⟩

private theorem Swept.update {id : ℕ} {status : String} (inv : s.Swept) (timely : s.Timely (.update id status))
    (final : status ≠ "QUEUE") : Swept { s with database := s.database.updateStatus id status } := by
  refine ⟨fun sweep member => (inv.sweeps sweep member).of_rows rfl fun c counted sub present rated => ?_, inv.ended,
    inv.complete.updateStatus fun contest member frozen sub present rated same => ?_⟩
  · obtain ⟨old, before, rfl⟩ := List.mem_map.mp present
    by_cases same : old.id = id
    · rw [if_pos same] at rated ⊢
      refine ⟨final, fun read => ⟨old, before, rated, ?_⟩⟩
      obtain ⟨⟨problem, has, belongs, rfl⟩, isRated⟩ := rated
      rcases timely old before same isRated problem has belongs with unchanged | ⟨_, unread⟩
      · rw [← unchanged]
      · exact absurd read (unread sweep member)
    · rw [if_neg same] at rated ⊢
      exact ⟨(inv.sweeps sweep member).judged c counted old before rated, fun _ => ⟨old, before, rated, rfl⟩⟩
  · obtain ⟨⟨problem, has, belongs, ofContest⟩, isRated⟩ := rated
    rcases timely sub present same isRated problem has belongs with unchanged | ⟨unfrozen, _⟩
    · exact unchanged
    · rw [unfrozen contest member ofContest.symm] at frozen
      contradiction

/-- A new sweep holds contests that have ended. -/
private theorem Swept.begin (inv : s.Swept) :
    Swept { s with sweeps := Sweep.next (s.database.finishedContests s.now) ++ s.sweeps } := by
  refine ⟨fun sweep member => ?_, inv.ended, inv.complete⟩
  rcases List.mem_append.mp member with new | old
  · refine Sweep.sound_next (fun c finished => ?_) sweep new
    obtain ⟨contest, selected, rfl⟩ := List.mem_map.mp finished
    obtain ⟨present, past⟩ := List.mem_filter.mp selected
    simp only [Bool.not_eq_true', decide_eq_true_eq] at past
    exact ⟨contest, present, rfl, past.2⟩
  · exact inv.sweeps sweep old

/-- The pending check sees every RATED row that is still to be judged. -/
private theorem Swept.count {rest : List String} (inv : s.Swept) (member : .counting c rest ∈ s.sweeps) :
    (s.moveSweep (.counting c rest)
      (if s.database.hasPendingSubmissions c then Sweep.next rest else [.selecting c rest])).Swept := by
  obtain ⟨ended, _, _⟩ := inv.sweeps _ member
  refine inv.moveSweep fun sweep next => ?_
  split at next
  · exact Sweep.sound_next (fun c' listed => ended c' (List.mem_cons_of_mem _ listed)) sweep next
  · next none =>
    obtain rfl := List.mem_singleton.mp next
    refine ⟨ended, ?_, fun _ _ _ same => by cases same⟩
    rintro _ rfl sub present rated queued
    refine none (decide_eq_true (List.countP_pos_iff.mpr ⟨sub, present, decide_eq_true ⟨rated.1, queued⟩⟩))

private theorem Swept.select {rest : List String} (inv : s.Swept) (member : .selecting c rest ∈ s.sweeps) :
    (s.moveSweep (.selecting c rest) [.writing c (s.database.ratedSubmissions c) rest]).Swept := by
  obtain ⟨ended, judged, _⟩ := inv.sweeps _ member
  refine inv.moveSweep fun sweep next => ?_
  obtain rfl := List.mem_singleton.mp next
  refine ⟨ended, judged, ?_⟩
  rintro _ rows _ ⟨⟩ sub present rated
  refine ⟨s.database.submissionRow c sub, List.mem_map_of_mem ?_, rfl, rfl, rfl, rfl⟩
  exact (List.sortByKey_perm _ _).mem_iff.mpr (List.mem_filter.mpr ⟨present, decide_eq_true rated⟩)

private theorem Swept.write {rows : List SubmissionRow} {rest : List String} {unlinked : Bool} (inv : s.Swept)
    (member : .writing c rows rest ∈ s.sweeps) :
    Swept { s.moveSweep (.writing c rows rest) (if unlinked then Sweep.next rest else []) with
      database := s.database.commitFreeze c rows } := by
  obtain ⟨ended, judged, read⟩ := inv.sweeps _ member
  have moved : (s.moveSweep (.writing c rows rest) (if unlinked then Sweep.next rest else [])).Swept := by
    refine inv.moveSweep fun sweep next => ?_
    split at next
    · exact Sweep.sound_next (fun c' listed => ended c' (List.mem_cons_of_mem _ listed)) sweep next
    · exact absurd next List.not_mem_nil
  refine ⟨fun sweep inFlight => ?_, fun contest present frozen => ?_, ?_⟩
  · obtain ⟨ended, judged, read⟩ := moved.sweeps sweep inFlight
    exact ⟨fun c' listed => (ended c' listed).commitFreeze, judged, read⟩
  · obtain ⟨before, wasPresent, rfl⟩ := List.mem_map.mp present
    by_cases same : before.id = c
    · rw [if_pos same]
      exact (ended before.id (same ▸ List.mem_cons_self)).commitFreeze
    · rw [if_neg same] at frozen ⊢
      exact (inv.ended before wasPresent frozen).commitFreeze
  · exact inv.complete.commitFreeze fun sub present rated =>
      ⟨judged c rfl sub present rated, read c rows rest rfl sub present rated⟩

/-- A timely step keeps the invariant. -/
theorem swept_step {event : ContestEvent} (inv : s.Swept) (timely : s.Timely event) (taken : s.step event = some t) :
    t.Swept := by
  cases event with
  | tick elapsed =>
    obtain rfl := Option.some.inj taken
    exact inv.tick elapsed
  | load userId problemId =>
    rw [step] at taken
    simp only [bind, Option.bind_eq_some_iff, Option.some.injEq] at taken
    obtain ⟨_, _, _, _, rfl⟩ := taken
    exact ⟨inv.sweeps, inv.ended, inv.complete⟩
  | readStart | readEnd | take =>
    rw [step] at taken
    split at taken
    · obtain rfl := Option.some.inj taken
      exact ⟨inv.sweeps, inv.ended, inv.complete⟩
    · contradiction
  | insert userId problemId type id =>
    rw [step] at taken
    dsimp only at taken
    split at taken
    · split at taken
      · obtain rfl := Option.some.inj taken
        exact inv.insert timely _ _
      · contradiction
    · contradiction
  | conclude id outcome deleteError =>
    rw [step] at taken
    split at taken
    · obtain rfl := Option.some.inj taken
      exact inv.conclude _
    · contradiction
  | update id status =>
    rw [step] at taken
    split at taken
    · next queued =>
      obtain rfl := Option.some.inj taken
      exact inv.update timely queued.2
    · contradiction
  | sweep =>
    obtain rfl := Option.some.inj taken
    exact inv.begin
  | count contestId rest =>
    rw [step] at taken
    split at taken
    · next member =>
      obtain rfl := Option.some.inj taken
      exact inv.count member
    · contradiction
  | select contestId rest =>
    rw [step] at taken
    split at taken
    · next member =>
      obtain rfl := Option.some.inj taken
      exact inv.select member
    · contradiction
  | write contestId rows rest unlinked =>
    rw [step] at taken
    split at taken
    · next member =>
      obtain rfl := Option.some.inj taken
      exact inv.write member
    · contradiction
  | fail sweep =>
    rw [step] at taken
    split at taken
    · obtain rfl := Option.some.inj taken
      exact inv.moveSweep fun _ none => absurd none List.not_mem_nil
    · contradiction

end ContestSystem

end Sweeps

/-- Along timely steps no RATED submission is ever missing from frozen standings. -/
theorem frozen_standings_complete {s t : ContestSystem} {events : List ContestEvent} (idle : s.sweeps = [])
    (unfrozen : ∀ contest ∈ s.database.contests, contest.leaderboardFrozen = false)
    (run : Machine.Run (Machine.Guarded (Machine.Steps ContestSystem.step) ContestSystem.Timely) s events t) :
    t.database.FreezeComplete := by
  have start : s.Swept := by
    refine ⟨fun sweep member => ?_, fun contest member frozen => ?_, fun contest member frozen => ?_⟩
    · rw [idle] at member
      exact absurd member List.not_mem_nil
    · rw [unfrozen contest member] at frozen
      contradiction
    · rw [unfrozen contest member] at frozen
      contradiction
  have preserved : ∀ s event t, s.Swept →
      Machine.Guarded (Machine.Steps ContestSystem.step) ContestSystem.Timely s event t → t.Swept :=
    fun _ _ _ inv ⟨timely, taken⟩ => ContestSystem.swept_step inv timely taken
  have swept : t.Swept := run.invariant preserved start
  exact swept.complete

instance (s : ContestSystem) : (event : ContestEvent) → Decidable (s.Timely event)
  | .insert _ problemId type _ => inferInstanceAs (Decidable (type = "RATED" → ∀ problem ∈ s.database.problems,
      problem.id = problemId → s.database.Runs s.now problem.contestId ∨
        s.database.Unfrozen problem.contestId ∧ ∀ sweep ∈ s.sweeps, ¬ sweep.Counted problem.contestId))
  | .update id status => inferInstanceAs (Decidable (∀ sub ∈ s.database.submissions, sub.id = id → sub.type = "RATED" →
      ∀ problem ∈ s.database.problems, problem.id = sub.problemId → sub.status = status ∨
        s.database.Unfrozen problem.contestId ∧ ∀ sweep ∈ s.sweeps, ¬ sweep.Read problem.contestId))
  | .tick _ | .load _ _ | .readStart _ _ _ | .readEnd _ _ _ _ | .take _ | .conclude _ _ _ | .sweep | .count _ _
  | .select _ _ | .write _ _ _ _ | .fail _ => isTrue trivial

/-- A contest of one minute with one problem, one second before its end. -/
def lastSecond : ContestSystem :=
  ⟨59 * 10 ^ 9, ⟨[⟨"c", 0, 60000000, false⟩], [⟨"p", "c"⟩], [], [], by decide, by decide⟩, [], [], [], []⟩

/-- A request passes both tests of the clock, and the contest ends before its insertion. -/
def classifiedBeforeEnd : List ContestEvent :=
  [.load "u" "p", .readStart "u" "p" ⟨"c", 0, 60 * 10 ^ 9⟩, .readEnd "u" "p" ⟨"c", 0, 60 * 10 ^ 9⟩ (59 * 10 ^ 9),
    .tick (2 * 10 ^ 9)]

def insertedAndJudged : List ContestEvent :=
  [.insert "u" "p" "RATED" 1, .take 1, .conclude 1 .confirmed none, .update 1 "AC"]

/-- A sweep freezes the contest; its query returns `rows`. -/
def sweptContest (rows : List SubmissionRow) : List ContestEvent :=
  [.sweep, .count "c" [], .select "c" [], .write "c" rows [] true]

def insertedBeforeSweep : List ContestEvent :=
  classifiedBeforeEnd ++ insertedAndJudged ++ sweptContest [⟨1, "u", "p", "AC", 61⟩]

def insertedAfterSweep : List ContestEvent := classifiedBeforeEnd ++ sweptContest [] ++ insertedAndJudged

/-- A submission inserted and judged before the sweep is in the frozen standings. -/
theorem inserted_before_sweep_covered : ∃ final,
    insertedBeforeSweep.foldlM (Machine.guardedStep ContestSystem.step ContestSystem.Timely) lastSecond = some final ∧
      final.database.contests.map Contest.leaderboardFrozen = [true] ∧
      final.database.submissions.map Submission.status = ["AC"] ∧ final.database.FreezeComplete := by
  have ended : (insertedBeforeSweep.foldlM (Machine.guardedStep ContestSystem.step ContestSystem.Timely)
      lastSecond).map (fun final => (final.database.contests.map Contest.leaderboardFrozen,
        final.database.submissions.map Submission.status)) = some ([true], ["AC"]) := by
    decide +kernel
  obtain ⟨final, executed, state⟩ := Option.map_eq_some_iff.mp ended
  obtain ⟨frozen, judged⟩ := Prod.mk.inj state
  exact ⟨final, executed, frozen, judged, frozen_standings_complete rfl (by decide) (.of_foldlM_guarded executed)⟩

/-- A submission inserted after the sweep is accepted and not in the frozen standings. -/
theorem inserted_after_sweep_missing : ∃ final,
    insertedAfterSweep.foldlM ContestSystem.step lastSecond = some final ∧ ¬ final.database.FreezeComplete := by
  have ended : (insertedAfterSweep.foldlM ContestSystem.step lastSecond).map (fun final =>
      (final.database.contests, final.database.problems, final.database.submissions, final.database.contestResults)) =
        some ([⟨"c", 0, 60000000, true⟩], [⟨"p", "c"⟩], [⟨1, "p", "u", "RATED", "AC", 61000000⟩], []) := by
    decide +kernel
  obtain ⟨final, executed, state⟩ := Option.map_eq_some_iff.mp ended
  simp only [Prod.mk.injEq] at state
  obtain ⟨contests, problems, submissions, results⟩ := state
  refine ⟨final, executed, fun complete => ?_⟩
  have within : final.database.InContest "c" ⟨1, "p", "u", "RATED", "AC", 61000000⟩ := by
    rw [Database.InContest, problems]
    decide
  obtain ⟨_, result, written, _⟩ := complete ⟨"c", 0, 60000000, true⟩ (by simp [contests]) rfl _
    (by rw [submissions]; exact List.mem_singleton_self _) ⟨within, rfl⟩
  rw [Database.resultsOf, results] at written
  exact absurd written List.not_mem_nil

end JudgeSelf.LeaderboardService
