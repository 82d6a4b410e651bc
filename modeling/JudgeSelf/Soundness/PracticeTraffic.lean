import JudgeSelf.Model.Engine.Worker
import JudgeSelf.Model.Leaderboard.Sweep

/-! # Practice submissions and the contest

Added PRACTICE rows are not seen by the query of the freeze nor by the one of the recalculation, and
the engine publishes no verdict for them. The query for pending submissions has no test of the type:
a PRACTICE row in 'QUEUE' makes the sweep skip a finished contest.
-/

namespace JudgeSelf.LeaderboardService

/-- The second database is the first one with PRACTICE rows added to its submissions. -/
structure AddsPractice (db db' : Database) : Prop where
  contests : db'.contests = db.contests
  problems : db'.problems = db.problems
  contestResults : db'.contestResults = db.contestResults
  kept : db.submissions.Sublist db'.submissions
  added : ∀ sub ∈ db'.submissions, sub ∉ db.submissions → sub.type = "PRACTICE"

/-- The stores agree in everything that is shown of contests. -/
def SameBoard (stores stores' : Stores) : Prop :=
  stores'.redis = stores.redis ∧ stores'.database.contests = stores.database.contests ∧
    stores'.database.contestResults = stores.database.contestResults

/-- A contest has a row in 'QUEUE', of any type. -/
def Waits (db : Database) (contestId : String) : Prop :=
  ∃ sub ∈ db.submissions, db.InContest contestId sub ∧ sub.status = "QUEUE"

theorem hasPendingSubmissions_iff {db : Database} {contestId : String} :
    db.hasPendingSubmissions contestId ↔ Waits db contestId := by
  simp [Database.hasPendingSubmissions, Waits, List.countP_pos_iff]

namespace AddsPractice

variable {db db' : Database}

/-- A query for other types returns the same rows. -/
theorem filter_eq (adds : AddsPractice db db') {p : Submission → Bool}
    (selects : ∀ sub, p sub → sub.type ≠ "PRACTICE") : db'.submissions.filter p = db.submissions.filter p := by
  have old : db'.submissions.filter p ⊆ db.submissions.filter p := by
    intro sub member
    obtain ⟨present, selected⟩ := List.mem_filter.mp member
    refine List.mem_filter.mpr ⟨?_, selected⟩
    by_contra new
    exact selects sub selected (adds.added sub present new)
  have distinct : (db'.submissions.filter p).Nodup := (db'.submissionIds.of_map _).filter _
  exact ((adds.kept.filter p).eq_of_length_le (distinct.subperm old).length_le).symm

private theorem inContest_iff (adds : AddsPractice db db') {c : String} {sub : Submission} :
    db'.InContest c sub ↔ db.InContest c sub := by
  rw [Database.InContest, adds.problems, Database.InContest]

private theorem submissionRow_eq (adds : AddsPractice db db') (c : String) :
    db'.submissionRow c = db.submissionRow c := by
  funext sub
  rw [Database.submissionRow, Database.submissionRow, Database.contest?, Database.contest?, adds.contests]

private theorem ratedSubmissions_eq (adds : AddsPractice db db') (c : String) :
    db'.ratedSubmissions c = db.ratedSubmissions c := by
  have rows : (db'.submissions.filter fun sub => db'.InContest c sub ∧ sub.type = "RATED") =
      db.submissions.filter fun sub => db.InContest c sub ∧ sub.type = "RATED" := by
    simp only [adds.inContest_iff]
    apply adds.filter_eq
    intro sub selected
    rw [(of_decide_eq_true selected).2]
    decide
  rw [Database.ratedSubmissions, rows, adds.submissionRow_eq, Database.ratedSubmissions]

private theorem ratedSubmissionsOf_eq (adds : AddsPractice db db') (c u : String) :
    db'.ratedSubmissionsOf c u = db.ratedSubmissionsOf c u := by
  have rows : db'.ratedOf c u = db.ratedOf c u := by
    simp only [Database.ratedOf, adds.inContest_iff]
    apply adds.filter_eq
    intro sub selected
    rw [(of_decide_eq_true selected).2.2]
    decide
  rw [Database.ratedSubmissionsOf, rows, adds.submissionRow_eq, Database.ratedSubmissionsOf]

end AddsPractice

/-- Replace the submissions. -/
def Database.withSubmissions (db : Database) (submissions : List Submission)
    (ids : (submissions.map Submission.id).Nodup) : Database :=
  { db with submissions, submissionIds := ids }

theorem AddsPractice.eq_withSubmissions {db db' : Database} (adds : AddsPractice db db') :
    db' = db.withSubmissions db'.submissions db'.submissionIds := by
  obtain ⟨contests, problems, contestResults, _, _⟩ := adds
  cases db
  cases db'
  simp_all [Database.withSubmissions]

private theorem runQuery_map {α β : Type} (fault : Option FreezeQuery) (query : FreezeQuery) (f : α → β) (a : α) :
    runQuery fault query (f a) = (runQuery fault query a).map f := by
  rw [runQuery, runQuery]
  split <;> rfl

/-- A transaction that reads the same rows does the same, whatever the other submissions are. -/
theorem freezeTransaction_withSubmissions (fault : Option FreezeQuery) {c : String} {db : Database}
    {submissions : List Submission} {ids : (submissions.map Submission.id).Nodup}
    (rows : (db.withSubmissions submissions ids).ratedSubmissions c = db.ratedSubmissions c) :
    freezeTransaction fault c (db.withSubmissions submissions ids) =
      (freezeTransaction fault c db).map fun final => final.withSubmissions submissions ids := by
  let extend (db : Database) : Database := db.withSubmissions submissions ids
  let insert (db : Database) (entry : StandingEntry × ℕ) : Except FreezeQuery Database :=
    runQuery fault (.insertResult entry.2) (db.insertContestResult (entry.1.result c entry.2))
  have inserted (db : Database) (entry : StandingEntry × ℕ) : insert (extend db) entry = (insert db entry).map extend :=
    runQuery_map fault _ extend (db.insertContestResult (entry.1.result c entry.2))
  have deleted : runQuery fault .deleteResults ((extend db).deleteContestResults c) =
      (runQuery fault .deleteResults (db.deleteContestResults c)).map extend :=
    runQuery_map fault _ extend (db.deleteContestResults c)
  have updated (start : Database) : runQuery fault .updateContest ((extend start).setLeaderboardFrozen c) =
      (runQuery fault .updateContest (start.setLeaderboardFrozen c)).map extend :=
    runQuery_map fault _ extend (start.setLeaderboardFrozen c)
  have committed (start : Database) : runQuery fault .commit (extend start) =
      (runQuery fault .commit start).map extend := runQuery_map fault _ extend start
  simp only [freezeTransaction, rows, bind]
  refine Except.bind_of_commutes fun _ => Except.bind_of_commutes fun read => ?_
  change (runQuery fault .deleteResults ((extend db).deleteContestResults c)).bind _ = _
  rw [deleted]
  refine Except.bind_map_of_commutes fun cleared => ?_
  change (List.foldlM insert (extend cleared) _).bind _ = _
  rw [Except.foldlM_map inserted]
  refine Except.bind_map_of_commutes fun final => ?_
  rw [updated]
  exact Except.bind_map_of_commutes committed

/-- Same Redis, and the second database has PRACTICE rows added. -/
def Beside (stores stores' : Stores) : Prop :=
  stores'.redis = stores.redis ∧ AddsPractice stores.database stores'.database

theorem Beside.sameBoard {stores stores' : Stores} (beside : Beside stores stores') : SameBoard stores stores' :=
  ⟨beside.1, beside.2.contests, beside.2.contestResults⟩

/-- A transaction publishes no change of the submissions and of the problems. -/
theorem freezeTransaction_kept {fault : Option FreezeQuery} {c : String} {db final : Database}
    (ran : freezeTransaction fault c db = .ok final) :
    final.submissions = db.submissions ∧ final.problems = db.problems := by
  obtain rfl := freezeTransaction_eq_ok ran
  exact ⟨rfl, rfl⟩

/-- A freeze has the same outcome with the added rows, whichever statement throws. -/
theorem Beside.freeze {stores stores' : Stores} (beside : Beside stores stores') (fault : Option FreezeQuery)
    (c : String) :
    (executeContestHardFreeze fault c stores').1 = (executeContestHardFreeze fault c stores).1 ∧
      Beside (executeContestHardFreeze fault c stores).2 (executeContestHardFreeze fault c stores').2 := by
  obtain ⟨redis, db⟩ := stores
  obtain ⟨redis', db'⟩ := stores'
  obtain ⟨sameRedis, adds⟩ := beside
  obtain rfl : redis' = redis := sameRedis
  have rows := adds.ratedSubmissions_eq c
  rw [adds.eq_withSubmissions] at rows
  have ran := freezeTransaction_withSubmissions fault rows
  rw [← adds.eq_withSubmissions] at ran
  simp only [executeContestHardFreeze, ran]
  cases committed : freezeTransaction fault c db with
  | error query => exact ⟨rfl, rfl, adds⟩
  | ok final =>
    have extended : AddsPractice final (final.withSubmissions db'.submissions db'.submissionIds) := by
      obtain ⟨submissions, _⟩ := freezeTransaction_kept committed
      exact ⟨rfl, rfl, rfl, submissions ▸ adds.kept, submissions ▸ adds.added⟩
    simp only [Except.map]
    split_ifs <;> exact ⟨rfl, rfl, extended⟩

/-- What a freeze leaves alone: the rows of submissions and problems. -/
theorem executeContestHardFreeze_kept (fault : Option FreezeQuery) (c : String) (stores : Stores) :
    (executeContestHardFreeze fault c stores).2.database.submissions = stores.database.submissions ∧
      (executeContestHardFreeze fault c stores).2.database.problems = stores.database.problems := by
  rw [executeContestHardFreeze]
  split
  · exact ⟨rfl, rfl⟩
  · next committed =>
    dsimp only
    split_ifs <;> exact freezeTransaction_kept committed

theorem waits_congr {db db' : Database} (submissions : db'.submissions = db.submissions)
    (problems : db'.problems = db.problems) (c : String) : Waits db' c ↔ Waits db c := by
  rw [Waits, submissions, Waits]
  simp only [Database.InContest, problems]

theorem Beside.recalculate {stores stores' : Stores} (beside : Beside stores stores') (c u : String) :
    Beside (recalculateLiveUserScore stores c u) (recalculateLiveUserScore stores' c u) := by
  refine ⟨?_, beside.2⟩
  simp only [recalculateLiveUserScore, beside.1, beside.2.ratedSubmissionsOf_eq]

/-- The verdicts that the engine publishes for executions, in their order. -/
def publishedVerdicts (updateSubmission : Engine.Verdict → Option String)
    (executions : List (Engine.Job × List Engine.Models.Result)) : List QueueMessage :=
  executions.filterMap fun execution =>
    (Engine.postExecute updateSubmission execution.1 execution.2).bind Engine.PostExecution.published

/-- The executions of practice submissions publish nothing. -/
theorem publishedVerdicts_eq (updateSubmission : Engine.Verdict → Option String)
    (executions : List (Engine.Job × List Engine.Models.Result)) :
    publishedVerdicts updateSubmission executions = publishedVerdicts updateSubmission
      (executions.filter fun execution => execution.1.submissionData.type ≠ "PRACTICE") := by
  have silent (execution : Engine.Job × List Engine.Models.Result)
      (practice : execution.1.submissionData.type = "PRACTICE") :
      (Engine.postExecute updateSubmission execution.1 execution.2).bind Engine.PostExecution.published = none := by
    rw [Engine.postExecute]
    cases execution.1.verdict execution.2 with
    | none => rfl
    | some verdict =>
      rw [Option.map_some, Option.bind_some]
      split
      · rfl
      · rw [practice]
        rfl
  rw [publishedVerdicts, publishedVerdicts, List.filterMap_filter]
  apply List.filterMap_congr
  intro execution _
  by_cases practice : execution.1.submissionData.type = "PRACTICE"
  · rw [silent execution practice, if_neg (by simpa using practice)]
  · rw [if_pos (by simpa using practice)]

/-- What a round leaves alone. -/
theorem sweepRound_kept (fault : Option SweepFault) (c : String) (stores : Stores) :
    (sweepRound fault c stores).2.database.submissions = stores.database.submissions ∧
      (sweepRound fault c stores).2.database.problems = stores.database.problems := by
  rw [sweepRound]
  split_ifs
  · exact ⟨rfl, rfl⟩
  · exact ⟨rfl, rfl⟩
  · exact ⟨rfl, rfl⟩
  · have kept := executeContestHardFreeze_kept (fault.bind SweepFault.freezeQuery) c stores
    rcases ran : executeContestHardFreeze (fault.bind SweepFault.freezeQuery) c stores with ⟨reply, after⟩
    rw [ran] at kept
    cases reply <;> exact kept

/-- A round for a contest that waits in both databases or in none has the same outcome in both. -/
theorem Beside.sweepRound {stores stores' : Stores} (beside : Beside stores stores') (fault : Option SweepFault)
    {c : String} (agree : Waits stores'.database c ↔ Waits stores.database c) :
    (sweepRound fault c stores').1 = (sweepRound fault c stores).1 ∧
      Beside (sweepRound fault c stores).2 (sweepRound fault c stores').2 := by
  have decision : stores'.database.hasPendingSubmissions c = stores.database.hasPendingSubmissions c := by
    rw [Bool.eq_iff_iff, hasPendingSubmissions_iff, hasPendingSubmissions_iff, agree]
  rw [LeaderboardService.sweepRound, LeaderboardService.sweepRound, decision]
  split_ifs
  · exact ⟨rfl, beside⟩
  · exact ⟨rfl, beside⟩
  · exact ⟨rfl, beside⟩
  · obtain ⟨reply, after⟩ := beside.freeze (fault.bind SweepFault.freezeQuery) c
    rcases ran : executeContestHardFreeze (fault.bind SweepFault.freezeQuery) c stores with ⟨first, final⟩
    rcases ran' : executeContestHardFreeze (fault.bind SweepFault.freezeQuery) c stores' with ⟨second, final'⟩
    rw [ran, ran'] at reply after
    obtain rfl : second = first := reply
    cases second <;> exact ⟨rfl, after⟩

/-- A sweep over such contests has the same outcome in both databases, whatever throws. -/
theorem Beside.sweepRounds (fault : String → Option SweepFault) (contests : List String)
    {stores stores' : Stores} (beside : Beside stores stores')
    (agree : ∀ c ∈ contests, (Waits stores'.database c ↔ Waits stores.database c)) :
    Beside (sweepRounds fault contests stores).2 (sweepRounds fault contests stores').2 := by
  induction contests generalizing stores stores' with
  | nil => exact beside
  | cons c rest ih =>
    obtain ⟨here, later⟩ := List.forall_mem_cons.mp agree
    obtain ⟨reply, after⟩ := beside.sweepRound (fault c) here
    obtain ⟨submissions, problems⟩ := sweepRound_kept (fault c) c stores
    obtain ⟨submissions', problems'⟩ := sweepRound_kept (fault c) c stores'
    rw [LeaderboardService.sweepRounds, LeaderboardService.sweepRounds]
    rcases first : LeaderboardService.sweepRound (fault c) c stores with ⟨reply₁, final⟩
    rcases second : LeaderboardService.sweepRound (fault c) c stores' with ⟨reply₂, final'⟩
    rw [first, second] at reply after
    rw [first] at submissions problems
    rw [second] at submissions' problems'
    obtain rfl : reply₂ = reply₁ := reply
    cases reply₂ with
    | error thrown => exact after
    | ok _ =>
      refine ih after fun other member => ?_
      rw [waits_congr submissions problems, waits_congr submissions' problems']
      exact later other member

theorem Beside.sweepContests (fault : String → Option FreezeQuery) (contests : List String)
    {stores stores' : Stores} (beside : Beside stores stores')
    (agree : ∀ c ∈ contests, (Waits stores'.database c ↔ Waits stores.database c)) :
    Beside (sweepContests fault contests stores) (sweepContests fault contests stores') := by
  rw [← sweepRounds_freeze, ← sweepRounds_freeze]
  exact beside.sweepRounds _ contests agree

/-- The contests that wait are those of the first database, unless a row in 'QUEUE' was added. -/
theorem AddsPractice.waits_iff {db db' : Database} (adds : AddsPractice db db') (c : String) :
    Waits db' c ↔ Waits db c ∨
      ∃ sub ∈ db'.submissions, sub ∉ db.submissions ∧ db.InContest c sub ∧ sub.status = "QUEUE" := by
  simp only [Waits, adds.inContest_iff]
  constructor
  · rintro ⟨sub, member, waiting⟩
    by_cases old : sub ∈ db.submissions
    · exact .inl ⟨sub, old, waiting⟩
    · exact .inr ⟨sub, member, old, waiting⟩
  · rintro (⟨sub, member, waiting⟩ | ⟨sub, member, _, waiting⟩)
    · exact ⟨sub, adds.kept.subset member, waiting⟩
    · exact ⟨sub, member, waiting⟩

/-- No contest row of the id is left unfrozen. -/
def Frozen (db : Database) (c : String) : Prop := ∀ contest ∈ db.contests, contest.id = c → contest.leaderboardFrozen

theorem frozen_frozenDatabase {db : Database} {c c' : String} :
    Frozen (frozenDatabase c' db) c ↔ Frozen db c ∨ c = c' := by
  have contests : (frozenDatabase c' db).contests = db.contests.map fun contest =>
    if contest.id = c' then { contest with leaderboardFrozen := true } else contest := rfl
  simp only [Frozen, contests, List.forall_mem_map]
  by_cases same : c = c'
  · subst same
    simp only [or_true, iff_true]
    intro contest _ here
    split
    · rfl
    · next other => rw [if_neg other] at here; exact absurd here other
  · simp only [same, or_false]
    refine forall₂_congr fun contest _ => ?_
    split
    · next other =>
      have apart : contest.id ≠ c := fun here => same (here.symm.trans other)
      simp [apart]
    · rfl

/-- A sweep without faults freezes the contests of its list that do not wait, and no others. -/
theorem frozen_sweepContests (contests : List String) (stores : Stores) (c : String) :
    Frozen (sweepContests (fun _ => none) contests stores).database c ↔
      Frozen stores.database c ∨ c ∈ contests ∧ ¬ Waits stores.database c := by
  induction contests generalizing stores with
  | nil => simp [sweepContests]
  | cons c' rest ih =>
    rw [sweepContests]
    by_cases waits : Waits stores.database c'
    · rw [if_pos (hasPendingSubmissions_iff.mpr waits), ih, List.mem_cons]
      refine or_congr_right (and_congr_left fun free => ?_)
      exact ⟨.inr, fun member => member.resolve_left fun same => free (same ▸ waits)⟩
    · rw [if_neg (hasPendingSubmissions_iff.not.mpr waits), executeContestHardFreeze_none]
      dsimp only
      rw [ih, frozen_frozenDatabase, List.mem_cons]
      have same : Waits (frozenDatabase c' stores.database) c ↔ Waits stores.database c := waits_congr rfl rfl c
      rw [same]
      constructor
      · rintro ((before | rfl) | ⟨later, free⟩)
        · exact .inl before
        · exact .inr ⟨.inl rfl, waits⟩
        · exact .inr ⟨.inr later, free⟩
      · rintro (before | ⟨rfl | later, free⟩)
        · exact .inl (.inl before)
        · exact .inl (.inr rfl)
        · exact .inr ⟨later, free⟩

theorem not_frozen_of_finished {db : Database} {now : ℤ} {c : String} (finished : c ∈ db.finishedContests now) :
    ¬ Frozen db c := by
  obtain ⟨contest, member, rfl⟩ := List.mem_map.mp finished
  obtain ⟨present, open_⟩ := List.mem_filter.mp member
  intro frozen
  simp [frozen contest present rfl] at open_

/-- Added PRACTICE submissions never change what a freeze writes, what a recalculation leaves and what
the engine publishes; they leave the sweep alone exactly when no finished contest of it gets a row in
'QUEUE' that does not wait for a row of its own anyway. -/
theorem practice_leaves_contest_iff {db db' : Database} (adds : AddsPractice db db') (redis : Redis) (now : ℤ) :
    ((∀ fault c, (executeContestHardFreeze fault c ⟨redis, db'⟩).1 = (executeContestHardFreeze fault c ⟨redis, db⟩).1 ∧
        SameBoard (executeContestHardFreeze fault c ⟨redis, db⟩).2 (executeContestHardFreeze fault c ⟨redis, db'⟩).2) ∧
      (∀ c u, SameBoard (recalculateLiveUserScore ⟨redis, db⟩ c u) (recalculateLiveUserScore ⟨redis, db'⟩ c u)) ∧
      (∀ updateSubmission executions, publishedVerdicts updateSubmission executions =
        publishedVerdicts updateSubmission
          (executions.filter fun execution => execution.1.submissionData.type ≠ "PRACTICE")) ∧
      ∀ fault, SameBoard (checkForFinishedContests fault now ⟨redis, db⟩)
        (checkForFinishedContests fault now ⟨redis, db'⟩)) ↔
      ∀ c ∈ db.finishedContests now,
        (∃ sub ∈ db'.submissions, sub ∉ db.submissions ∧ db.InContest c sub ∧ sub.status = "QUEUE") →
        ∃ sub ∈ db.submissions, db.InContest c sub ∧ sub.status = "QUEUE" := by
  have beside : Beside ⟨redis, db⟩ ⟨redis, db'⟩ := ⟨rfl, adds⟩
  have finished : db'.finishedContests now = db.finishedContests now := by
    rw [Database.finishedContests, adds.contests, Database.finishedContests]
  constructor
  · rintro ⟨_, _, _, sweeps⟩ c member new
    by_contra free
    have contests := (sweeps fun _ => none).2.1
    have frozen : Frozen (checkForFinishedContests (fun _ => none) now ⟨redis, db⟩).database c :=
      (frozen_sweepContests _ _ c).mpr (.inr ⟨member, free⟩)
    have open_ : ¬ Frozen (checkForFinishedContests (fun _ => none) now ⟨redis, db'⟩).database c := by
      rw [checkForFinishedContests, frozen_sweepContests]
      rintro (before | ⟨_, settled⟩)
      · exact not_frozen_of_finished (finished ▸ member) before
      · exact settled ((adds.waits_iff c).mpr (.inr new))
    rw [Frozen, contests] at open_
    exact open_ frozen
  · intro covered
    refine ⟨fun fault c => ?_, fun c u => (beside.recalculate c u).sameBoard,
      fun updateSubmission executions => publishedVerdicts_eq updateSubmission executions, fun fault => ?_⟩
    · obtain ⟨reply, after⟩ := beside.freeze fault c
      exact ⟨reply, after.sameBoard⟩
    · rw [checkForFinishedContests, checkForFinishedContests, finished]
      refine (beside.sweepContests fault _ fun c member => ?_).sameBoard
      rw [adds.waits_iff]
      exact or_iff_left_of_imp (covered c member)

/-- A finished contest with one problem and no submissions. -/
def contestOver : Database where
  contests := [⟨"7", 0, 100, false⟩]
  problems := [⟨"p", "7"⟩]
  submissions := []
  contestResults := []
  problemIds := List.nodup_singleton "p"
  submissionIds := List.nodup_nil

/-- The same with one practice submission in the given status. -/
def practiced (status : String) : Database :=
  contestOver.withSubmissions [⟨2, "p", "u", "PRACTICE", status, 150⟩] (List.nodup_singleton 2)

private theorem addsPractice_practiced (status : String) : AddsPractice contestOver (practiced status) where
  contests := rfl
  problems := rfl
  contestResults := rfl
  kept := List.nil_sublist _
  added := by
    intro sub member _
    obtain rfl := List.mem_singleton.mp member
    rfl

/-- A judged practice submission does not keep the sweep from freezing. -/
theorem judged_practice_unseen :
    SameBoard (checkForFinishedContests (fun _ => none) 200000 ⟨Redis.empty, contestOver⟩)
      (checkForFinishedContests (fun _ => none) 200000 ⟨Redis.empty, practiced "AC"⟩) := by
  refine ((practice_leaves_contest_iff (addsPractice_practiced "AC") Redis.empty 200000).mpr ?_).2.2.2 _
  rintro c _ ⟨sub, member, _, _, waiting⟩
  obtain rfl := List.mem_singleton.mp member
  exact absurd waiting (by decide)

/-- A practice submission in 'QUEUE' makes the sweep skip the finished contest. -/
theorem waiting_practice_postpones_freeze :
    AddsPractice contestOver (practiced "QUEUE") ∧
      ¬ SameBoard (checkForFinishedContests (fun _ => none) 200000 ⟨Redis.empty, contestOver⟩)
        (checkForFinishedContests (fun _ => none) 200000 ⟨Redis.empty, practiced "QUEUE"⟩) := by
  refine ⟨addsPractice_practiced "QUEUE", fun same => ?_⟩
  have frozen : (checkForFinishedContests (fun _ => none) 200000 ⟨Redis.empty, contestOver⟩).database.contests =
      [⟨"7", 0, 100, true⟩] := by decide +kernel
  have skipped : (checkForFinishedContests (fun _ => none) 200000
      ⟨Redis.empty, practiced "QUEUE"⟩).database.contests = [⟨"7", 0, 100, false⟩] := by decide +kernel
  rw [SameBoard, frozen, skipped] at same
  exact absurd same.2.1 (by decide)

end JudgeSelf.LeaderboardService
