import JudgeSelf.Model.Leaderboard.Board
import JudgeSelf.Model.Leaderboard.Recorded

/-! # Recalculations that fail

Model of `recalculateLiveUserScore` with a statement that throws. A command on Redis that throws may
have been executed, if only its reply was lost. Nothing catches the error, and nothing puts back the
entry that the first command deletes.
-/

namespace JudgeSelf.LeaderboardService

/-- The statements of a recalculation; those of a row have its index. -/
inductive RecalculationQuery
  | hDel
  | selectSubmissions
  | eval (i : ℕ)
  | zAdd (i : ℕ)
deriving DecidableEq, Repr

/-- The statement that throws; `executed` when it has taken effect by then. -/
structure RecalculationFault where
  query : RecalculationQuery
  executed : Bool
deriving DecidableEq, Repr

/-- Changes of Redis that may throw on the way. -/
abbrev RedisM := ExceptT RecalculationQuery (StateM Redis)

/-- A statement with its reply and its effect. -/
def runCommand {α : Type} (fault : Option RecalculationFault) (query : RecalculationQuery)
    (command : Redis → α × Redis) : RedisM α := do
  let (reply, redis) := command (← get)
  if fault = some ⟨query, false⟩ then throw query
  set redis
  if fault = some ⟨query, true⟩ then throw query
  return reply

/-- One round of the loop, for the row of an index. -/
def replayRow (fault : Option RecalculationFault) (contestId userId : String) (i : ℕ) (sub : SubmissionRow) :
    RedisM Unit := do
  let metadata ← runCommand fault (.eval i) fun redis => evalVerdict redis (sub.verdict contestId userId)
  runCommand fault (.zAdd i) fun redis => ((), addScore redis contestId userId metadata)

def replayRows (fault : Option RecalculationFault) (contestId userId : String) (submissions : List SubmissionRow) :
    RedisM Unit :=
  forM submissions.zipIdx fun (sub, i) => replayRow fault contestId userId i sub

def tryRecalculateLiveUserScore (fault : Option RecalculationFault) (database : Database) (contestId userId : String) :
    RedisM Unit := do
  runCommand fault .hDel fun redis => ((), redis.hDel (getContestMetadataKey contestId) userId)
  let submissions ← runCommand fault .selectSubmissions fun redis =>
    (database.ratedSubmissionsOf contestId userId, redis)
  replayRows fault contestId userId submissions

/-- The statement belongs to the row of an index. -/
def RecalculationFault.At (fault : RecalculationFault) (i : ℕ) : Prop :=
  fault.query = .eval i ∨ fault.query = .zAdd i

/-- A recalculation with so many rows comes to the statement that throws. -/
def RecalculationFault.Reached (fault : RecalculationFault) (rows : ℕ) : Prop := ∀ i, fault.At i → i < rows

/-- The number of rows that are recorded when the statement throws. -/
def RecalculationFault.rows (fault : RecalculationFault) : ℕ :=
  match fault.query with
  | .hDel | .selectSubmissions => 0
  | .eval i => if fault.executed then i + 1 else i
  | .zAdd i => i + 1

/-- The ids of the submissions that the entry of a user holds. -/
def Redis.recorded (redis : Redis) (contestId userId : String) : List String :=
  ((redis.metadata contestId userId).getD .initial).processedSubmissions

theorem RecalculationFault.At.eq {f : RecalculationFault} {i j : ℕ} (at_ : f.At i) (also : f.At j) : i = j := by
  rcases at_ with at_ | at_ <;> rcases also with also | also <;> cases at_.symm.trans also <;> rfl

theorem RecalculationFault.At.rows {f : RecalculationFault} {i : ℕ} (at_ : f.At i) :
    f.rows = i ∨ f.rows = i + 1 := by
  obtain ⟨query, executed⟩ := f
  rcases at_ with rfl | rfl
  · cases executed
    · exact .inl rfl
    · exact .inr rfl
  · exact .inr rfl

section Recorded

variable {redis : Redis} {c u id : String}

private theorem mem_recorded_evalVerdict {verdict : QueueMessage} : id ∈ (evalVerdict redis verdict).2.recorded c u ↔
    id ∈ redis.recorded c u ∨ verdict.Concerns c u ∧ id = verdict.submissionId := by
  rw [Redis.recorded, metadata_evalVerdict]
  by_cases here : verdict.Concerns c u
  · rw [if_pos here, Option.getD_some, UserContestMetadata.mem_processedSubmissions_absorb, and_iff_right here]
    rfl
  · rw [if_neg here]
    simp only [here, false_and, or_false]
    rfl

private theorem recorded_addScore (c' u' : String) (metadata : UserContestMetadata) :
    (addScore redis c' u' metadata).recorded c u = redis.recorded c u := rfl

private theorem recorded_hDel (redis : Redis) (c u : String) :
    (redis.hDel (getContestMetadataKey c) u).recorded c u = [] := by
  rw [Redis.recorded, metadata_hDel, if_pos ⟨rfl, rfl⟩]
  rfl

/-- Handling a verdict records its id with its user. -/
theorem mem_recorded_processLiveVerdict {verdict : QueueMessage} :
    id ∈ (processLiveVerdict redis verdict).recorded c u ↔
      id ∈ redis.recorded c u ∨ verdict.Concerns c u ∧ id = verdict.submissionId :=
  mem_recorded_evalVerdict

theorem mem_recorded_foldl {verdicts : List QueueMessage} :
    id ∈ (verdicts.foldl processLiveVerdict redis).recorded c u ↔
      id ∈ redis.recorded c u ∨ ∃ verdict ∈ verdicts, verdict.Concerns c u ∧ id = verdict.submissionId := by
  induction verdicts generalizing redis with
  | nil => simp
  | cons verdict rest ih =>
    rw [List.foldl_cons, ih, mem_recorded_processLiveVerdict, List.exists_mem_cons_iff, or_assoc]

/-- Rows of the user are recorded by their ids. -/
theorem mem_recorded_replay {rows : List SubmissionRow} :
    id ∈ (rows.foldl (fun redis sub => processLiveVerdict redis (sub.verdict c u)) redis).recorded c u ↔
      id ∈ redis.recorded c u ∨ ∃ row ∈ rows, id = toString row.id := by
  have run := @mem_recorded_foldl redis c u id (rows.map fun sub => sub.verdict c u)
  rw [List.foldl_map] at run
  simp only [run, List.mem_map, exists_exists_and_eq_and]
  exact or_congr_right (exists_congr fun row => and_congr_right fun _ => and_iff_right ⟨rfl, rfl⟩)

end Recorded

variable {fault : Option RecalculationFault} {redis : Redis} {c u : String}

private theorem runCommand_of_ne {α : Type} {query : RecalculationQuery} {command : Redis → α × Redis}
    (other : ∀ executed, fault ≠ some ⟨query, executed⟩) :
    runCommand fault query command redis = (.ok (command redis).1, (command redis).2) := by
  rw [runCommand]
  simp only [other, ↓reduceIte]
  rfl

private theorem runCommand_of_eq {α : Type} {query : RecalculationQuery} {executed : Bool} {command : Redis → α × Redis}
    (same : fault = some ⟨query, executed⟩) : runCommand fault query command redis =
      (.error query, if executed then (command redis).2 else redis) := by
  subst same
  cases executed
  · simp only [runCommand, ↓reduceIte]
    rfl
  · simp only [runCommand, Option.some.injEq, RecalculationFault.mk.injEq, reduceCtorEq, and_false, ↓reduceIte]
    rfl

private theorem replayRow_of_not_at {i : ℕ} (sub : SubmissionRow) (clear : ∀ f, fault = some f → ¬ f.At i) :
    replayRow fault c u i sub redis = (.ok (), processLiveVerdict redis (sub.verdict c u)) := by
  have evaluated := @runCommand_of_ne fault redis _ (.eval i) (fun redis => evalVerdict redis (sub.verdict c u))
    fun _ same => clear _ same (.inl rfl)
  rw [replayRow, ExceptT.bind_of_ok evaluated, runCommand_of_ne fun _ same => clear _ same (.inr rfl)]
  rfl

/-- A row whose statement throws is recorded if the script was executed. -/
theorem replayRow_of_at {f : RecalculationFault} {i : ℕ} (sub : SubmissionRow) (faulty : fault = some f)
    (at_ : f.At i) : ∃ final, replayRow fault c u i sub redis = (.error f.query, final) ∧
      ∀ id, id ∈ final.recorded c u ↔ id ∈ redis.recorded c u ∨ f.rows = i + 1 ∧ id = toString sub.id := by
  obtain ⟨query, executed⟩ := f
  rcases at_ with rfl | rfl
  · have ran : replayRow fault c u i sub redis =
        (.error (.eval i), if executed then (evalVerdict redis (sub.verdict c u)).2 else redis) := by
      rw [replayRow]
      exact ExceptT.bind_of_error (runCommand_of_eq faulty)
    refine ⟨_, ran, fun id => ?_⟩
    cases executed with
    | false => simp [RecalculationFault.rows]
    | true =>
      rw [if_pos rfl, mem_recorded_evalVerdict, RecalculationFault.rows]
      exact or_congr_right (and_congr_left fun _ => iff_of_true ⟨rfl, rfl⟩ (if_pos rfl))
  · have evaluated := @runCommand_of_ne fault redis _ (.eval i) (fun redis => evalVerdict redis (sub.verdict c u))
      (by rw [faulty]; simp)
    have ran : replayRow fault c u i sub redis = (.error (.zAdd i),
        if executed then addScore (evalVerdict redis (sub.verdict c u)).2 c u (evalVerdict redis (sub.verdict c u)).1
        else (evalVerdict redis (sub.verdict c u)).2) := by
      rw [replayRow, ExceptT.bind_of_ok evaluated, runCommand_of_eq faulty]
    refine ⟨_, ran, fun id => ?_⟩
    rw [apply_ite (Redis.recorded · c u), recorded_addScore, ite_self, mem_recorded_evalVerdict]
    exact or_congr_right (and_congr_left fun _ => iff_of_true ⟨rfl, rfl⟩ rfl)

private theorem replayRows_concat (rows : List SubmissionRow) (row : SubmissionRow) :
    replayRows fault c u (rows ++ [row]) =
      (do replayRows fault c u rows; replayRow fault c u rows.length row) := by
  rw [replayRows, List.zipIdx_append, List.forM_append]
  simp [replayRows]

/-- The loop returns if no statement of its rows throws. -/
theorem replayRows_of_not_at {rows : List SubmissionRow}
    (clear : ∀ f, fault = some f → ∀ i < rows.length, ¬ f.At i) : replayRows fault c u rows redis =
      (.ok (), rows.foldl (fun redis sub => processLiveVerdict redis (sub.verdict c u)) redis) := by
  induction rows using List.reverseRecOn with
  | nil => rfl
  | append_singleton rows row ih =>
    rw [List.length_append, List.length_singleton] at clear
    have before := ih fun f same i bound => clear f same i (Nat.lt_succ_of_lt bound)
    rw [replayRows_concat, ExceptT.bind_of_ok before, List.foldl_concat]
    exact replayRow_of_not_at row fun f same => clear f same _ (Nat.lt_succ_self _)

/-- The loop ends at the statement that throws, with the rows before it recorded. -/
theorem replayRows_of_at {rows : List SubmissionRow} {f : RecalculationFault} {i : ℕ} (faulty : fault = some f)
    (at_ : f.At i) (bound : i < rows.length) :
    ∃ final, replayRows fault c u rows redis = (.error f.query, final) ∧
      ∀ id, id ∈ final.recorded c u ↔
        id ∈ redis.recorded c u ∨ ∃ row ∈ rows.take f.rows, id = toString row.id := by
  induction rows using List.reverseRecOn with
  | nil => exact absurd bound (Nat.not_lt_zero i)
  | append_singleton rows row ih =>
    rw [replayRows_concat]
    rw [List.length_append, List.length_singleton] at bound
    rcases Nat.lt_succ_iff_lt_or_eq.mp bound with earlier | rfl
    · obtain ⟨final, ran, recorded⟩ := ih earlier
      have within : f.rows ≤ rows.length := by
        rcases at_.rows with count | count <;> omega
      refine ⟨final, ExceptT.bind_of_error ran, ?_⟩
      rw [List.take_append_of_le_length within]
      exact recorded
    · have before := @replayRows_of_not_at fault redis c u rows fun g same j inside here => by
        obtain rfl := Option.some_inj.mp (faulty.symm.trans same)
        exact inside.ne (here.eq at_)
      obtain ⟨final, ran, recorded⟩ := @replayRow_of_at fault
        (rows.foldl (fun redis sub => processLiveVerdict redis (sub.verdict c u)) redis) c u f _ row faulty at_
      refine ⟨final, (ExceptT.bind_of_ok before).trans ran, fun id => ?_⟩
      rw [recorded, mem_recorded_replay, or_assoc]
      refine or_congr_right ?_
      rcases at_.rows with count | count
      · rw [count, List.take_append_of_le_length le_rfl, List.take_length]
        simp
      · rw [count, List.take_of_length_le (by simp)]
        simp [or_and_right, exists_or]

/-- After `hDel` and the query come the rows. -/
private theorem tryRecalculate_of_rows (database : Database)
    (clear : ∀ f, fault = some f → ∃ i, f.At i) : tryRecalculateLiveUserScore fault database c u redis =
      replayRows fault c u (database.ratedSubmissionsOf c u) (redis.hDel (getContestMetadataKey c) u) := by
  have other (query : RecalculationQuery) (early : ∀ i, query ≠ .eval i ∧ query ≠ .zAdd i) (executed : Bool) :
      fault ≠ some ⟨query, executed⟩ := by
    intro same
    obtain ⟨i, at_⟩ := clear _ same
    rcases at_ with at_ | at_
    · exact (early i).1 at_
    · exact (early i).2 at_
  have deleted := @runCommand_of_ne fault redis _ .hDel
    (fun redis => ((), redis.hDel (getContestMetadataKey c) u)) (other _ (by simp))
  have selected := @runCommand_of_ne fault (redis.hDel (getContestMetadataKey c) u) _ .selectSubmissions
    (fun redis => (database.ratedSubmissionsOf c u, redis)) (other _ (by simp))
  rw [tryRecalculateLiveUserScore, ExceptT.bind_of_ok deleted, ExceptT.bind_of_ok selected]

/-- A recalculation none of whose statements throws is the whole recalculation. -/
theorem tryRecalculateLiveUserScore_of_not_reached (stores : Stores)
    (clear : ∀ f, fault = some f → ¬ f.Reached (stores.database.ratedSubmissionsOf c u).length) :
    tryRecalculateLiveUserScore fault stores.database c u stores.redis =
      (.ok (), (recalculateLiveUserScore stores c u).redis) := by
  have later (f : RecalculationFault) (same : fault = some f) :
      ∃ i, f.At i ∧ (stores.database.ratedSubmissionsOf c u).length ≤ i := by
    have beyond := clear f same
    simp only [RecalculationFault.Reached, not_forall, not_lt] at beyond
    obtain ⟨i, at_, bound⟩ := beyond
    exact ⟨i, at_, bound⟩
  rw [tryRecalculate_of_rows _ fun f same => (later f same).imp fun _ => And.left]
  refine replayRows_of_not_at fun f same i inside at_ => ?_
  obtain ⟨j, also, bound⟩ := later f same
  obtain rfl := at_.eq also
  omega

/-- A recalculation that throws has recorded the rows before the statement, unless its `hDel` has
thrown without effect. -/
theorem tryRecalculateLiveUserScore_of_reached {f : RecalculationFault} (faulty : fault = some f)
    {database : Database} (reached : f.Reached (database.ratedSubmissionsOf c u).length) :
    ∃ final, tryRecalculateLiveUserScore fault database c u redis = (.error f.query, final) ∧
      (f = ⟨.hDel, false⟩ ∧ final = redis ∨ f ≠ ⟨.hDel, false⟩ ∧ ∀ id, id ∈ final.recorded c u ↔
        ∃ row ∈ (database.ratedSubmissionsOf c u).take f.rows, id = toString row.id) := by
  obtain ⟨query, executed⟩ := f
  have inRows (i : ℕ) (at_ : RecalculationFault.At ⟨query, executed⟩ i) :
      ∃ final, tryRecalculateLiveUserScore fault database c u redis = (.error query, final) ∧
        ∀ id, id ∈ final.recorded c u ↔ ∃ row ∈ (database.ratedSubmissionsOf c u).take
          (RecalculationFault.rows ⟨query, executed⟩), id = toString row.id := by
    rw [tryRecalculate_of_rows _ fun g same => ⟨i, Option.some_inj.mp (faulty.symm.trans same) ▸ at_⟩]
    obtain ⟨final, ran, recorded⟩ := @replayRows_of_at fault (redis.hDel (getContestMetadataKey c) u) c u _ _ i
      faulty at_ (reached i at_)
    refine ⟨final, ran, fun id => ?_⟩
    rw [recorded, recorded_hDel]
    simp
  cases query with
  | hDel =>
    have ran : tryRecalculateLiveUserScore fault database c u redis =
        (.error .hDel, if executed then redis.hDel (getContestMetadataKey c) u else redis) := by
      rw [tryRecalculateLiveUserScore]
      exact ExceptT.bind_of_error (runCommand_of_eq faulty)
    refine ⟨_, ran, ?_⟩
    cases executed with
    | false => exact .inl ⟨rfl, rfl⟩
    | true => exact .inr ⟨by simp, fun id => by simp [recorded_hDel, RecalculationFault.rows]⟩
  | selectSubmissions =>
    have deleted := @runCommand_of_ne fault redis _ .hDel
      (fun redis => ((), redis.hDel (getContestMetadataKey c) u)) (by rw [faulty]; simp)
    have ran : tryRecalculateLiveUserScore fault database c u redis =
        (.error .selectSubmissions, redis.hDel (getContestMetadataKey c) u) := by
      rw [tryRecalculateLiveUserScore, ExceptT.bind_of_ok deleted]
      exact ExceptT.bind_of_error ((runCommand_of_eq faulty).trans (by rw [ite_self]))
    exact ⟨_, ran, .inr ⟨by simp, fun id => by simp [recorded_hDel, RecalculationFault.rows]⟩⟩
  | eval i =>
    obtain ⟨final, ran, recorded⟩ := inRows i (.inl rfl)
    exact ⟨final, ran, .inr ⟨by simp, recorded⟩⟩
  | zAdd i =>
    obtain ⟨final, ran, recorded⟩ := inRows i (.inr rfl)
    exact ⟨final, ran, .inr ⟨by simp, recorded⟩⟩

end JudgeSelf.LeaderboardService
