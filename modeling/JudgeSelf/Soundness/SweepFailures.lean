import JudgeSelf.Soundness.FreezeAtomicity
import JudgeSelf.Soundness.PracticeTraffic

/-! # A sweep in which something throws

The loop of a sweep has no handler of its own: the contests behind the first one on which the query
for pending submissions or the freeze throws wait for the next sweep, which starts in the same order.
-/

namespace JudgeSelf.LeaderboardService

/-- The statement comes up in the freeze of the contest. An insert does if there is a standing for it. -/
def FreezeQuery.Reached (query : FreezeQuery) (db : Database) (contestId : String) : Prop :=
  ∀ i, query = .insertResult i → i < (freezeStandings contestId (db.ratedSubmissions contestId)).length

/-- `hasPendingSubmissions` or `executeContestHardFreeze` throws on the contest. -/
def ThrowsOn (fault : Option SweepFault) (db : Database) (contestId : String) : Prop :=
  match fault with
  | none => False
  | some .pendingQuery => True
  | some .connect => ¬ Waits db contestId
  | some (.freeze query) => ¬ Waits db contestId ∧ query.Reached db contestId

/-- Every contest of the list that does not wait and on which nothing throws is frozen by the sweep. -/
def FreezesOthers (fault : String → Option SweepFault) (contests : List String) (stores : Stores) : Prop :=
  ∀ c ∈ contests, ¬ ThrowsOn (fault c) stores.database c → ¬ Waits stores.database c →
    Frozen (sweepRounds fault contests stores).2.database c

variable {c c' : String} {stores final : Stores} {db : Database}

private theorem startTime_setLeaderboardFrozen (db : Database) (c c' : String) :
    ((db.setLeaderboardFrozen c').contest? c).map Contest.startTime = (db.contest? c).map Contest.startTime := by
  have ids : (fun contest : Contest => decide (contest.id = c)) ∘ (fun contest : Contest =>
      if contest.id = c' then { contest with leaderboardFrozen := true } else contest) =
        fun contest => decide (contest.id = c) := by
    funext contest
    rw [Function.comp_apply]
    split <;> rfl
  have starts : Contest.startTime ∘ (fun contest : Contest =>
      if contest.id = c' then { contest with leaderboardFrozen := true } else contest) = Contest.startTime := by
    funext contest
    rw [Function.comp_apply]
    split <;> rfl
  rw [Database.contest?, Database.setLeaderboardFrozen, List.find?_map, Option.map_map, ids, starts, Database.contest?]

private theorem ratedSubmissions_frozenDatabase (db : Database) (c c' : String) :
    (frozenDatabase c' db).ratedSubmissions c = db.ratedSubmissions c := by
  have rows : (frozenDatabase c' db).submissionRow c = db.submissionRow c := by
    funext sub
    have start := startTime_setLeaderboardFrozen db c c'
    rw [Database.submissionRow, Database.submissionRow, ← start]
    rfl
  rw [Database.ratedSubmissions, rows]
  rfl

private theorem exists_freezeTransaction_eq_ok_iff {query : FreezeQuery} :
    (∃ final, freezeTransaction (some query) c db = .ok final) ↔ query.AfterCommit ∨ ¬ query.Reached db c := by
  have inserts (standings : List StandingEntry) (start : Database) :
      (∃ t, standings.zipIdx.foldlM (fun (db : Database) (entry : StandingEntry × ℕ) =>
        runQuery (some query) (.insertResult entry.2) (db.insertContestResult (entry.1.result c entry.2))) start =
          .ok t) ↔ ∀ i < standings.length, query ≠ .insertResult i := by
    rw [Except.exists_foldlM_eq_ok_iff (p := fun entry => query ≠ .insertResult entry.2)]
    · constructor
      · intro clear i bound
        exact clear (standings[i], i) (List.mem_zipIdx_iff_getElem?.mpr (List.getElem?_eq_getElem bound))
      · intro clear entry member
        exact clear _ (List.snd_lt_of_mem_zipIdx member)
    · intro db entry
      simp [runQuery_eq_ok_iff]
  constructor
  · rintro ⟨final, ran⟩
    simp only [freezeTransaction, bind, Except.bind_eq_ok_iff, runQuery_eq_ok_iff] at ran
    obtain ⟨_, ⟨begin, _⟩, rows, ⟨select, rfl⟩, cleared, ⟨delete, rfl⟩, inserted, folded, updated, ⟨update, _⟩,
      commit, _⟩ := ran
    have clear := (inserts _ _).mp ⟨inserted, folded⟩
    cases query with
    | insertResult i =>
      refine .inr fun reached => ?_
      exact clear i (reached i rfl) rfl
    | commitReply | unlink | unlinkReply => exact .inl (by decide)
    | begin => exact absurd rfl begin
    | selectSubmissions => exact absurd rfl select
    | deleteResults => exact absurd rfl delete
    | updateContest => exact absurd rfl update
    | commit => exact absurd rfl commit
  · rintro (behind | beyond)
    · exact ⟨_, freezeTransaction_of_clear (by simpa using behind) c db⟩
    · rw [FreezeQuery.Reached, not_forall] at beyond
      obtain ⟨i, beyond⟩ := beyond
      obtain ⟨rfl, bound⟩ := Classical.not_imp.mp beyond
      obtain ⟨inserted, folded⟩ := (inserts (freezeStandings c (db.ratedSubmissions c))
        (db.deleteContestResults c)).mpr fun k below same => bound (by cases same; exact below)
      refine ⟨inserted.setLeaderboardFrozen c, ?_⟩
      simp only [freezeTransaction, bind, Except.bind_eq_ok_iff, runQuery_eq_ok_iff]
      exact ⟨(), by simp, _, ⟨by simp, rfl⟩, _, ⟨by simp, rfl⟩, inserted, folded, _, ⟨by simp, rfl⟩, by simp⟩

/-- The freeze throws exactly at a statement that comes up. -/
theorem executeContestHardFreeze_throws {query : FreezeQuery} (reached : query.Reached stores.database c) :
    ∃ thrown final, executeContestHardFreeze (some query) c stores = (.error thrown, final) := by
  rcases ran : executeContestHardFreeze (some query) c stores with ⟨reply, final⟩
  cases reply with
  | error thrown => exact ⟨thrown, final, rfl⟩
  | ok =>
    rw [executeContestHardFreeze] at ran
    split at ran
    · cases (Prod.mk.inj ran).1
    · next database committed =>
      rcases exists_freezeTransaction_eq_ok_iff.mp ⟨database, committed⟩ with behind | beyond
      · rcases behind with rfl | rfl | rfl <;> cases (Prod.mk.inj ran).1
      · exact absurd reached beyond

private theorem executeContestHardFreeze_returns {query : FreezeQuery} (beyond : ¬ query.Reached stores.database c) :
    ∃ final, executeContestHardFreeze (some query) c stores = (.ok (), final) := by
  obtain ⟨database, committed⟩ := exists_freezeTransaction_eq_ok_iff.mpr (.inr beyond)
  have insert : ∃ i, query = .insertResult i := by
    by_contra! other
    exact beyond fun i same => absurd same (other i)
  obtain ⟨i, rfl⟩ := insert
  refine ⟨⟨stores.redis.unlink [getContestMetadataKey c, getContestLeaderboardKey c], database⟩, ?_⟩
  rw [executeContestHardFreeze, committed]
  rfl

/-- A round on which nothing throws freezes the contest unless it waits. -/
theorem sweepRound_of_quiet {fault : Option SweepFault} (quiet : ¬ ThrowsOn fault stores.database c) :
    ∃ final, sweepRound fault c stores = (.ok (), final) ∧
      (Waits stores.database c ∧ final.database = stores.database ∨
        ¬ Waits stores.database c ∧ final.database = frozenDatabase c stores.database) := by
  have counted : fault ≠ some .pendingQuery := by
    rintro rfl
    exact quiet trivial
  rw [sweepRound, if_neg counted]
  by_cases waits : Waits stores.database c
  · rw [if_pos (hasPendingSubmissions_iff.mpr waits)]
    exact ⟨stores, rfl, .inl ⟨waits, rfl⟩⟩
  · have connected : fault ≠ some .connect := by
      rintro rfl
      exact quiet waits
    rw [if_neg (hasPendingSubmissions_iff.not.mpr waits), if_neg connected]
    have returns :
        ∃ final, executeContestHardFreeze (fault.bind SweepFault.freezeQuery) c stores = (.ok (), final) := by
      cases fault with
      | none => exact ⟨_, executeContestHardFreeze_none c stores⟩
      | some fault =>
        cases fault with
        | pendingQuery => exact absurd rfl counted
        | connect => exact absurd rfl connected
        | freeze query => exact executeContestHardFreeze_returns fun reached => quiet ⟨waits, reached⟩
    obtain ⟨final, ran⟩ := returns
    refine ⟨final, by rw [ran], .inr ⟨waits, ?_⟩⟩
    rw [executeContestHardFreeze_eq_ok ran]

/-- A round on which something throws ends the loop, and freezes no other contest. -/
theorem sweepRound_of_throws {fault : Option SweepFault} (throws : ThrowsOn fault stores.database c) :
    ∃ thrown final, sweepRound fault c stores = (.error thrown, final) ∧
      (final.database = stores.database ∨ final.database = frozenDatabase c stores.database) := by
  cases fault with
  | none => exact throws.elim
  | some fault =>
    cases fault with
    | pendingQuery => exact ⟨.pendingQuery, stores, rfl, .inl rfl⟩
    | connect =>
      refine ⟨.connect, stores, ?_, .inl rfl⟩
      rw [sweepRound, if_neg (by simp), if_neg (hasPendingSubmissions_iff.not.mpr throws), if_pos rfl]
    | freeze query =>
      obtain ⟨waits, reached⟩ := throws
      obtain ⟨thrown, final, ran⟩ := executeContestHardFreeze_throws reached
      refine ⟨.freeze thrown, final, ?_, ?_⟩
      · rw [sweepRound, if_neg (by simp), if_neg (hasPendingSubmissions_iff.not.mpr waits), if_neg (by simp),
          Option.bind_some, SweepFault.freezeQuery, ran]
      · exact (executeContestHardFreeze_eq_error ran).imp (congrArg Stores.database) And.right

private theorem throwsOn_frozenDatabase {fault : Option SweepFault} :
    ThrowsOn fault (frozenDatabase c' db) c ↔ ThrowsOn fault db c := by
  have waits : Waits (frozenDatabase c' db) c ↔ Waits db c := waits_congr rfl rfl c
  cases fault with
  | none => rfl
  | some fault =>
    cases fault with
    | pendingQuery => rfl
    | connect => exact not_congr waits
    | freeze query =>
      simp only [ThrowsOn, FreezeQuery.Reached, ratedSubmissions_frozenDatabase, waits]

variable {fault : String → Option SweepFault} {contests : List String}

/-- The loop comes to the contest: nothing throws on those in front of it. -/
def Reaches (fault : String → Option SweepFault) (db : Database) (contests : List String) (c : String) : Prop :=
  ∃ front back, contests = front ++ c :: back ∧ ∀ other ∈ front, ¬ ThrowsOn (fault other) db other

private theorem reaches_cons {rest : List String} (apart : c ≠ c') : Reaches fault db (c' :: rest) c ↔
    ¬ ThrowsOn (fault c') db c' ∧ Reaches fault db rest c := by
  constructor
  · rintro ⟨front, back, split, quiet⟩
    cases front with
    | nil => exact absurd (List.cons.inj split).1.symm apart
    | cons first front =>
      obtain ⟨rfl, rfl⟩ := List.cons.inj split
      obtain ⟨here, later⟩ := List.forall_mem_cons.mp quiet
      exact ⟨here, front, back, rfl, later⟩
  · rintro ⟨here, front, back, rfl, later⟩
    exact ⟨c' :: front, back, rfl, List.forall_mem_cons.mpr ⟨here, later⟩⟩

/-- What one sweep freezes of the contests on which nothing throws. -/
theorem frozen_sweepRounds (quiet : ¬ ThrowsOn (fault c) stores.database c) :
    Frozen (sweepRounds fault contests stores).2.database c ↔
      Frozen stores.database c ∨ ¬ Waits stores.database c ∧ Reaches fault stores.database contests c := by
  induction contests generalizing stores with
  | nil =>
    have never : ¬ Reaches fault stores.database [] c := by
      rintro ⟨front, back, split, _⟩
      exact absurd split.symm (by simp)
    simp [sweepRounds, never]
  | cons c' rest ih =>
    rw [sweepRounds]
    by_cases throws : ThrowsOn (fault c') stores.database c'
    · obtain ⟨thrown, final, ran, kept⟩ := sweepRound_of_throws throws
      have apart : c ≠ c' := by
        rintro rfl
        exact quiet throws
      rw [ran, reaches_cons apart]
      dsimp only
      rcases kept with same | frozen
      · rw [same]
        simp [throws]
      · rw [frozen, frozen_frozenDatabase]
        simp [throws, apart]
    · obtain ⟨final, ran, kept⟩ := sweepRound_of_quiet throws
      rw [ran]
      dsimp only
      rcases kept with ⟨waits, same⟩ | ⟨free, frozen⟩
      · rw [ih (same ▸ quiet), same]
        refine or_congr_right (and_congr_right fun free => ?_)
        have apart : c ≠ c' := by
          rintro rfl
          exact free waits
        rw [reaches_cons apart, and_iff_right throws]
      · have waits : Waits (frozenDatabase c' stores.database) c ↔ Waits stores.database c := waits_congr rfl rfl c
        have reach : Reaches fault (frozenDatabase c' stores.database) rest c ↔
            Reaches fault stores.database rest c := by
          simp only [Reaches, throwsOn_frozenDatabase]
        rw [ih (frozen ▸ throwsOn_frozenDatabase.not.mpr quiet), frozen, frozen_frozenDatabase, waits, reach]
        by_cases same : c = c'
        · subst same
          have here : Reaches fault stores.database (c :: rest) c := ⟨[], rest, rfl, by simp⟩
          simp [free, here]
        · simp [same, reaches_cons same, throws]

private theorem mem_front_of_sublist {front back : List String} (distinct : (front ++ c' :: back).Nodup)
    (behind : [c, c'].Sublist (front ++ c' :: back)) : c ∈ front := by
  obtain ⟨first, second, split, inFront, inBack⟩ := List.sublist_append_iff.mp behind
  cases first with
  | nil =>
    obtain rfl : [c, c'] = second := split
    have twice : c' ∈ back := List.singleton_sublist.mp (inBack.tail)
    exact absurd twice (List.nodup_cons.mp distinct.of_append_right).1
  | cons head first =>
    obtain rfl : c = head := (List.cons.inj split).1
    exact inFront.subset List.mem_cons_self

/-- A sweep freezes every contest of its list that does not wait and on which nothing throws, exactly if
the contests behind one on which something throws all wait or have something throwing on them as well. -/
theorem sweep_freezes_others_iff (fault : String → Option SweepFault) (now : ℤ) (stores : Stores)
    (keys : (stores.database.contests.map Contest.id).Nodup) {contests : List String}
    (returned : contests.Perm (stores.database.finishedContests now)) :
    FreezesOthers fault contests stores ↔
      ∀ c c', [c, c'].Sublist contests → ThrowsOn (fault c) stores.database c →
        Waits stores.database c' ∨ ThrowsOn (fault c') stores.database c' := by
  have distinct : contests.Nodup := returned.nodup_iff.mpr (keys.sublist (List.filter_sublist.map _))
  constructor
  · intro freezes c c' behind throws
    by_contra! neither
    obtain ⟨free, quiet⟩ := neither
    have member : c' ∈ contests := behind.subset (by simp)
    have frozen := (frozen_sweepRounds quiet).mp (freezes c' member quiet free)
    rcases frozen with before | ⟨_, front, back, rfl, clear⟩
    · exact not_frozen_of_finished (returned.subset member) before
    · exact clear c (mem_front_of_sublist distinct behind) throws
  · intro condition c member quiet free
    refine (frozen_sweepRounds quiet).mpr (.inr ⟨free, ?_⟩)
    obtain ⟨front, back, rfl⟩ := List.append_of_mem member
    refine ⟨front, back, rfl, fun other before throws => ?_⟩
    have behind : [other, c].Sublist (front ++ c :: back) :=
      (List.singleton_sublist.mpr before).append (List.cons_sublist_cons.mpr (List.nil_sublist back))
    rcases condition other c behind throws with waits | loud
    · exact free waits
    · exact quiet loud

/-- Two contests that ended at the same time, without submissions. -/
def twoFinished : Database where
  contests := [⟨"7", 0, 100, false⟩, ⟨"8", 0, 100, false⟩]
  problems := []
  submissions := []
  contestResults := []
  problemIds := List.nodup_nil
  submissionIds := List.nodup_nil

/-- The query for the pending submissions of contest 7 throws. -/
def seventhFails (contestId : String) : Option SweepFault := if contestId = "7" then some .pendingQuery else none

/-- With the failing contest at the end of the list, the other one is frozen. -/
theorem last_fault_harmless : FreezesOthers seventhFails ["8", "7"] ⟨Redis.empty, twoFinished⟩ := by
  refine (sweep_freezes_others_iff seventhFails 200000 ⟨Redis.empty, twoFinished⟩ (by decide)
    (by decide +kernel)).mpr fun c c' behind throws => ?_
  have first : c = "7" := by
    by_contra other
    rw [seventhFails, if_neg other] at throws
    exact throws
  have pair : ∀ pair ∈ ["8", "7"].sublists, pair ≠ ["7", "8"] ∧ pair ≠ ["7", "7"] := by decide
  have member : c' ∈ ["8", "7"] := behind.subset (by simp)
  obtain ⟨swapped, twice⟩ := pair _ (List.mem_sublists.mpr behind)
  subst first
  simp only [List.mem_cons, List.not_mem_nil, or_false] at member
  rcases member with rfl | rfl
  · exact absurd rfl swapped
  · exact absurd rfl twice

/-- With the failing contest in front, the other one is not frozen, though nothing throws on it and it
has no submissions at all. -/
theorem fault_blocks_contest :
    twoFinished.finishedContests 200000 = ["7", "8"] ∧ ¬ ThrowsOn (seventhFails "8") twoFinished "8" ∧
      (sweepRounds seventhFails ["7", "8"] ⟨Redis.empty, twoFinished⟩).2.database.contests =
        [⟨"7", 0, 100, false⟩, ⟨"8", 0, 100, false⟩] ∧
      ¬ FreezesOthers seventhFails ["7", "8"] ⟨Redis.empty, twoFinished⟩ := by
  have unfrozen : (sweepRounds seventhFails ["7", "8"] ⟨Redis.empty, twoFinished⟩).2.database.contests =
      [⟨"7", 0, 100, false⟩, ⟨"8", 0, 100, false⟩] := by decide +kernel
  refine ⟨by decide +kernel, id, unfrozen, fun freezes => ?_⟩
  have free : ¬ Waits twoFinished "8" := hasPendingSubmissions_iff.not.mp (by decide +kernel)
  have frozen := freezes "8" (by simp) id free
  rw [Frozen, unfrozen] at frozen
  exact absurd (frozen ⟨"8", 0, 100, false⟩ (by simp) rfl) (by decide)

end JudgeSelf.LeaderboardService
