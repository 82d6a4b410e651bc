import JudgeSelf.Soundness.FreezeResults

/-! # A freeze that fails

The queries of a freeze are one transaction, and the handler of every failure rolls it back. The reply to
`COMMIT` and the `unlink` of the Redis keys come in front of the same handler: when they are lost or throw,
there is nothing left to roll back, and the call fails with the contest frozen.
-/

namespace JudgeSelf.LeaderboardService

/-- `leaderboard_frozen` of a contest. -/
def Database.leaderboardFrozen (db : Database) (contestId : String) : Option Bool :=
  (db.contest? contestId).map Contest.leaderboardFrozen

/-- A freeze that throws changes nothing that the contest shows, and one that returns is complete. -/
structure FreezeAtomic (fault : Option FreezeQuery) (contestId : String) (stores : Stores) : Prop where
  thrown : ∀ query final, executeContestHardFreeze fault contestId stores = (.error query, final) →
    (final.database.resultsOf contestId).Perm (stores.database.resultsOf contestId) ∧
      final.database.leaderboardFrozen contestId = stores.database.leaderboardFrozen contestId
  returned : ∀ final, executeContestHardFreeze fault contestId stores = (.ok (), final) →
    StandingsOf (stores.database.ratedSubmissions contestId) (final.database.resultsOf contestId) ∧
      final.database.leaderboardFrozen contestId =
        (stores.database.leaderboardFrozen contestId).map (fun _ => true) ∧
      final.redis.hashes (getContestMetadataKey contestId) = (fun _ => none) ∧
      final.redis.zsets (getContestLeaderboardKey contestId) = SortedSet.empty

/-- The contest is frozen, with the standings of its submissions stored already. -/
def AlreadyFrozen (contestId : String) (database : Database) : Prop :=
  (∀ contest, database.contest? contestId = some contest → contest.leaderboardFrozen) ∧
    (frozenResults contestId database).Perm (database.resultsOf contestId)

variable {fault : Option FreezeQuery} {c : String} {stores final : Stores}

theorem contest?_setLeaderboardFrozen (db : Database) (c : String) : (db.setLeaderboardFrozen c).contest? c =
    (db.contest? c).map fun contest => { contest with leaderboardFrozen := true } := by
  simp only [Database.contest?, Database.setLeaderboardFrozen]
  induction db.contests with
  | nil => rfl
  | cons contest rest ih =>
    by_cases here : contest.id = c
    · simp [here]
    · simp [here, ih]

private theorem leaderboardFrozen_frozenDatabase (db : Database) (c : String) :
    (frozenDatabase c db).leaderboardFrozen c = (db.leaderboardFrozen c).map fun _ => true := by
  change ((db.setLeaderboardFrozen c).contest? c).map Contest.leaderboardFrozen = _
  rw [contest?_setLeaderboardFrozen, Database.leaderboardFrozen, Option.map_map, Option.map_map]
  rfl

/-- A freeze that throws has rolled back, or it has committed. -/
theorem executeContestHardFreeze_eq_error {query : FreezeQuery}
    (ran : executeContestHardFreeze fault c stores = (.error query, final)) :
    final = stores ∨ (∃ thrown ∈ fault, thrown.AfterCommit) ∧ final.database = frozenDatabase c stores.database := by
  rw [executeContestHardFreeze] at ran
  split at ran
  · exact .inl (Prod.mk.inj ran).2.symm
  · next database committed =>
    obtain rfl := freezeTransaction_eq_ok committed
    dsimp only at ran
    split_ifs at ran with reply unlink unlinkReply
    · exact .inr ⟨⟨_, reply, .inl rfl⟩, (congrArg Stores.database (Prod.mk.inj ran).2).symm⟩
    · exact .inr ⟨⟨_, unlink, .inr (.inl rfl)⟩, (congrArg Stores.database (Prod.mk.inj ran).2).symm⟩
    · exact .inr ⟨⟨_, unlinkReply, .inr (.inr rfl)⟩, (congrArg Stores.database (Prod.mk.inj ran).2).symm⟩
    · cases (Prod.mk.inj ran).1

/-- A freeze is atomic exactly if nothing throws once its transaction is committed, unless the contest was frozen
with the same standings before. -/
theorem freeze_atomic_iff (fault : Option FreezeQuery) (c : String) (stores : Stores) :
    FreezeAtomic fault c stores ↔ (∀ query ∈ fault, ¬ query.AfterCommit) ∨ AlreadyFrozen c stores.database := by
  have flags : (stores.database.leaderboardFrozen c).map (fun _ => true) = stores.database.leaderboardFrozen c ↔
      ∀ contest, stores.database.contest? c = some contest → contest.leaderboardFrozen := by
    rw [Database.leaderboardFrozen]
    cases stores.database.contest? c with
    | none => simp
    | some contest =>
      constructor
      · intro same other found
        obtain rfl := Option.some_inj.mp found
        exact (Option.some_inj.mp same).symm
      · intro frozen
        exact congrArg some (frozen contest rfl).symm
  constructor
  · intro atomic
    by_contra! neither
    obtain ⟨⟨query, throws, behind⟩, fresh⟩ := neither
    obtain rfl : fault = some query := throws
    obtain ⟨redis, ran⟩ := executeContestHardFreeze_of_afterCommit behind c stores
    obtain ⟨results, flag⟩ := atomic.thrown _ _ ran
    rw [resultsOf_frozenDatabase] at results
    rw [leaderboardFrozen_frozenDatabase] at flag
    exact fresh ⟨flags.mp flag, results⟩
  · intro condition
    refine ⟨fun query final ran => ?_, fun final ran => ?_⟩
    · rcases executeContestHardFreeze_eq_error ran with rfl | ⟨⟨thrown, throws, behind⟩, committed⟩
      · exact ⟨.refl _, rfl⟩
      · obtain ⟨flag, results⟩ := condition.resolve_left fun before => before thrown throws behind
        rw [committed, resultsOf_frozenDatabase, leaderboardFrozen_frozenDatabase]
        exact ⟨results, flags.mpr flag⟩
    · obtain rfl := executeContestHardFreeze_eq_ok ran
      refine ⟨?_, leaderboardFrozen_frozenDatabase stores.database c, ?_, ?_⟩
      · rw [resultsOf_frozenDatabase, frozenResults_eq]
        exact standingsOf_freezeResults c _
      · exact if_pos (by simp)
      · exact if_pos (by simp)

/-- Redis is gone when the keys are to be removed: the call fails, with the contest frozen and its results stored. -/
theorem unlink_fails_after_commit :
    executeContestHardFreeze (some .unlink) "4" twoUsers =
        (.error .unlink, ⟨Redis.empty, frozenDatabase "4" twoUsers.database⟩) ∧
      twoUsers.database.leaderboardFrozen "4" = some false ∧
      (frozenDatabase "4" twoUsers.database).leaderboardFrozen "4" = some true ∧
      ¬ FreezeAtomic (some .unlink) "4" twoUsers := by
  have ran : executeContestHardFreeze (some .unlink) "4" twoUsers =
      (.error .unlink, ⟨Redis.empty, frozenDatabase "4" twoUsers.database⟩) := by
    rw [executeContestHardFreeze, freezeTransaction_of_clear (by decide)]
    rfl
  refine ⟨ran, by decide +kernel, by decide +kernel, fun atomic => ?_⟩
  obtain ⟨_, flag⟩ := atomic.thrown _ _ ran
  exact absurd flag (by decide +kernel)

end JudgeSelf.LeaderboardService
