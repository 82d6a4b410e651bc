import JudgeSelf.Model.Leaderboard.Recalculate

/-! # Recalculations that throw

The entry of a user is gone from `hDel` on, and comes back row by row. A statement that throws in
between leaves the part that is replayed; the next verdict of the user adds to this part and writes
its score over the old one.
-/

namespace JudgeSelf.LeaderboardService

/-- If the call throws, the entry holds all that it held before, after any further verdicts. -/
def LosesNothing (fault : Option RecalculationFault) (stores : Stores) (contestId userId : String) : Prop :=
  ∀ query final,
    tryRecalculateLiveUserScore fault stores.database contestId userId stores.redis = (.error query, final) →
    ∀ verdicts : List QueueMessage, ∀ id ∈ stores.redis.recorded contestId userId,
      id ∈ (verdicts.foldl processLiveVerdict final).recorded contestId userId

/-- A recalculation that throws loses nothing exactly if what it deletes, it has replayed. -/
theorem failed_recalculation_loses_nothing_iff (fault : Option RecalculationFault) (stores : Stores) (c u : String) :
    LosesNothing fault stores c u ↔
      ∀ f, fault = some f → f.Reached (stores.database.ratedSubmissionsOf c u).length → f = ⟨.hDel, false⟩ ∨
        ∀ id ∈ stores.redis.recorded c u,
          ∃ row ∈ (stores.database.ratedSubmissionsOf c u).take f.rows, id = toString row.id := by
  constructor
  · intro lossless f faulty reached
    obtain ⟨final, ran, ⟨rejected, _⟩ | ⟨_, recorded⟩⟩ :=
      @tryRecalculateLiveUserScore_of_reached fault stores.redis c u f faulty _ reached
    · exact .inl rejected
    · exact .inr fun id member => (recorded id).mp (lossless _ final ran [] id member)
  · intro condition query final ran verdicts id member
    rw [mem_recorded_foldl]
    by_cases thrown : ∃ f, fault = some f ∧ f.Reached (stores.database.ratedSubmissionsOf c u).length
    · obtain ⟨f, faulty, reached⟩ := thrown
      obtain ⟨after, also, outcome⟩ :=
        @tryRecalculateLiveUserScore_of_reached fault stores.redis c u f faulty _ reached
      obtain rfl := (Prod.mk.inj (ran.symm.trans also)).2
      rcases outcome with ⟨_, rfl⟩ | ⟨deleted, recorded⟩
      · exact .inl member
      · exact .inl ((recorded id).mpr ((condition f faulty reached).resolve_left deleted id member))
    · have returned := tryRecalculateLiveUserScore_of_not_reached stores fun f faulty reached =>
        thrown ⟨f, faulty, reached⟩
      cases (Prod.mk.inj (ran.symm.trans returned)).1

/-- A user with two solved problems, both in the table and on the board. -/
def twoSolved : Stores where
  redis := processLiveVerdict (processLiveVerdict Redis.empty ⟨"41", "9", "u", "s", "AC", 60⟩)
    ⟨"42", "9", "u", "t", "AC", 120⟩
  database :=
    { contests := [⟨"9", 0, 3600000000, false⟩]
      problems := [⟨"s", "9"⟩, ⟨"t", "9"⟩]
      submissions := [⟨41, "s", "u", "RATED", "AC", 60000000⟩, ⟨42, "t", "u", "RATED", "AC", 120000000⟩]
      contestResults := [] }

/-- The query throws; after the verdict on a third problem the user has one problem solved instead of three. -/
theorem query_fails_after_hDel :
    ∃ final, tryRecalculateLiveUserScore (some ⟨.selectSubmissions, false⟩) twoSolved.database "9" "u"
        twoSolved.redis = (.error .selectSubmissions, final) ∧
      twoSolved.redis.recorded "9" "u" = ["41", "42"] ∧
      twoSolved.redis.score? "9" "u" = some 19999820 ∧
      (processLiveVerdict final ⟨"43", "9", "u", "w", "AC", 180⟩).recorded "9" "u" = ["43"] ∧
      (processLiveVerdict final ⟨"43", "9", "u", "w", "AC", 180⟩).score? "9" "u" = some 9999820 ∧
      ¬ LosesNothing (some ⟨.selectSubmissions, false⟩) twoSolved "9" "u" := by
  refine ⟨_, rfl, by decide +kernel, by decide +kernel, by decide +kernel, by decide +kernel, fun lossless => ?_⟩
  have kept := lossless _ _ rfl [⟨"43", "9", "u", "w", "AC", 180⟩] "41" (by decide +kernel)
  revert kept
  decide +kernel

end JudgeSelf.LeaderboardService
