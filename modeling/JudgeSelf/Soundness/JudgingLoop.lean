import JudgeSelf.Model.Engine.Logged
import Mathlib.Order.Bounds.Basic

/-! # The loop over the tests

The tests are executed one after another, each in the world that the one before it has left. The
loop ends with the first test whose user program or checker is not AC, and each result has the
status of its own test. `PostExecute` reads the verdict off the last result and the maxima off all.
-/

namespace JudgeSelf.Engine

open Go

section Tests

variable (env : Environment) (job : Job) (checkerBin userCodeBin : String)

/-- The execution of the user's program on a test. -/
def userRun (test : ℕ) (w : World) : Models.Result × World :=
  executeUserCode env job test userCodeBin (job.problemData.getTestFilePath test) (job.getOutputFilePath test) w

/-- The execution of the checker on a test, in the world that the user's program has left. -/
def checkerRun (test : ℕ) (w : World) : Models.Result × World :=
  executeChecker env job test checkerBin (job.problemData.getTestFilePath test) (job.getOutputFilePath test)
    (job.problemData.getAnswerFilePath test) (userRun env job userCodeBin test w).2

/-- Both programs of the test are AC. -/
def Passes (test : ℕ) (w : World) : Prop :=
  (userRun env job userCodeBin test w).1.status = "AC" ∧
    (checkerRun env job checkerBin userCodeBin test w).1.status = "AC"

/-- The status of the user's program if that is not AC, otherwise the checker's. -/
def testStatus (test : ℕ) (w : World) : String :=
  if (userRun env job userCodeBin test w).1.status ≠ "AC" then (userRun env job userCodeBin test w).1.status
  else (checkerRun env job checkerBin userCodeBin test w).1.status

/-- The world in which test `first + i` is executed, after all tests from `first` on. -/
def worldBefore (first : ℕ) (w : World) : ℕ → World
  | 0 => w
  | i + 1 => worldBefore (first + 1) (checkerRun env job checkerBin userCodeBin first w).2 i

/-- The runs of isolate for one test: the checker is run after an AC of the user's program alone. -/
def testRuns (test : ℕ) (w : World) : List Purpose :=
  if (userRun env job userCodeBin test w).1.status ≠ "AC" then [.userCode test]
  else [.userCode test, .checker test]

end Tests

variable {env : Environment} {job : Job} {checkerBin userCodeBin : String}

private theorem testStatus_eq_AC_iff {test : ℕ} {w : World} :
    testStatus env job checkerBin userCodeBin test w = "AC" ↔ Passes env job checkerBin userCodeBin test w := by
  rw [testStatus, Passes]
  split
  · next rejected => exact ⟨fun accepted => absurd accepted rejected, fun both => absurd both.1 rejected⟩
  · next accepted => exact (and_iff_right (not_not.mp accepted)).symm

/-- What the first `k` of the tests from `first` on leave: their results and their runs. -/
structure Judged (env : Environment) (job : Job) (checkerBin userCodeBin : String) (first : ℕ) (w : World)
    (k : ℕ) (results : List Models.Result) (after : World) : Prop where
  tests : results.map Models.Result.test = List.range' first k
  statuses : results.map Models.Result.status = (List.range k).map fun i =>
    testStatus env job checkerBin userCodeBin (first + i) (worldBefore env job checkerBin userCodeBin first w i)
  runs : after.runs.map IsolateRun.purpose = w.runs.map IsolateRun.purpose ++ (List.range k).flatMap fun i =>
    testRuns env job userCodeBin (first + i) (worldBefore env job checkerBin userCodeBin first w i)

private theorem userRun_runs (test : ℕ) (w : World) :
    (userRun env job userCodeBin test w).2.runs.map IsolateRun.purpose =
      w.runs.map IsolateRun.purpose ++ [.userCode test] := by
  obtain ⟨run, ofTest, logged, _⟩ := executeUserCode_spec env job test userCodeBin
    (job.problemData.getTestFilePath test) (job.getOutputFilePath test) w
  rw [userRun, logged, List.map_append, List.map_singleton, ofTest]

private theorem checkerRun_runs (test : ℕ) (w : World) :
    (checkerRun env job checkerBin userCodeBin test w).2.runs.map IsolateRun.purpose =
      w.runs.map IsolateRun.purpose ++ [.userCode test, .checker test] := by
  obtain ⟨run, ofTest, logged, _⟩ := executeChecker_spec env job test checkerBin
    (job.problemData.getTestFilePath test) (job.getOutputFilePath test) (job.problemData.getAnswerFilePath test)
    (userRun env job userCodeBin test w).2
  rw [checkerRun, logged, List.map_append, List.map_singleton, ofTest, userRun_runs, List.append_assoc]
  rfl

namespace Judged

/-- One result, of the test `first`. -/
theorem single {first : ℕ} {w after : World} {result : Models.Result} (ofTest : result.test = first)
    (status : result.status = testStatus env job checkerBin userCodeBin first w)
    (runs : after.runs.map IsolateRun.purpose =
      w.runs.map IsolateRun.purpose ++ testRuns env job userCodeBin first w) :
    Judged env job checkerBin userCodeBin first w 1 [result] after where
  tests := by rw [List.map_singleton, ofTest]; rfl
  statuses := by rw [List.map_singleton, status]; rfl
  runs := by rw [runs]; simp [worldBefore]

/-- A test that passes is followed by the tests after it. -/
theorem cons {first k : ℕ} {w after : World} {result : Models.Result} {results : List Models.Result}
    (passes : Passes env job checkerBin userCodeBin first w) (ofTest : result.test = first)
    (status : result.status = "AC")
    (rest : Judged env job checkerBin userCodeBin (first + 1) (checkerRun env job checkerBin userCodeBin first w).2 k
      results after) :
    Judged env job checkerBin userCodeBin first w (k + 1) (result :: results) after where
  tests := by rw [List.map_cons, rest.tests, ofTest, List.range'_succ]
  statuses := by
    have shifted : (fun i => testStatus env job checkerBin userCodeBin (first + i)
          (worldBefore env job checkerBin userCodeBin first w i)) ∘ Nat.succ =
        fun i => testStatus env job checkerBin userCodeBin (first + 1 + i) (worldBefore env job checkerBin userCodeBin
          (first + 1) (checkerRun env job checkerBin userCodeBin first w).2 i) := by
      funext i
      rw [Function.comp_apply, worldBefore, Nat.succ_eq_add_one, Nat.add_comm i 1, Nat.add_assoc]
    rw [List.map_cons, rest.statuses, status, List.range_succ_eq_map, List.map_cons, List.map_map, shifted,
      worldBefore, Nat.add_zero first, testStatus_eq_AC_iff.mpr passes]
  runs := by
    have both : testRuns env job userCodeBin first w = [.userCode first, .checker first] :=
      if_neg (not_not.mpr passes.1)
    have shifted : (fun i => testRuns env job userCodeBin (first + Nat.succ i)
          (worldBefore env job checkerBin userCodeBin first w (Nat.succ i))) =
        fun i => testRuns env job userCodeBin (first + 1 + i) (worldBefore env job checkerBin userCodeBin
          (first + 1) (checkerRun env job checkerBin userCodeBin first w).2 i) := by
      funext i
      rw [worldBefore, Nat.succ_eq_add_one, Nat.add_comm i 1, Nat.add_assoc]
    rw [rest.runs, checkerRun_runs, List.range_succ_eq_map, List.flatMap_cons, List.flatMap_map, shifted,
      worldBefore, Nat.add_zero first, both, List.append_assoc]

end Judged

/-- The `k`-th of the tests from `first` on is the first one that does not pass, or the last. -/
structure Stops (passes : ℕ → Prop) (remaining k : ℕ) : Prop where
  le : k ≤ remaining
  pos : 0 < remaining → 0 < k
  before : ∀ i, i + 1 < k → passes i
  last : k < remaining → ¬ passes (k - 1)

theorem Stops.succ {passes : ℕ → Prop} {remaining k : ℕ} (here : passes 0)
    (rest : Stops (fun i => passes (i + 1)) remaining k) : Stops passes (remaining + 1) (k + 1) where
  le := Nat.succ_le_succ rest.le
  pos _ := Nat.succ_pos k
  before i below := by
    cases i with
    | zero => exact here
    | succ i => exact rest.before i (by omega)
  last below := by
    have positive := rest.pos (by omega)
    have failed := rest.last (by omega)
    rwa [Nat.sub_add_cancel positive] at failed

/-- The test that the loop ends with passes when all do. -/
theorem Stops.last_iff {passes : ℕ → Prop} {remaining k : ℕ} (stops : Stops passes remaining k) (positive : 0 < k) :
    passes (k - 1) ↔ ∀ i < remaining, passes i := by
  have le := stops.le
  constructor
  · intro passed i below
    have all : k = remaining := by
      by_contra fewer
      exact stops.last (lt_of_le_of_ne le fewer) passed
    rcases Nat.lt_or_ge (i + 1) k with before | atLast
    · exact stops.before i before
    · obtain rfl : i = k - 1 := by omega
      exact passed
  · intro all
    exact all (k - 1) (by omega)

/-- The loop executes the tests up to the first one that does not pass. -/
theorem runTests_judged (remaining first : ℕ) (w : World) :
    ∃ k, Stops (fun i => Passes env job checkerBin userCodeBin (first + i)
        (worldBefore env job checkerBin userCodeBin first w i)) remaining k ∧
      Judged env job checkerBin userCodeBin first w k (runTests env job checkerBin userCodeBin remaining first w).1
        (runTests env job checkerBin userCodeBin remaining first w).2 := by
  induction remaining generalizing first w with
  | zero => exact ⟨0, ⟨le_rfl, id, by simp, by simp⟩, ⟨rfl, rfl, (List.append_nil _).symm⟩⟩
  | succ remaining ih =>
    have stopsHere (failed : ¬ Passes env job checkerBin userCodeBin first w) :
        Stops (fun i => Passes env job checkerBin userCodeBin (first + i)
          (worldBefore env job checkerBin userCodeBin first w i)) (remaining + 1) 1 :=
      ⟨by omega, fun _ => Nat.one_pos, by omega, fun _ => failed⟩
    have userLogged := @userRun_runs env job userCodeBin first w
    have checkerLogged := @checkerRun_runs env job checkerBin userCodeBin first w
    rw [runTests]
    rcases ranUser : executeUserCode env job first userCodeBin (job.problemData.getTestFilePath first)
      (job.getOutputFilePath first) w with ⟨userCodeResult, w₁⟩
    have user : userRun env job userCodeBin first w = (userCodeResult, w₁) := ranUser
    rcases ranChecker : executeChecker env job first checkerBin (job.problemData.getTestFilePath first)
      (job.getOutputFilePath first) (job.problemData.getAnswerFilePath first) w₁ with ⟨checkerResult, w₂⟩
    have checker : checkerRun env job checkerBin userCodeBin first w = (checkerResult, w₂) := by
      rw [checkerRun, user, ranChecker]
    rw [user] at userLogged
    rw [checker] at checkerLogged
    dsimp only
    split
    · next rejected =>
      have failed : ¬ Passes env job checkerBin userCodeBin first w := fun both => rejected (by
        rw [← both.1, user])
      refine ⟨1, stopsHere failed, .single rfl ?_ ?_⟩
      · rw [testStatus, user, if_pos rejected]
      · rw [testRuns, user, if_pos rejected, userLogged]
    · next accepted =>
      have runs : w₂.runs.map IsolateRun.purpose =
          w.runs.map IsolateRun.purpose ++ testRuns env job userCodeBin first w := by
        rw [testRuns, user, if_neg accepted, checkerLogged]
      have status : testStatus env job checkerBin userCodeBin first w = checkerResult.status := by
        rw [testStatus, user, if_neg accepted, checker]
      have failed (rejected : checkerResult.status ≠ "AC") : ¬ Passes env job checkerBin userCodeBin first w := by
        rw [← testStatus_eq_AC_iff, status]
        exact rejected
      rw [ranChecker]
      dsimp only
      split
      · next unexpected => exact ⟨1, stopsHere (failed unexpected.1), .single rfl status.symm runs⟩
      · split
        · next wrong =>
          refine ⟨1, stopsHere (failed ?_), .single rfl status.symm runs⟩
          rw [wrong]
          decide
        · next expected right =>
          have passed : checkerResult.status = "AC" := by
            by_contra other
            exact expected ⟨other, right⟩
          have passes : Passes env job checkerBin userCodeBin first w := by
            rw [← testStatus_eq_AC_iff, status, passed]
          obtain ⟨k, stops, rest⟩ := ih (first + 1) w₂
          refine ⟨k + 1, .succ passes ?_, .cons passes rfl passed ?_⟩
          · convert stops using 3 with i
            · omega
            · rw [worldBefore, checker]
          · rw [checker]
            exact rest

private theorem isGreatest_foldl_max {α : Type*} (f : α → ℤ) (l : List α) (start : ℤ) :
    IsGreatest {x | x = start ∨ ∃ a ∈ l, f a = x} (l.foldl (fun largest a => max largest (f a)) start) := by
  induction l generalizing start with
  | nil => exact ⟨.inl rfl, by rintro x (rfl | ⟨a, member, _⟩); exacts [le_rfl, absurd member List.not_mem_nil]⟩
  | cons a l ih =>
    obtain ⟨attained, bound⟩ := ih (max start (f a))
    rw [List.foldl_cons]
    constructor
    · rcases attained with largest | ⟨b, member, value⟩
      · rcases max_choice start (f a) with same | same
        · exact .inl (largest.trans same)
        · exact .inr ⟨a, List.mem_cons_self, (largest.trans same).symm⟩
      · exact .inr ⟨b, List.mem_cons_of_mem a member, value⟩
    · have starts := bound (.inl rfl)
      rintro x (rfl | ⟨b, member, rfl⟩)
      · exact (le_max_left _ _).trans starts
      · rcases List.mem_cons.mp member with rfl | later
        · exact (le_max_right _ _).trans starts
        · exact bound (.inr ⟨b, later, rfl⟩)

/-- The loop of `PostExecute` that starts at zero finds the maximum of non-negative values. -/
theorem isGreatest_of_nonneg {α : Type*} {f : α → ℤ} {l : List α} (some : l ≠ []) (nonneg : ∀ a ∈ l, 0 ≤ f a) :
    IsGreatest {x | ∃ a ∈ l, f a = x} (l.foldl (fun largest a => max largest (f a)) 0) := by
  obtain ⟨attained, bound⟩ := isGreatest_foldl_max f l 0
  refine ⟨?_, fun x member => bound (.inr member)⟩
  rcases attained with zero | value
  · obtain ⟨a, member⟩ := List.exists_mem_of_ne_nil l some
    have most := bound (.inr ⟨a, member, rfl⟩)
    have same : f a = 0 := le_antisymm (most.trans_eq zero) (nonneg a member)
    exact ⟨a, member, same.trans zero.symm⟩
  · exact value

/-- The time is a finite number of seconds, and neither it nor the memory is negative. The milliseconds fit an
`int64`. -/
structure Models.Result.Measures (result : Models.Result) (seconds : ℚ) : Prop where
  time : result.time.value? = some seconds
  nonneg : 0 ≤ seconds
  fits : Binary64.nearest (seconds * 1000) < 2 ^ 63
  memory : 0 ≤ result.memory

/-- The product of doubles is rounded to a double, and that down to whole milliseconds. -/
theorem milliseconds_of_measures {result : Models.Result} {seconds : ℚ} (measures : result.Measures seconds) :
    toInt64 (result.time * .ofRat false 1000) = ⌊Binary64.nearest (seconds * 1000)⌋ := by
  have thousand : (Binary64.ofRat false 1000).value? = some 1000 := by decide +kernel
  have bounded : Binary64.nearest (seconds * 1000) < 2 ^ 1024 := measures.fits.trans (by gcongr <;> norm_num)
  have product := Binary64.value?_mul measures.time thousand measures.nonneg (by norm_num) bounded
  have positive : 0 ≤ seconds * 1000 := mul_nonneg measures.nonneg (by norm_num)
  exact toInt64_of_nonneg product (Binary64.nearest_nonneg positive) measures.fits

/-- The loop over the times finds the largest number of milliseconds. -/
theorem isGreatest_milliseconds {results : List Models.Result} (some_ : results ≠ [])
    (measured : ∀ result ∈ results, ∃ seconds, result.Measures seconds) :
    IsGreatest {t | ∃ result ∈ results, ∃ seconds, result.time.value? = some seconds ∧
        ⌊Binary64.nearest (seconds * 1000)⌋ = t}
      (results.foldl (fun maxTime result => max maxTime (toInt64 (result.time * .ofRat false 1000))) 0) := by
  have nonneg : ∀ result ∈ results, 0 ≤ toInt64 (result.time * .ofRat false 1000) := by
    intro result member
    obtain ⟨seconds, measures⟩ := measured result member
    rw [milliseconds_of_measures measures]
    exact Int.floor_nonneg.mpr (Binary64.nearest_nonneg (mul_nonneg measures.nonneg (by norm_num)))
  convert isGreatest_of_nonneg some_ nonneg using 1
  ext t
  refine exists_congr fun result => and_congr_right fun member => ?_
  obtain ⟨seconds, measures⟩ := measured result member
  rw [milliseconds_of_measures measures, measures.time]
  simp

/-- What `PostExecute` leaves has the verdict of the results. -/
theorem postExecute_verdict {updateSubmission : Verdict → Option String} {job : Job}
    {results : List Models.Result} {last : Models.Result} (ending : results.getLast? = some last) :
    ∃ post, postExecute updateSubmission job results = some post ∧ post.verdict =
      { submissionId := job.submissionData.submissionId
        status := last.status
        time := results.foldl (fun maxTime result => max maxTime (toInt64 (result.time * .ofRat false 1000))) 0
        memory := results.foldl (fun maxMemory result => max maxMemory result.memory) 0
        results := results } := by
  rw [postExecute, Job.verdict, ending, Option.map_some, Option.map_some]
  refine ⟨_, rfl, ?_⟩
  split <;> rfl

/-- With both binaries and some test, the results are those of the loop. -/
theorem executeWorker_of_compiled {w w₁ w₂ : World} {checkerResult userResult : Models.Result}
    (compiledChecker : compileCheckerCode env job w = (some checkerBin, checkerResult, w₁))
    (compiledUser : compileUserCode env job w₁ = (some userCodeBin, userResult, w₂))
    (tests : 1 ≤ job.problemData.testCount) :
    executeWorker env job w = runTests env job checkerBin userCodeBin job.problemData.testCount.toNat 1 w₂ := by
  simp only [executeWorker, compiledChecker, compiledUser]
  exact if_neg (by omega)

/-- Whatever is returned has a last element. -/
theorem returnedResults_ne_nil {env : Environment} {job : Job} {w : World} {results : List Models.Result}
    (returned : returnedResults env job w = some results) : results ≠ [] := by
  rw [returnedResults, executeWorker] at returned
  rcases compiledChecker : compileCheckerCode env job w with ⟨_ | checkerBin, checkerResult, w₁⟩
  · simp only [compiledChecker, Option.isSome_none, Bool.false_eq_true, false_and, ↓reduceIte,
      Option.some_inj] at returned
    rw [← returned]
    exact List.cons_ne_nil _ _
  · rcases compiledUser : compileUserCode env job w₁ with ⟨_ | userCodeBin, userResult, w₂⟩
    · simp only [compiledChecker, compiledUser, Option.isSome_none, Bool.false_eq_true, false_and, and_false,
        ↓reduceIte, Option.some_inj] at returned
      rw [← returned]
      exact List.cons_ne_nil _ _
    · simp only [compiledChecker, compiledUser, Option.isSome_some, true_and] at returned
      split at returned
      · contradiction
      · next nonnegative =>
        split at returned
        · rw [← Option.some_inj.mp returned]
          exact List.cons_ne_nil _ _
        · next some =>
          obtain ⟨k, stops, judged⟩ := @runTests_judged env job checkerBin userCodeBin
            job.problemData.testCount.toNat 1 w₂
          have positive := stops.pos (by omega)
          intro none
          rw [Option.some_inj] at returned
          have lengths := congrArg List.length judged.tests
          rw [returned, none] at lengths
          simp at lengths
          omega

/-- The statuses of the results, read test by test. -/
theorem Judged.status_eq {first k i : ℕ} {w after : World} {results : List Models.Result}
    (judged : Judged env job checkerBin userCodeBin first w k results after) (below : i < k) :
    results[i]?.map Models.Result.status = some (testStatus env job checkerBin userCodeBin (first + i)
      (worldBefore env job checkerBin userCodeBin first w i)) := by
  have read := congrArg (fun l : List String => l[i]?) judged.statuses
  simpa [below] using read

theorem Judged.length_eq {first k : ℕ} {w after : World} {results : List Models.Result}
    (judged : Judged env job checkerBin userCodeBin first w k results after) : results.length = k := by
  have lengths := congrArg List.length judged.tests
  simpa using lengths

/-- Where all tests before the last one pass, all results before the last one are AC. -/
theorem Judged.accepted_of_mem_dropLast {first k : ℕ} {w after : World} {results : List Models.Result}
    (judged : Judged env job checkerBin userCodeBin first w k results after)
    (passes : ∀ i, i + 1 < k → Passes env job checkerBin userCodeBin (first + i)
      (worldBefore env job checkerBin userCodeBin first w i))
    {result : Models.Result} (member : result ∈ results.dropLast) : result.status = "AC" := by
  obtain ⟨i, inside, rfl⟩ := List.getElem_of_mem member
  rw [List.length_dropLast, judged.length_eq] at inside
  have status := judged.status_eq (i := i) (by omega)
  rw [testStatus_eq_AC_iff.mpr (passes i (by omega))] at status
  rw [List.getElem_dropLast]
  rwa [List.getElem?_eq_getElem (by rw [judged.length_eq]; omega), Option.map_some, Option.some_inj] at status

theorem Judged.status_last {first k : ℕ} {w after : World} {results : List Models.Result}
    (judged : Judged env job checkerBin userCodeBin first w k results after) (positive : 0 < k)
    {last : Models.Result} (ending : results.getLast? = some last) :
    last.status = testStatus env job checkerBin userCodeBin (first + (k - 1))
      (worldBefore env job checkerBin userCodeBin first w (k - 1)) := by
  have status := judged.status_eq (Nat.sub_lt positive Nat.one_pos)
  rwa [← judged.length_eq, ← List.getLast?_eq_getElem?, ending, Option.map_some, Option.some_inj,
    judged.length_eq] at status

/-- The judging loop and `PostExecute` compute the verdict: after successful compilations the results
are those of the tests up to the first one that is not AC, and every returned list has a last element. -/
theorem judging_loop_correct (env : Environment) (job : Job) (w : World) :
    (∀ checkerBin userCodeBin checkerResult userResult w₁ w₂,
      compileCheckerCode env job w = (some checkerBin, checkerResult, w₁) →
      compileUserCode env job w₁ = (some userCodeBin, userResult, w₂) →
      1 ≤ job.problemData.testCount →
      let n := job.problemData.testCount.toNat
      let started := worldBefore env job checkerBin userCodeBin 1 w₂
      let passes i := Passes env job checkerBin userCodeBin (1 + i) (started i)
      let results := (executeWorker env job w).1
      returnedResults env job w = some results ∧
      ∃ k, (1 ≤ k ∧ k ≤ n ∧ (∀ i, i + 1 < k → passes i) ∧ (k < n → ¬ passes (k - 1))) ∧
        results.map Models.Result.test = List.range' 1 k ∧
        (∀ result ∈ results.dropLast, result.status = "AC") ∧
        (executeWorker env job w).2.runs.map IsolateRun.purpose = w₂.runs.map IsolateRun.purpose ++
          (List.range k).flatMap (fun i => testRuns env job userCodeBin (1 + i) (started i)) ∧
        ∃ last, results.getLast? = some last ∧
          last.status = testStatus env job checkerBin userCodeBin (1 + (k - 1)) (started (k - 1)) ∧
          ∀ updateSubmission, ∃ post, postExecute updateSubmission job results = some post ∧
            post.verdict.status = last.status ∧
            (post.verdict.status = "AC" ↔ ∀ i < n, passes i) ∧
            ((∀ result ∈ results, ∃ seconds, result.Measures seconds) →
              IsGreatest {t | ∃ result ∈ results, ∃ seconds, result.time.value? = some seconds ∧
                ⌊Binary64.nearest (seconds * 1000)⌋ = t} post.verdict.time ∧
              IsGreatest {m | ∃ result ∈ results, result.memory = m} post.verdict.memory)) ∧
    ∀ results, returnedResults env job w = some results →
      results ≠ [] ∧ ∀ updateSubmission, (postExecute updateSubmission job results).isSome := by
  refine ⟨?_, ?_⟩
  · intro checkerBin userCodeBin checkerResult userResult w₁ w₂ compiledChecker compiledUser tests
    dsimp only
    have returned : returnedResults env job w = some (executeWorker env job w).1 := by
      simp only [returnedResults, compiledChecker, compiledUser]
      exact if_neg (by omega)
    obtain ⟨k, stops, judged⟩ := @runTests_judged env job checkerBin userCodeBin
      job.problemData.testCount.toNat 1 w₂
    rw [← executeWorker_of_compiled compiledChecker compiledUser tests] at judged
    have positive := stops.pos (by omega)
    have some := returnedResults_ne_nil returned
    refine ⟨returned, k, ⟨positive, stops.le, stops.before, stops.last⟩, judged.tests, ?_, judged.runs, ?_⟩
    · exact fun result member => judged.accepted_of_mem_dropLast stops.before member
    · have ending := List.getLast?_eq_getLast_of_ne_nil some
      have status := judged.status_last positive ending
      refine ⟨_, ending, status, fun updateSubmission => ?_⟩
      obtain ⟨post, posted, verdict⟩ := @postExecute_verdict updateSubmission job _ _ ending
      refine ⟨post, posted, by rw [verdict], ?_, fun measured => ?_⟩
      · rw [verdict]
        dsimp only
        rw [status, testStatus_eq_AC_iff]
        exact stops.last_iff positive
      · rw [verdict]
        refine ⟨isGreatest_milliseconds some measured, isGreatest_of_nonneg some fun result member => ?_⟩
        obtain ⟨_, measures⟩ := measured result member
        exact measures.memory
  · intro results returned
    have some := returnedResults_ne_nil returned
    refine ⟨some, fun updateSubmission => ?_⟩
    obtain ⟨post, posted, _⟩ := @postExecute_verdict updateSubmission job _ _ (List.getLast?_eq_getLast_of_ne_nil some)
    rw [posted, Option.isSome_some]

end JudgeSelf.Engine
