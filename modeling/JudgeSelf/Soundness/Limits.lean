import JudgeSelf.Model.Engine.Arguments
import JudgeSelf.Model.Engine.Logged
import JudgeSelf.Model.Engine.Package

/-! # Limits on their way to the sandbox

The importer stores the time limit in milliseconds and the memory limit in bytes. The engine reads the
former as milliseconds and the latter as kilobytes, so that a memory limit reaches isolate a thousand
times too large, up to the hard limit.
-/

namespace JudgeSelf.Engine

open Go
open Machine (Tree)
open PolygonService

/-- The limits in the row of a problem: exact, as long as doubles are. -/
theorem limits_of_import {calls : ImportCalls} {tmpBaseDir : List String} {tree : Tree} {row : ProblemRow}
    {archive : List Entry} {problem : PolygonProblem} {testset : Testset} {T M : ℕ}
    (imported : importProblem calls tmpBaseDir tree = .ok (row, archive))
    (described : describedProblem calls tmpBaseDir tree = .ok problem) (only : problem.testsets = [testset])
    (timeLimit : testset.timeLimit = toString T) (memoryLimit : testset.memoryLimit = toString M) :
    (row.timeLimit = T ∧ T < 2 ^ 53) ∧ (if M < 2 ^ 53 then row.memoryLimit = M else 2 ^ 53 ≤ row.memoryLimit) := by
  obtain ⟨problem', parsedData, _, _, described', parses, _, _, _, created⟩ := importProblem_eq_ok imported
  obtain rfl : problem = problem' := Except.ok.inj (described.symm.trans described')
  have extracted := testsInfo_eq only (testsInfo_of_parseProblemXML parses)
  obtain ⟨memory, time, _⟩ := createProblemRecord_eq_ok created
  rw [extracted, memoryLimit, Js.parseInt_toString] at memory
  rw [extracted, timeLimit, Js.parseInt_toString] at time
  obtain ⟨memoryValue, _⟩ := column_natCast memory
  obtain ⟨timeValue, timeBound⟩ := column_natCast time
  constructor
  · rcases lt_or_ge T (2 ^ 53) with small | large
    · rw [timeValue, Js.nearest_of_lt small, Js.shortest_of_lt small]
      exact ⟨rfl, small⟩
    · have written := Js.le_shortest (Js.le_nearest large)
      omega
  · split
    · next small => rw [memoryValue, Js.nearest_of_lt small, Js.shortest_of_lt small]
    · next large =>
      have written := Js.le_shortest (Js.le_nearest (not_lt.mp large))
      omega

/-- The quotient is a double, less than a hundredth of a unit of the second decimal away from `T / 1000`. -/
private theorem abs_nearest_seconds_lt {T : ℕ} (below : T ≤ 30000) :
    |Binary64.nearest (T / 1000) * 1000 - T| < 1 := by
  rcases Nat.eq_zero_or_pos T with rfl | positive
  · rw [Nat.cast_zero, zero_div, Binary64.nearest_zero, zero_mul, sub_zero, abs_zero]
    exact one_pos
  · have least : (1 : ℚ) ≤ T := by exact_mod_cast positive
    have most : (T : ℚ) ≤ 30000 := by exact_mod_cast below
    have size : |(T / 1000 : ℚ)| = T / 1000 := abs_of_nonneg (by positivity)
    have normal : (2 : ℚ) ^ (-1022 : ℤ) ≤ |(T / 1000 : ℚ)| := by
      rw [size]
      calc (2 : ℚ) ^ (-1022 : ℤ) ≤ 2 ^ (-10 : ℤ) := zpow_le_zpow_right₀ (by norm_num) (by norm_num)
        _ ≤ T / 1000 := by rw [zpow_neg]; norm_num; linarith
    have close := Binary64.abs_nearest_sub_le_of_normal normal
    rw [size] at close
    have scaled : Binary64.nearest (T / 1000) * 1000 - T = (Binary64.nearest (T / 1000) - T / 1000) * 1000 := by ring
    rw [scaled, abs_mul, abs_of_pos (by norm_num : (0 : ℚ) < 1000)]
    linarith

/-- The time limit arrives, up to half a unit of the second decimal. Ten units printed are a whole number of
milliseconds, so that the error of the division disappears. -/
theorem time_argument {T : ℕ} (bound : T < 2 ^ 53) :
    |readDecimal (formatFixed 2 (min (Binary64.nearest (T / 1000)) 30)) - min (T / 1000 : ℚ) 30| ≤ 1 / 200 := by
  have fits : |(T / 1000 : ℚ)| < 2 ^ 53 := by
    have most : (T : ℚ) < 2 ^ 53 := by exact_mod_cast bound
    rw [abs_of_nonneg (by positivity)]
    linarith
  rcases le_total 30000 T with large | small
  · have limit : ((30 : ℤ) : ℚ) ≤ T / 1000 := by
      have least : (30000 : ℚ) ≤ T := by exact_mod_cast large
      push_cast
      linarith
    have limited := Binary64.le_nearest fits limit
    push_cast at limit limited
    have close := @readDecimal_formatFixed 2 (by decide) 30 (by norm_num)
    rw [min_eq_right limited, min_eq_right limit]
    norm_num at close ⊢
    exact close
  · have limit : (T / 1000 : ℚ) ≤ ((30 : ℤ) : ℚ) := by
      have most : (T : ℚ) ≤ 30000 := by exact_mod_cast small
      push_cast
      linarith
    have limited := Binary64.nearest_le fits limit
    push_cast at limit limited
    rw [min_eq_left limited, min_eq_left limit]
    have near := abs_lt.mp (abs_nearest_seconds_lt small)
    obtain ⟨r, close, value⟩ := @exists_readDecimal_formatFixed 2 (by decide) (Binary64.nearest (T / 1000))
      (Binary64.nearest_nonneg (by positivity))
    rw [value]
    have printed := abs_le.mp close
    have lower : (10 * r : ℚ) < T + 6 := by linarith
    have upper : (T : ℚ) < 10 * r + 6 := by linarith
    have lower' : 10 * r < T + 6 := by exact_mod_cast lower
    have upper' : T < 10 * r + 6 := by exact_mod_cast upper
    have most : (10 * r : ℚ) ≤ T + 5 := by exact_mod_cast (by omega : 10 * r ≤ T + 5)
    have least : (T : ℚ) ≤ 10 * r + 5 := by exact_mod_cast (by omega : T ≤ 10 * r + 5)
    rw [abs_le]
    constructor <;> linarith

/-- For every import of a problem with a time limit of `T` milliseconds and a memory limit of `M` bytes, every run
of a user program carries `-t` with the time limit; it carries `-m` with the memory limit in kilobytes exactly if
`M` is zero or at least the hard limit. -/
theorem limits_reach_sandbox_iff {calls : ImportCalls} {tmpBaseDir : List String} {tree : Tree} {row : ProblemRow}
    {archive : List Entry} {problem : PolygonProblem} {testset : Testset} {T M : ℕ}
    (imported : importProblem calls tmpBaseDir tree = .ok (row, archive))
    (described : describedProblem calls tmpBaseDir tree = .ok problem) (only : problem.testsets = [testset])
    (timeLimit : testset.timeLimit = toString T) (memoryLimit : testset.memoryLimit = toString M)
    (job : Job) {contestId localProblemDir : String}
    (ofRow : job.problemData = getProblemData row contestId localProblemDir)
    (env : Environment) (test : ℕ) (userCodeBin testInputPath testOutputPath : String) (w : World) :
    (executeUserCode env job test userCodeBin testInputPath testOutputPath w =
      let (result, w) := executeCode env (.userCode test) userCodeBin job.submissionData.sourceLanguage testInputPath
        testOutputPath "" [] (userCodeConfig job) w
      (formatUserCode result, w)) ∧
    ((argument? "-m" (userCodeConfig job).toArgs = some (toString (min (M / 1024 : ℤ) hardLimits.memoryLimit)) ∧
        ∃ text, argument? "-t" (userCodeConfig job).toArgs = some text ∧
          |readDecimal text - min (T / 1000 : ℚ) hardLimits.timeLimit| ≤ 1 / 200) ↔
      M = 0 ∨ 3 * 1024 ^ 3 ≤ M) := by
  obtain ⟨⟨time, exact⟩, memory⟩ := limits_of_import imported described only timeLimit memoryLimit
  refine ⟨rfl, ?_⟩
  have timeArgument : argument? "-t" (userCodeConfig job).toArgs =
      some (formatFixed 2 (min (Binary64.nearest (T / 1000)) hardLimits.timeLimit)) := by
    have small : |(T : ℤ)| < 2 ^ 53 := by
      rw [Nat.abs_cast]
      exact_mod_cast exact
    rw [time_toArgs, userCodeConfig, ofRow, getProblemData, time, Binary64.nearest_intCast small]
    norm_num
  have memoryArgument : argument? "-m" (userCodeConfig job).toArgs =
      some (toString (min row.memoryLimit hardLimits.memoryLimit)) := by
    rw [memory_toArgs, userCodeConfig, ofRow, getProblemData]
  have arrives : ∃ text, argument? "-t" (userCodeConfig job).toArgs = some text ∧
      |readDecimal text - min (T / 1000 : ℚ) hardLimits.timeLimit| ≤ 1 / 200 := ⟨_, timeArgument, time_argument exact⟩
  rw [and_iff_left arrives, memoryArgument, Option.some_inj, toString_inj, hardLimits]
  dsimp only
  split at memory <;> omega

private theorem described_sample : describedProblem sampleCalls ["tmp", "polygon"] Tree.empty = .ok sampleProblem := by
  obtain ⟨problem, _, _, _, described, _⟩ := importProblem_eq_ok import_sample
  have done : (describedProblem sampleCalls ["tmp", "polygon"] Tree.empty).toOption = some sampleProblem := by
    decide +kernel
  rw [described] at done
  rw [described, Option.some.inj done]

def sampleJob : Job where
  submissionData := ⟨"s", "print(0)", "python", "p", "RATED", "u", 60⟩
  problemData := getProblemData sampleRow "c" "/tmp/execution-engine/problems/p_3"

/-- The run of the job, with the memory argument that it should not have. -/
theorem sample_limits :
    (executeUserCode (steadyIsolate none "") sampleJob 1 "print(0)" "in" "out" idleWorker =
      let (result, w) := executeCode (steadyIsolate none "") (.userCode 1) "print(0)" "python" "in" "out" "" []
        (userCodeConfig sampleJob) idleWorker
      (formatUserCode result, w)) ∧
    ¬ (argument? "-m" (userCodeConfig sampleJob).toArgs =
        some (toString (min (268435456 / 1024 : ℤ) hardLimits.memoryLimit)) ∧
      ∃ text, argument? "-t" (userCodeConfig sampleJob).toArgs = some text ∧
        |readDecimal text - min (1000 / 1000 : ℚ) hardLimits.timeLimit| ≤ 1 / 200) := by
  have seconds : "1000" = toString (1000 : ℕ) := by decide
  have bytes : "268435456" = toString (268435456 : ℕ) := by decide
  obtain ⟨runs, arrives⟩ := limits_reach_sandbox_iff import_sample described_sample rfl seconds bytes sampleJob
    rfl (steadyIsolate none "") 1 "print(0)" "in" "out" idleWorker
  refine ⟨runs, fun both => ?_⟩
  exact absurd (arrives.mp (mod_cast both)) (by decide)

/-- The package has a memory limit of 268435456 bytes, which are 262144 kilobytes. -/
theorem sample_memory_limit_lost :
    importProblem sampleCalls ["tmp", "polygon"] Tree.empty = .ok (sampleRow, sampleArchive) ∧
      describedProblem sampleCalls ["tmp", "polygon"] Tree.empty = .ok sampleProblem ∧
      sampleProblem.testsets = [⟨"tests", "1000", "268435456", "2"⟩] ∧
      argument? "-m" (userCodeConfig sampleJob).toArgs = some "3145728" ∧
      toString (min (268435456 / 1024 : ℤ) hardLimits.memoryLimit) = "262144" := by
  refine ⟨import_sample, described_sample, rfl, ?_⟩
  decide +kernel

end JudgeSelf.Engine
