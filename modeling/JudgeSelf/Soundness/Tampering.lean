import JudgeSelf.Model.Engine.Box
import JudgeSelf.Model.Engine.Logged

/-! # What a program can do to its own report

The report of isolate lies in the box directory of the program and is read again by name. It is the
report that isolate wrote exactly as long as the program leaves the name `metadata.txt` alone.
-/

namespace JudgeSelf.Engine

open Go
open Machine (FileOperation OpenFile)

/-- The operations are on the files of the given names. -/
def Within (names : Set String) (operations : List (FileOperation String)) : Prop :=
  ∀ operation ∈ operations, ∀ name ∈ operation.names, name ∈ names

/-- `ExecuteUserCode` of a program that performs the operations, where isolate makes the report. -/
def executeProgram (env : Environment) (job : Job) (test : ℕ) (userCodeBin testInputPath testOutputPath : String)
    (w : World) (report : String) (operations : List (FileOperation String)) : Models.Result × World :=
  executeUserCode (env.withProgram (nextBoxDir env w) report operations) job test userCodeBin testInputPath
    testOutputPath w

private theorem join_inj {dir name name' : String} : join dir name = join dir name' ↔ name = name' := by
  rw [join, join]
  split
  · rfl
  · exact String.append_right_inj _

variable {env : Environment} {job : Job} {test : ℕ} {userCodeBin testInputPath testOutputPath : String} {w : World}
  {report : String} {operations operations' : List (FileOperation String)}

/-- The metadata come from the file that has the name in the end. -/
theorem parsedMetadata_executeProgram : ∃ contents,
    (executeProgram env job test userCodeBin testInputPath testOutputPath w report operations).2.parsedMetadata =
      (runProgram (nextBoxDir env w) (join (nextBoxDir env w) "metadata.txt") report operations contents
        (join (nextBoxDir env w) "metadata.txt")).map parseMetadata := by
  obtain ⟨config, _, metadata⟩ := executeUserCode_eq_format (env.withProgram (nextBoxDir env w) report operations) w job
    test userCodeBin testInputPath testOutputPath
  rw [executeProgram, metadata]
  exact isolateMetadata_executeCode ..

/-- A program that leaves the file alone gets the report of isolate. -/
theorem parsedMetadata_of_untouched {names : Set String} (within : Within names operations)
    (elsewhere : "metadata.txt" ∉ names) :
    (executeProgram env job test userCodeBin testInputPath testOutputPath w report operations).2.parsedMetadata =
      some (parseMetadata report) := by
  obtain ⟨contents, metadata⟩ := @parsedMetadata_executeProgram env job test userCodeBin testInputPath testOutputPath w
    report operations
  have untouched : ∀ operation ∈ operations.map (·.map (join (nextBoxDir env w))),
      join (nextBoxDir env w) "metadata.txt" ∉ operation.names := by
    intro operation member touched
    obtain ⟨inBox, performed, rfl⟩ := List.mem_map.mp member
    rw [FileOperation.names_map, List.mem_map] at touched
    obtain ⟨name, used, same⟩ := touched
    exact elsewhere (join_inj.mp same ▸ within inBox performed name used)
  rw [metadata, runProgram, ((OpenFile.holds_openFile contents _).foldl untouched).close, OpenFile.overwrite_empty,
    Option.map_some]

/-- Without the file there are no metadata. -/
theorem parsedMetadata_of_deleted :
    (executeProgram env job test userCodeBin testInputPath testOutputPath w report
      [.delete "metadata.txt"]).2.parsedMetadata = none := by
  obtain ⟨contents, metadata⟩ := @parsedMetadata_executeProgram env job test userCodeBin testInputPath testOutputPath w
    report [.delete "metadata.txt"]
  rw [metadata, Option.map_eq_none_iff]
  simp [runProgram, FileOperation.map, OpenFile.apply, OpenFile.openFile, OpenFile.close]

/-- The same metadata make the same status and the same time. -/
theorem executeProgram_congr
    (same :
      (executeProgram env job test userCodeBin testInputPath testOutputPath w report operations).2.parsedMetadata =
      (executeProgram env job test userCodeBin testInputPath testOutputPath w report operations').2.parsedMetadata) :
    (executeProgram env job test userCodeBin testInputPath testOutputPath w report operations).1.status =
        (executeProgram env job test userCodeBin testInputPath testOutputPath w report operations').1.status ∧
      (executeProgram env job test userCodeBin testInputPath testOutputPath w report operations).1.time =
        (executeProgram env job test userCodeBin testInputPath testOutputPath w report operations').1.time := by
  obtain ⟨_, formatted, metadata⟩ := executeUserCode_eq_format (env.withProgram (nextBoxDir env w) report operations) w
    job test userCodeBin testInputPath testOutputPath
  obtain ⟨_, formatted', metadata'⟩ := executeUserCode_eq_format (env.withProgram (nextBoxDir env w) report operations')
    w job test userCodeBin testInputPath testOutputPath
  rw [executeProgram, executeProgram, metadata, metadata'] at same
  rw [executeProgram, executeProgram, formatted, formatted']
  exact formatUserCode_congr same

/-- Whatever two programs do to files of the given names of their box, metadata, status and time are the same,
exactly if `metadata.txt` is not among the names. -/
theorem verdict_independent_of_files_iff (env : Environment) (job : Job) (test : ℕ)
    (userCodeBin testInputPath testOutputPath : String) (w : World) (report : String) (names : Set String) :
    (∀ operations operations', Within names operations → Within names operations' →
      let run := executeProgram env job test userCodeBin testInputPath testOutputPath w report
      (run operations).2.parsedMetadata = (run operations').2.parsedMetadata ∧
        (run operations).1.status = (run operations').1.status ∧ (run operations).1.time = (run operations').1.time) ↔
      "metadata.txt" ∉ names := by
  constructor
  · intro independent touched
    obtain ⟨same, _⟩ := independent [] [.delete "metadata.txt"] (fun _ member => absurd member List.not_mem_nil) (by
      intro operation member name used
      obtain rfl := List.mem_singleton.mp member
      exact List.mem_singleton.mp used ▸ touched)
    rw [parsedMetadata_of_deleted, @parsedMetadata_of_untouched _ _ _ _ _ _ _ _ _ ∅
      (fun _ member => absurd member List.not_mem_nil) (Set.notMem_empty _)] at same
    contradiction
  · intro elsewhere operations operations' within within'
    have reported {performed : List (FileOperation String)} (within : Within names performed) :=
      @parsedMetadata_of_untouched env job test userCodeBin testInputPath testOutputPath w report _ _ within elsewhere
    have same := (reported within).trans (reported within').symm
    exact ⟨same, executeProgram_congr same⟩

/-- Isolate reports that the time is over; a program that puts a file of its own in the place of the report is
accepted with the time that it likes. -/
theorem replaced_report_accepted :
    let run := executeProgram (steadyIsolate (some "exit status 1") "") pythonJob 1 "print(0)" "in" "out" idleWorker
      "status:TO\ntime:1.1\n"
    let forged := [.write "forged" "time:0.01\n", .rename "forged" "metadata.txt"]
    (run []).1.status = "TLE" ∧ (run []).1.time = .ofRat false (11 / 10) ∧ (run forged).1.status = "AC" ∧
      (run forged).1.time = .ofRat false (1 / 100) ∧ (run []).2.parsedMetadata ≠ (run forged).2.parsedMetadata := by
  decide +kernel

end JudgeSelf.Engine
