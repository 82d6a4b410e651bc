import JudgeSelf.Model.Engine.IsolateOptions

/-! # What isolate reads from the configuration

The memory, the times, the stack, the file size and the mounts come back from the arguments. The extra time
does not: its letter is the one for a variable of the environment.
-/

namespace JudgeSelf.Engine

open Go
open IsolateOptions (empty readDir readDirOption readUnsigned)

/-- A time that was read is the one that was configured, to two decimals. -/
def ReadsTime (seconds : ℚ) (time : Option ℚ) : Prop := ∃ read, time = some read ∧ |read - seconds| ≤ 1 / 200

/-- A number that was read is the one that was configured. -/
def ReadsNumber (n : ℤ) (number : Option ℕ) : Prop := ∃ read : ℕ, number = some read ∧ (read : ℤ) = n

/-- The options are the configuration within the hard limits. -/
structure IsolateConfig.Encodes (ic : IsolateConfig) (o : IsolateOptions) : Prop where
  memory : ReadsNumber (min ic.memoryLimit hardLimits.memoryLimit) o.memory
  time : ReadsTime (min ic.timeLimit hardLimits.timeLimit) o.time
  wallTime : ReadsTime (min ic.wallTimeLimit hardLimits.wallTimeLimit) o.wallTime
  extraTime : ReadsTime (min ic.extraTimeLimit hardLimits.extraTimeLimit) o.extraTime
  stack : ReadsNumber (min ic.stack hardLimits.stack) o.stack
  fileSize : ReadsNumber (min ic.fileSizeLimit hardLimits.fileSizeLimit) o.fileSize
  dirs : o.dirs = ic.dirMounts
  env : o.env = []

variable {ic : IsolateConfig} {o after : IsolateOptions}

private theorem read_flag {flag value : String} {rest : List String} (letter : ¬ "--dir=".toList <+: flag.toList) :
    o.read (flag :: value :: rest) = (o.setOption flag value).bind fun next => next.read rest := by
  rw [IsolateOptions.read.eq_def]
  dsimp only
  rw [if_neg letter]

private theorem read_dir {arg : String} {rest : List String} (rule : "--dir=".toList <+: arg.toList) :
    o.read (arg :: rest) =
      (readDir (arg.toList.drop 6)).bind fun mount => { o with dirs := o.dirs ++ [mount] }.read rest := by
  rw [IsolateOptions.read.eq_def]
  dsimp only
  rw [if_pos rule]

/-- The six limits, as they are read one after another. -/
theorem read_toArgs (ic : IsolateConfig) : empty.read ic.toArgs =
    (readUnsigned (toString ic.applyHardLimits.memoryLimit)).bind fun memory =>
    (readUnsigned (toString ic.applyHardLimits.stack)).bind fun stack =>
    (readUnsigned (toString ic.applyHardLimits.fileSizeLimit)).bind fun fileSize =>
      IsolateOptions.read
        { memory := some memory
          time := some (readDecimal (formatFixed 2 ic.applyHardLimits.timeLimit))
          wallTime := some (readDecimal (formatFixed 2 ic.applyHardLimits.wallTimeLimit))
          extraTime := none
          stack := some stack
          fileSize := some fileSize
          dirs := []
          env := [formatFixed 2 ic.applyHardLimits.extraTimeLimit] }
        (ic.dirMounts.map MountDir.argument) := by
  have number (o : IsolateOptions) {flag value : String} {rest : List String} {f : ℕ → IsolateOptions}
      (letter : ¬ "--dir=".toList <+: flag.toList) (set : o.setOption flag value = (readUnsigned value).map f) :
      o.read (flag :: value :: rest) = (readUnsigned value).bind fun n => (f n).read rest := by
    rw [read_flag letter, set, Option.bind_map]
    rfl
  have text (o : IsolateOptions) {flag value : String} {rest : List String} {next : IsolateOptions}
      (letter : ¬ "--dir=".toList <+: flag.toList) (set : o.setOption flag value = some next) :
      o.read (flag :: value :: rest) = next.read rest := by
    rw [read_flag letter, set, Option.bind_some]
  rw [IsolateConfig.toArgs]
  dsimp only [List.cons_append]
  rw [number empty (by decide) rfl]
  refine Option.bind_congr fun memory _ => ?_
  rw [text _ (by decide) rfl, text _ (by decide) rfl, text _ (by decide) rfl, number _ (by decide) rfl]
  refine Option.bind_congr fun stack _ => ?_
  rw [number _ (by decide) rfl]
  rfl

private theorem argument_rule (mount : MountDir) : "--dir=".toList <+: mount.argument.toList := by
  simp only [MountDir.argument, String.append_assoc, String.toList_append (s := "--dir=")]
  exact List.prefix_append _ _

/-- The mounts change nothing else. -/
theorem read_mounts_keeps {mounts : List MountDir} (read : o.read (mounts.map MountDir.argument) = some after) :
    ∃ dirs, after = { o with dirs } := by
  induction mounts generalizing o with
  | nil =>
    obtain rfl := Option.some.inj read
    exact ⟨o.dirs, rfl⟩
  | cons mount mounts ih =>
    rw [List.map_cons, read_dir (argument_rule mount)] at read
    obtain ⟨dir, _, read⟩ := Option.bind_eq_some_iff.mp read
    obtain ⟨dirs, same⟩ := ih read
    exact ⟨dirs, same⟩

/-- The extra time is not read, and a variable is. -/
theorem extraTime_read (read : empty.read ic.toArgs = some o) :
    o.extraTime = none ∧ o.env = [formatFixed 2 ic.applyHardLimits.extraTimeLimit] := by
  rw [read_toArgs] at read
  obtain ⟨memory, _, read⟩ := Option.bind_eq_some_iff.mp read
  obtain ⟨stack, _, read⟩ := Option.bind_eq_some_iff.mp read
  obtain ⟨fileSize, _, read⟩ := Option.bind_eq_some_iff.mp read
  obtain ⟨dirs, rfl⟩ := read_mounts_keeps read
  exact ⟨rfl, rfl⟩

/-- No configuration is read back. -/
theorem toArgs_not_read_back (ic : IsolateConfig) : ¬ ∃ o, empty.read ic.toArgs = some o ∧ ic.Encodes o := by
  rintro ⟨o, read, encodes⟩
  obtain ⟨seconds, found, _⟩ := encodes.extraTime
  rw [(extraTime_read read).1] at found
  contradiction

theorem default_not_read_back : ∃ o, empty.read newIsolateConfig.toArgs = some o ∧ o.extraTime = none ∧
    o.env = ["1.00"] ∧ ¬ newIsolateConfig.Encodes o := by
  have read : (empty.read newIsolateConfig.toArgs).map (fun o => (o.extraTime, o.env)) = some (none, ["1.00"]) := by
    decide +kernel
  obtain ⟨o, read, fields⟩ := Option.map_eq_some_iff.mp read
  obtain ⟨extraTime, env⟩ := Prod.mk.inj fields
  refine ⟨o, read, extraTime, env, fun encodes => ?_⟩
  rw [encodes.env] at env
  contradiction

/-- The names of a mount do not interfere with the grammar. -/
structure MountDir.Plain (mount : MountDir) : Prop where
  destination : '=' ∉ mount.destination.toList ∧ ':' ∉ mount.destination.toList
  source : ':' ∉ mount.source.toList

/-- The options of a mount, without their colons. -/
def MountDir.options (mount : MountDir) : List (List Char) :=
  (if mount.writable then ["rw".toList] else []) ++ if mount.noExecute then ["noexec".toList] else []

private theorem splitOn_rule {names : List Char} (plain : ':' ∉ names) (mount : MountDir) :
    (names ++ mount.options.flatMap (':' :: ·)).splitOn ':' = names :: mount.options := by
  have other : ∀ c ∈ names, (c == ':') = false := by
    intro c member
    rw [beq_eq_false_iff_ne]
    rintro rfl
    exact plain member
  rw [List.splitOn_eq_splitOnP]
  obtain ⟨source, destination, writable, noExecute⟩ := mount
  cases writable with
  | false =>
    cases noExecute with
    | false =>
      rw [MountDir.options, if_neg Bool.false_ne_true, if_neg Bool.false_ne_true, List.append_nil, List.flatMap_nil,
        List.append_nil]
      exact List.splitOnP_eq_singleton other
    | true => exact List.splitOnP_append_cons_of_forall_mem other ':' rfl _
  | true =>
    cases noExecute with
    | false => exact List.splitOnP_append_cons_of_forall_mem other ':' rfl _
    | true => exact List.splitOnP_append_cons_of_forall_mem other ':' rfl _

private theorem toList_argument (mount : MountDir) : mount.argument.toList =
    "--dir=".toList ++
      (mount.destination.toList ++ '=' :: mount.source.toList ++ mount.options.flatMap (':' :: ·)) := by
  obtain ⟨source, destination, writable, noExecute⟩ := mount
  cases writable <;> cases noExecute <;> simp [MountDir.argument, MountDir.options]

private theorem readDir_argument {mount : MountDir} (plain : mount.Plain) :
    readDir (mount.argument.toList.drop 6) = some mount := by
  have rule : mount.argument.toList.drop 6 =
      mount.destination.toList ++ '=' :: mount.source.toList ++ mount.options.flatMap (':' :: ·) := by
    rw [toList_argument]
    rfl
  have colon : ':' ∉ mount.destination.toList ++ '=' :: mount.source.toList := by
    simp [plain.destination.2, plain.source]
  have inside : ∀ c ∈ mount.destination.toList, decide (c ≠ '=') = true := by
    intro c member
    rw [decide_eq_true_eq]
    rintro rfl
    exact plain.destination.1 member
  rw [rule, readDir, splitOn_rule colon]
  dsimp only
  rw [if_pos (by simp), List.takeWhile_append_of_pos inside, List.dropWhile_append_of_pos inside]
  obtain ⟨source, destination, writable, noExecute⟩ := mount
  cases writable <;> cases noExecute <;> simp [MountDir.options, readDirOption]

private theorem read_mounts {mounts : List MountDir} (plain : ∀ mount ∈ mounts, mount.Plain) (o : IsolateOptions) :
    o.read (mounts.map MountDir.argument) = some { o with dirs := o.dirs ++ mounts } := by
  induction mounts generalizing o with
  | nil =>
    rw [List.append_nil]
    rfl
  | cons mount mounts ih =>
    obtain ⟨first, rest⟩ := List.forall_mem_cons.mp plain
    rw [List.map_cons, read_dir (argument_rule mount), readDir_argument first, Option.bind_some, ih rest,
      List.append_assoc]
    rfl

private theorem readsNumber_toString {n : ℤ} (nonneg : 0 ≤ n) : ReadsNumber n (readUnsigned (toString n)) := by
  obtain ⟨n, rfl⟩ := Int.eq_ofNat_of_zero_le nonneg
  have text : toString (n : ℤ) = toString n := rfl
  have digits : toString n ≠ "" ∧ (toString n).toList.all Char.isDigit := by
    refine ⟨fun none => ?_, List.all_eq_true.mpr fun c => Nat.isDigit_of_mem_toString⟩
    have nonempty : (toString n).toList ≠ [] := by
      rw [Nat.toList_toString]
      exact Nat.toDigits_ne_nil
    exact nonempty (by rw [none]; rfl)
  exact ⟨n, by rw [text, readUnsigned, if_pos digits, digitsValue_toString], rfl⟩

private theorem readsTime_formatFixed {q : ℚ} (nonneg : 0 ≤ q) :
    ReadsTime q (some (readDecimal (formatFixed 2 q))) := by
  have close := @readDecimal_formatFixed 2 (by decide) q nonneg
  norm_num at close
  exact ⟨_, rfl, by linarith⟩

/-- Plain mounts and limits that are not negative are read back, all but the extra time. -/
theorem read_toArgs_of_plain (plain : ∀ mount ∈ ic.dirMounts, mount.Plain) (memory : 0 ≤ ic.memoryLimit)
    (stack : 0 ≤ ic.stack) (fileSize : 0 ≤ ic.fileSizeLimit) (time : 0 ≤ ic.timeLimit)
    (wallTime : 0 ≤ ic.wallTimeLimit) :
    ∃ o, empty.read ic.toArgs = some o ∧
      ReadsNumber (min ic.memoryLimit hardLimits.memoryLimit) o.memory ∧
      ReadsTime (min ic.timeLimit hardLimits.timeLimit) o.time ∧
      ReadsTime (min ic.wallTimeLimit hardLimits.wallTimeLimit) o.wallTime ∧
      ReadsNumber (min ic.stack hardLimits.stack) o.stack ∧
      ReadsNumber (min ic.fileSizeLimit hardLimits.fileSizeLimit) o.fileSize ∧ o.dirs = ic.dirMounts := by
  obtain ⟨m, readMemory, isMemory⟩ := readsNumber_toString (le_min memory (by decide : 0 ≤ hardLimits.memoryLimit))
  obtain ⟨k, readStack, isStack⟩ := readsNumber_toString (le_min stack (by decide : 0 ≤ hardLimits.stack))
  obtain ⟨f, readFile, isFile⟩ := readsNumber_toString (le_min fileSize (by decide : 0 ≤ hardLimits.fileSizeLimit))
  have readMemory : readUnsigned (toString ic.applyHardLimits.memoryLimit) = some m := readMemory
  have readStack : readUnsigned (toString ic.applyHardLimits.stack) = some k := readStack
  have readFile : readUnsigned (toString ic.applyHardLimits.fileSizeLimit) = some f := readFile
  rw [read_toArgs, readMemory, readStack, readFile]
  refine ⟨_, read_mounts plain _, ⟨m, rfl, isMemory⟩, ?_, ?_, ⟨k, rfl, isStack⟩, ⟨f, rfl, isFile⟩, rfl⟩
  · exact readsTime_formatFixed (le_min time (by rw [hardLimits]; norm_num))
  · exact readsTime_formatFixed (le_min wallTime (by rw [hardLimits]; norm_num))

end JudgeSelf.Engine
