import JudgeSelf.Model.Engine.Arguments

/-! # The option grammar of isolate

What isolate takes from its arguments, by its manual: a single letter has its value in the next argument,
a directory rule has it after an equals sign. A later value of a limit replaces an earlier one. Other
options than those of `toArgs` and the one for extra time are left out.
-/

namespace JudgeSelf.Engine

open Go

structure IsolateOptions where
  /-- `-m`, in KB. -/
  memory : Option ℕ
  /-- `-t`, in seconds. -/
  time : Option ℚ
  /-- `-w` -/
  wallTime : Option ℚ
  /-- `-x` -/
  extraTime : Option ℚ
  /-- `-k`, in KB. -/
  stack : Option ℕ
  /-- `-f`, in KB. -/
  fileSize : Option ℕ
  /-- `--dir` -/
  dirs : List MountDir
  /-- `-E`: the variables that the program gets. -/
  env : List String
deriving DecidableEq

namespace IsolateOptions

def empty : IsolateOptions := ⟨none, none, none, none, none, none, [], []⟩

/-- A number without sign. -/
def readUnsigned (value : String) : Option ℕ :=
  if value ≠ "" ∧ value.toList.all Char.isDigit then some (digitsValue value.toList) else none

/-- One option after a directory rule. -/
def readDirOption (mount : MountDir) (option : List Char) : Option MountDir :=
  if option = "rw".toList then some { mount with writable := true }
  else if option = "noexec".toList then some { mount with noExecute := true }
  else none

/-- `inside=outside:option:option` -/
def readDir (rule : List Char) : Option MountDir :=
  match rule.splitOn ':' with
  | [] => none
  | names :: options =>
    if '=' ∈ names then
      options.foldlM readDirOption
        { source := String.ofList ((names.dropWhile (· ≠ '=')).drop 1)
          destination := String.ofList (names.takeWhile (· ≠ '='))
          writable := false
          noExecute := false }
    else none

/-- An option of one letter. -/
def setOption (o : IsolateOptions) (flag value : String) : Option IsolateOptions :=
  if flag = "-m" then (readUnsigned value).map fun n => { o with memory := some n }
  else if flag = "-t" then some { o with time := some (readDecimal value) }
  else if flag = "-w" then some { o with wallTime := some (readDecimal value) }
  else if flag = "-x" then some { o with extraTime := some (readDecimal value) }
  else if flag = "-k" then (readUnsigned value).map fun n => { o with stack := some n }
  else if flag = "-f" then (readUnsigned value).map fun n => { o with fileSize := some n }
  else if flag = "-E" then some { o with env := o.env ++ [value] }
  else none

/-- The arguments from left to right. -/
def read (o : IsolateOptions) : List String → Option IsolateOptions
  | [] => some o
  | arg :: rest =>
    if "--dir=".toList <+: arg.toList then
      (readDir (arg.toList.drop 6)).bind fun mount => { o with dirs := o.dirs ++ [mount] }.read rest
    else
      match rest with
      | [] => none
      | value :: rest => (o.setOption arg value).bind fun next => next.read rest

end IsolateOptions

end JudgeSelf.Engine
