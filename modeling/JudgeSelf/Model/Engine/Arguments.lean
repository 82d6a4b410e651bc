import JudgeSelf.Model.Engine.Worker

/-! # The arguments of isolate

Model of `toArgs`.
-/

namespace JudgeSelf.Engine

open Go

def MountDir.argument (mount : MountDir) : String :=
  "--dir=" ++ mount.destination ++ "=" ++ mount.source ++ (if mount.writable then ":rw" else "") ++
    (if mount.noExecute then ":noexec" else "")

def IsolateConfig.toArgs (ic : IsolateConfig) : List String :=
  let ic := ic.applyHardLimits
  ["-m", toString ic.memoryLimit, "-t", formatFixed 2 ic.timeLimit, "-w", formatFixed 2 ic.wallTimeLimit,
    "-E", formatFixed 2 ic.extraTimeLimit, "-k", toString ic.stack, "-f", toString ic.fileSizeLimit] ++
    ic.dirMounts.map MountDir.argument

/-- The value of an option. -/
def argument? (option : String) : List String → Option String
  | flag :: value :: rest => if flag = option then some value else argument? option rest
  | _ => none

theorem memory_toArgs (ic : IsolateConfig) :
    argument? "-m" ic.toArgs = some (toString (min ic.memoryLimit hardLimits.memoryLimit)) := rfl

theorem time_toArgs (ic : IsolateConfig) :
    argument? "-t" ic.toArgs = some (formatFixed 2 (min ic.timeLimit hardLimits.timeLimit)) := rfl

end JudgeSelf.Engine
