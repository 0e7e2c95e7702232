/-
**Defaults from the environment.**

Two variables give the limit on the size of an output and the count of workers. A value that cannot be
read is remarked on and has no effect.

* `Environment.limit`, `Environment.workers`: the defaults.
-/

import Inflate.CommandLine.Size
import Inflate.World

namespace Inflate

namespace CommandLine

/-- The variables that are read, and the count of workers that suits the host. -/
structure Environment where
  maxOutput : Option String := none
  workers : Option String := none
  hostWorkers : Nat := 1
deriving DecidableEq, Repr

namespace Environment

/-- The variable with the limit on the size of an output. -/
def maxOutputName : String := "RZLIB_MAX_OUTPUT"

/-- The variable with the count of workers. -/
def workersName : String := "RZLIB_NBWORKERS"

/-- The count of workers without the variable. -/
def usualWorkers : Nat := 1

/-- What a remark on a variable begins with. -/
def ignoring (name : String) : String := "Ignore environment variable setting " ++ name

/-- The limit that a variable gives. -/
def limitOf : Option String → StateM World (Option Nat)
  | none => return none
  | some text =>
    match parseSize text with
    | .ok limit => return some limit
    | .error fault => do
      say 2 (ignoring maxOutputName ++ ": " ++ fault.message ++ "\n")
      return none

/-- The count of workers that a variable gives. -/
def workersOf : Option String → StateM World Nat
  | none => return usualWorkers
  | some text =>
    match parseSize text with
    | .ok count => return count
    | .error _ => do
      say 2 (ignoring workersName ++ "=" ++ text ++ ": not a valid unsigned value \n")
      return usualWorkers

/-- The limit on the size of an output. -/
def limit (environment : Environment) : StateM World (Option Nat) :=
  limitOf environment.maxOutput

/-- The count of workers; zero asks for the one that suits the host. -/
def workerCount (environment : Environment) : StateM World Nat := workersOf environment.workers

end Environment

end CommandLine

end Inflate
