/-
**Commands.**

A command is a command line that is understood: what is to be done, with which files, and how. A
dash stands for standard input or standard output, and has the name of it in a command.

* `Command.ofDraft`: puts options together, with defaults from the environment;
* `parse`: a whole command line. Help and the version are shown at once and leave nothing to be done.
-/

import Inflate.CommandLine.Environment
import Inflate.CommandLine.Help
import Inflate.CommandLine.Reading
import Inflate.Job

namespace Inflate

namespace CommandLine

/-- What is done with the inputs. -/
inductive Mode where
  | decompress
  | test
  | list
deriving DecidableEq, Repr

/-- A command line that is understood. With several inputs they are all in `inputs`, and otherwise
there is at most one, in `input`. -/
structure Command where
  preferences : Preferences := {}
  mode : Mode := .decompress
  toStandardOutput : Bool := false
  several : Bool := false
  input : Option String := none
  output : Option String := none
  inputs : List String := []
  verbosity : Nat := 0
deriving DecidableEq, Repr

/-- The mode that the flags ask for. -/
def Draft.mode (draft : Draft) : Mode :=
  if draft.has .list then .list else if draft.has .test then .test else .decompress

/-- The verbosity that the counters ask for. -/
def Draft.verbosity (draft : Draft) : Nat := usualVerbosity + draft.verbose - draft.quiet

/-- Whether all files are inputs. -/
def Draft.several (draft : Draft) : Bool :=
  draft.has .multiple || (draft.mode == .list && decide (1 < draft.files.length))

/-- A name, with another one in place of a dash. -/
def inPlaceOfDash (name file : String) : String := if file = "-" then name else file

namespace Command

/-- The preferences that the options and the environment ask for. -/
def preferencesOf (environment : Environment) (draft : Draft) : StateM World Preferences := do
  let maxOutput ← match draft.maxOutput with
    | some limit => pure (some limit)
    | none => environment.limit
  let workers ← match draft.threads with
    | some count => pure count
    | none => environment.workerCount
  let preferences : Preferences := {
    overwrite := draft.has .force
    testMode := draft.mode == .test
    removeSource := draft.has .remove && !draft.has .keep
    useStoredName := draft.has .storedName
    format := draft.format.getD none
    options := { maxOutput, allowTrailing := draft.has .allowTrailing }
    outputDirectory := draft.outputDirectory }
  preferences.withWorkers environment.hostWorkers workers

/-- The output of a command that has been given the names of its files. -/
def outputOf (toStandardOutput : Bool) (name : Option String) :
    Except UsageFault (Option String) :=
  match toStandardOutput, name with
  | true, some _ => .error .standardOutputAndName
  | true, none => .ok (some standardOutputName)
  | false, name => .ok (name.map (inPlaceOfDash standardOutputName))

/-- A command with its files. -/
def withFiles (command : Command) (files : List String) : Except UsageFault Command :=
  if command.several then
    .ok { command with
      inputs := files.map (inPlaceOfDash standardInputName)
      output := if command.toStandardOutput then some standardOutputName else none }
  else
    match files with
    | [] => do
      return { command with output := ← outputOf command.toStandardOutput none }
    | [input] => do
      return { command with
        input := some (inPlaceOfDash standardInputName input)
        output := ← outputOf command.toStandardOutput none }
    | [input, output] => do
      return { command with
        input := some (inPlaceOfDash standardInputName input)
        output := ← outputOf command.toStandardOutput (some output) }
    | _ :: _ :: extra :: _ => .error (.unexpectedFile extra)

/-- Puts options together. -/
def ofDraft (environment : Environment) (draft : Draft) : Task UsageFault Command := do
  if draft.has .recursive then throw .recursionUnsupported
  if draft.has .standardOutput && draft.outputDirectory.isSome then
    throw .standardOutputAndDirectory
  let preferences ← preferencesOf environment draft
  let command : Command := {
    preferences
    mode := draft.mode
    toStandardOutput := draft.has .standardOutput
    several := draft.several
    verbosity := draft.verbosity }
  MonadExcept.ofExcept (command.withFiles draft.files)

end Command

/-! ### Whole command lines -/

/-- Understands a command line. There is no command if help or the version was asked for. -/
def parse (environment : Environment) (words : List Word) : Task UsageFault (Option Command) := do
  match readWords words with
  | .ok draft => return some (← Command.ofDraft environment draft)
  | .error (.fault fault) => throw (.words fault)
  | .error (.help long) =>
    emitText (if long then Help.long else Help.short)
    return none
  | .error .version =>
    emitText Help.versionLine
    return none

end CommandLine

end Inflate
