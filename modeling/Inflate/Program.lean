/-
**The program.**

The program understands its command line and lists, tests or decompresses what it names. It ends with
status 0 if all went well and with status 1 otherwise.

As everywhere, standard input and standard output are no terminals. The two refusals that depend on a
terminal are left out: to read from a console, and to write to one unless standard output was asked for.

* `Program.execute`: carries out a command;
* `Program.run`: the whole program.
-/

import Inflate.Batch
import Inflate.CommandLine.Command
import Inflate.Listing

namespace Inflate

open CommandLine

namespace Program

/-- The text of an error on files, as the cause of a failure of the program. -/
def ioText (error : IoError) : String := error.message

/-- Remarks that would only say that things are done as usual are left out when standard output
takes the data or when there are several inputs. -/
def lowerVerbosity : StateM World Unit := do
  if (← currentVerbosity) = usualVerbosity then setVerbosity 1

/-- Lists the inputs of a command. -/
def list (command : Command) : Task String Unit := do
  let sources :=
    if command.several then command.inputs else [command.input.getD standardInputName]
  ExceptT.adapt (fun _ => "some files could not be listed")
    (Listing.run sources command.preferences)

/-- The output that a command names: nowhere, if it only tests. -/
def namedOutput (command : Command) : Option String :=
  if command.mode = .test then some nowhereName else command.output

/-- Decompresses several inputs. -/
def decompressAll (command : Command) : Task String Unit := do
  if command.inputs.isEmpty then throw "no input files"
  lowerVerbosity
  ExceptT.adapt ioText (Batch.run command.inputs (namedOutput command) command.preferences)

/-- The output of a command with one input. Without a name it is standard output for standard input,
and otherwise the input without its suffix, unless there is an output directory. -/
def chosenOutput (command : Command) (input : String) : Task String String := do
  match namedOutput command with
  | some name => return name
  | none =>
    if command.preferences.outputDirectory.isSome then return nowhereName
    else if input = standardInputName then return standardOutputName
    else match Naming.derivedName input with
      | some derived =>
        say 3 ("Decoding file " ++ derived ++ " \n")
        return derived
      | none => throw (input ++ ": cannot determine an output filename")

/-- Decompresses one input. -/
def decompressOne (command : Command) : Task String Unit := do
  let input := command.input.getD standardInputName
  let output ← chosenOutput command input
  if output = standardOutputName then lowerVerbosity
  let _ ← ExceptT.adapt ioText (decompressFile input output command.preferences)

/-- Carries out a command. -/
def execute (command : Command) : Task String Unit := do
  say 3 welcome
  say 4 (command.preferences.summary ++ "\n")
  if command.mode = .list then list command
  else if command.several then decompressAll command
  else decompressOne command

/-- The program: gives its status. The verbosity is the usual one until the command line is
understood. -/
def run (environment : Environment) (words : List Word) : StateM World Nat := do
  setVerbosity usualVerbosity
  match ← (parse environment words).run with
  | .error fault =>
    say 0 (signed fault.message)
    return 1
  | .ok none => return 0
  | .ok (some command) =>
    setVerbosity command.verbosity
    match ← (execute command).run with
    | .ok () => return 0
    | .error message =>
      say 1 (signed message)
      return 1

end Program

end Inflate
