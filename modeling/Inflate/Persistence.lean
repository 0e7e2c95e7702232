/-
**Writing an output into a directory.**

An output is first written to a temporary file in its directory and then moved onto its name in one
step, so that nobody ever sees a part of it under that name. The writing is a list of stages, each of
which may fail; a failure drops the temporary file.

* `Call.step`: what one stage does;
* `Call.remaining_step_lt`: every stage brings the writing closer to its end;
* `persist`, `decodeToDirectory`: writes bytes, or a decoded stream under the name it asks for;
* `persistAt`: writes bytes into a directory that the command line names.
-/

import Inflate.Container
import Inflate.Identity
import Inflate.Naming
import Inflate.World

namespace Inflate

namespace Persistence

/-- What the names of temporary files begin with. -/
def temporaryMark : String := "." ++ programName ++ "-"

/-- The name of a temporary file; such names are told apart by their lengths. -/
def temporaryName (n : Nat) : String := temporaryMark ++ String.ofList (List.replicate n '~')

/-- A name for a temporary file that nothing in the directory has. -/
def freshName (files : FileSystem) (directory : Location) : String :=
  let candidates := (List.range (files.entries.length + 1)).map temporaryName
  (candidates.find? fun name => (files.lookup (directory ++ [name])).isNone).getD temporaryMark

/-- The mode of a temporary file before it is granted the mode of a new file. -/
def temporaryMode : Nat := 0o600

/-- Why nothing is written into a directory that cannot be reached. -/
def unreachable (directory : String) : Errno → Failure
  | .noEntry => .notADirectory directory
  | errno => .io errno.toIoError

/-! ### Stages -/

/-- What is to be written: the parts of an output, under a name in a directory. -/
structure Call where
  directory : String
  name : String
  parts : List Bytes
deriving DecidableEq, Repr

/-- How far a writing has come. -/
inductive Stage where
  | checkDirectory
  | checkName
  | create
  | fill (temporary : Location) (rest : List Bytes)
  | synchronize (temporary : Location)
  | grant (temporary : Location)
  | rename (temporary : Location)
  | done
  | failed (failure : Failure)
deriving DecidableEq, Repr

/-- The temporary file of a writing that has one. -/
def Stage.temporary? : Stage → Option Location
  | fill temporary _ | synchronize temporary | grant temporary | rename temporary =>
    some temporary
  | _ => none

/-- A writing that failed at a stage: its temporary file is dropped. -/
def Stage.abandon (stage : Stage) (failure : Failure) (files : FileSystem) :
    FileSystem × Stage :=
  match stage.temporary? with
  | some temporary => (files.erase temporary, .failed failure)
  | none => (files, .failed failure)

namespace Call

/-- The path that is written to. -/
def path (call : Call) : String := Path.join call.directory call.name

/-- What one stage does to the files, and the stage after it. -/
def step (call : Call) (files : FileSystem) (stage : Stage) : FileSystem × Stage :=
  match stage with
  | .checkDirectory =>
    match files.status call.directory with
    | .ok (_, .directory) => (files, .checkName)
    | .ok _ => stage.abandon (.notADirectory call.directory) files
    | .error errno => stage.abandon (unreachable call.directory errno) files
  | .checkName =>
    if Path.fileName? call.name = some call.name then (files, .create)
    else stage.abandon (.invalidFileName call.name) files
  | .create =>
    match files.directory? call.directory with
    | some directory =>
      let temporary := directory ++ [freshName files directory]
      (files.put temporary (.file ⟨[], temporaryMode, files.clock⟩), .fill temporary call.parts)
    | none => stage.abandon (.io Errno.noEntry.toIoError) files
  | .fill temporary [] => (files, .synchronize temporary)
  | .fill temporary (part :: rest) => (files.appendAt temporary part, .fill temporary rest)
  | .synchronize temporary => (files, .grant temporary)
  | .grant temporary => (files.grantAt temporary FileSystem.newFileMode, .rename temporary)
  | .rename temporary =>
    match files.rename temporary call.path with
    | .ok renamed => (renamed, .done)
    | .error errno => stage.abandon (.io errno.toIoError) files
  | .done => (files, .done)
  | .failed failure => (files, .failed failure)

/-- A bound on the count of stages that are left. -/
def remaining (call : Call) : Stage → Nat
  | .checkDirectory => call.parts.length + 7
  | .checkName => call.parts.length + 6
  | .create => call.parts.length + 5
  | .fill _ rest => rest.length + 4
  | .synchronize _ => 3
  | .grant _ => 2
  | .rename _ => 1
  | .done => 0
  | .failed _ => 0

@[simp] theorem remaining_abandon (call : Call) (stage : Stage) (failure : Failure)
    (files : FileSystem) : call.remaining (stage.abandon failure files).2 = 0 := by
  unfold Stage.abandon
  split <;> rfl

/-- Every stage brings the writing closer to its end. -/
theorem remaining_step_lt (call : Call) (files : FileSystem) (stage : Stage)
    (unfinished : call.remaining stage ≠ 0) :
    call.remaining (call.step files stage).2 < call.remaining stage := by
  cases stage with
  | checkDirectory =>
    simp only [step]
    split
    · simp [remaining]
    all_goals rw [remaining_abandon]; simp [remaining]
  | checkName =>
    simp only [step]
    split
    · simp [remaining]
    · rw [remaining_abandon]; simp [remaining]
  | create =>
    simp only [step]
    split
    · simp [remaining]
    · rw [remaining_abandon]; simp [remaining]
  | fill temporary rest => cases rest <;> simp [step, remaining]
  | synchronize temporary => simp [step, remaining]
  | grant temporary => simp [step, remaining]
  | rename temporary =>
    simp only [step]
    split
    · simp [remaining]
    · rw [remaining_abandon]; simp [remaining]
  | done => exact absurd rfl unfinished
  | failed failure => exact absurd rfl unfinished

/-- Goes through the stages that are left. -/
def finish (call : Call) (files : FileSystem) (stage : Stage) : FileSystem × Stage :=
  if call.remaining stage = 0 then (files, stage)
  else
    let next := call.step files stage
    call.finish next.1 next.2
termination_by call.remaining stage
decreasing_by exact call.remaining_step_lt files stage ‹_›

end Call

end Persistence

/-! ### Whole outputs -/

open Persistence in
/-- Writes bytes under a name in a directory that exists, and gives their path. -/
def persist (directory name : String) (data : Bytes) : Task Failure String := do
  let call : Call := ⟨directory, name, [data]⟩
  let finished := call.finish (← currentFiles) .checkDirectory
  setFiles finished.1
  match finished.2 with
  | .failed failure => throw failure
  | _ =>
    say 4 ("persisted " ++ Text.decimal data.length ++ " bytes to " ++ call.path ++ "\n")
    return call.path

open Persistence in
/-- Writes bytes under a name in the directory that a word names. No directory is named by a word that
cannot be decoded. -/
def persistAt (directory : Word) (name : String) (data : Bytes) : Task Failure String := do
  match directory.text? with
  | some path => persist path name data
  | none =>
    let files ← currentFiles
    throw (unreachable directory.lossy
      (files.undecodable (String.ofList directory.chars) directory.tail))

/-- Decodes a byte string and writes the output into a directory. Nothing is written unless the whole
of it could be decoded. -/
def decodeToDirectory (format : Option Format) (input : Bytes) (directory : String) (options : Options) :
    Task Failure (Decoded × String) := do
  let decoded ← perform (attempt format input options)
  let name ← MonadExcept.ofExcept (Naming.outputName decoded)
  let path ← persist directory name decoded.data
  return (decoded, path)

end Inflate
