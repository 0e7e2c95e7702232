/-
**Decompressing one file.**

A job reads its whole source, decodes it, and only then opens its destination, so a source that cannot
be decoded leaves nothing behind. The destination is a file, standard output or nowhere. An output
directory or a stored name may take the place of the destination that was asked for.

Standard input is no terminal. So nobody is asked whether a file that exists may be replaced: unless that
is allowed from the start, the file is left as it is. The question, which needs a terminal on standard input
and a verbosity of two or more, is left out.

* `decompressFile`: a whole job;
* `readSource`, `writeDestination`: its two ends.
-/

import Inflate.Identity
import Inflate.Persistence
import Inflate.Preferences

namespace Inflate

open Text (decimal)

/-! ### Sources -/

/-- The name of standard input. -/
def standardInputName : String := "stdin"

/-- Whether a source is standard input. -/
def isStandardInput (source : String) : Bool := source == standardInputName || source == "-"

/-- The content of a source. -/
def readSource (source : String) : Task IoError Bytes := do
  if isStandardInput source then
    say 4 "Using stdin for input\n"
    takeInput
  else
    let files ← currentFiles
    if files.isDirectory source then
      say 1 (signed (source ++ " is a directory -- ignored"))
      throw ⟨.invalidInput, source ++ ": is a directory"⟩
    else match files.read source with
      | .ok content => return content
      | .error errno => throw (errno.about source)

/-- Decodes the content of a source. -/
def decodeSource (source : String) (content : Bytes) (preferences : Preferences) :
    Task IoError Decoded :=
  ExceptT.adapt (Failure.about source)
    (perform (attempt preferences.format content preferences.options))

/-! ### Destinations -/

/-- The name of standard output. -/
def standardOutputName : String := "stdout"

/-- The name of the destination that keeps nothing. -/
def nowhereName : String := "/dev/null"

/-- Where an output goes. -/
inductive Destination where
  | standardOutput
  | nowhere
  | file (path : String)
deriving DecidableEq, Repr

/-- The destination of a name. -/
def Destination.ofName (name : String) : Destination :=
  if name = standardOutputName then .standardOutput
  else if name = nowhereName then .nowhere
  else .file name

/-- The path of a destination that is a file. -/
def Destination.path? : Destination → Option String
  | file path => some path
  | _ => none

/-- Opens a destination for writing. A file that exists is only replaced if that is allowed. Gives
the location that is written to, if there is one. -/
def openDestination (destination : Destination) (overwrite : Bool) :
    Task IoError (Option Location) := do
  match destination with
  | .standardOutput =>
    say 4 "Using stdout for output\n"
    return none
  | .nowhere => return none
  | .file path =>
    let files ← currentFiles
    if !overwrite && files.pathExists path then
      say 1 (path ++ " already exists; not overwritten  \n")
      throw ⟨.alreadyExists, path ++ ": already exists; not overwritten"⟩
    else match files.create path with
      | .ok (created, location) =>
        setFiles created
        return location
      | .error errno => throw (errno.about path)

/-- Opens a destination and writes an output to it. -/
def writeDestination (destination : Destination) (overwrite : Bool) (data : Bytes) :
    Task IoError Unit := do
  let location ← openDestination destination overwrite
  match destination, location with
  | .standardOutput, _ => emit data
  | _, some location => setFiles ((← currentFiles).appendAt location data)
  | _, none => return ()

/-! ### Choosing the destination -/

/-- The directory that a stored name is used in: the one of the source. -/
def storedNameDirectory (source : String) : String :=
  if isStandardInput source then "." else Path.parent source

/-- The destination by the stored name, if there is one. -/
def storedDestination (source : String) (decoded : Decoded) : Except Failure (Option String) :=
  match decoded.storedName with
  | some stored => do return some (Path.join (storedNameDirectory source) (← Naming.safeName stored))
  | none => .ok none

/-- The name of the destination: a stored name that is to be used, unless standard output or nowhere
was asked for. -/
def chosenDestination (source destination : String) (decoded : Decoded)
    (preferences : Preferences) : Except Failure String :=
  match Destination.ofName destination with
  | .file _ =>
    if preferences.useStoredName then do
      return (← storedDestination source decoded).getD destination
    else .ok destination
  | _ => .ok destination

/-- Writes a decoded stream where it belongs, and gives the path of the file written. -/
def store (source destination : String) (decoded : Decoded) (preferences : Preferences) :
    Task IoError (Option String) := do
  if preferences.testMode then return none
  else match preferences.outputDirectory with
    | some directory => ExceptT.adapt (Failure.about source) do
      let name ← MonadExcept.ofExcept (Naming.outputName decoded)
      return some (← persistAt directory name decoded.data)
    | none =>
      let chosen ← ExceptT.adapt (Failure.about source)
        (MonadExcept.ofExcept (chosenDestination source destination decoded preferences))
      if !isStandardInput source && Path.same chosen source then
        throw ⟨.invalidInput, source ++ ": source and destination are the same file"⟩
      let target := Destination.ofName chosen
      writeDestination target preferences.overwrite decoded.data
      return target.path?

/-! ### After writing -/

/-- The time for the file written: the stored time if it is to be used, or that of the source. -/
def chosenTime (source : RegularFile) (decoded : Decoded) (preferences : Preferences) : Int :=
  let stored := if preferences.useStoredName then decoded.storedTime else none
  (stored.map Int.ofNat).getD source.mtime

/-- Gives the regular file written the time and the mode of its source. Without a source that is a file
nothing changes, and a failure is only remarked on. -/
def copyStatus (source path : String) (decoded : Decoded) (preferences : Preferences) :
    StateM World Unit := do
  let files ← currentFiles
  if isStandardInput source || (files.regular? path).isNone then return ()
  else match files.regular? source with
    | some (_, file) =>
      match files.setStatus path (chosenTime file decoded preferences) file.mode with
      | .ok changed => setFiles changed
      | .error error =>
        say 2 (signed (path ++ ": cannot copy file attributes: " ++ error.message))
    | none => return ()

/-- Removes the source of a job. -/
def removeSource (source : String) : Task IoError Unit := do
  match (← currentFiles).remove source with
  | .ok files => setFiles files
  | .error errno => throw (errno.about source)

/-- What a finished job reports: the container, both sizes and the file written. -/
structure Report where
  format : Format
  compressedSize : Nat
  size : Nat
  written : Option String
deriving DecidableEq, Repr

/-- The line that a finished job shows. -/
def finishedLine (source : String) (testMode : Bool) (size : Nat) : String :=
  Text.alignLeft 30 source ++ ": " ++ (if testMode then "OK," else "decoded") ++ " " ++
    decimal size ++ " bytes \n"

/-- Decompresses a source into a destination. The source is removed last. -/
def decompressFile (source destination : String) (preferences : Preferences) :
    Task IoError Report := do
  let content ← readSource source
  let decoded ← decodeSource source content preferences
  let written ← store source destination decoded preferences
  if let some path := written then copyStatus source path decoded preferences
  if preferences.removeSource && !preferences.testMode && !isStandardInput source then
    removeSource source
  say 2 (finishedLine source preferences.testMode decoded.data.length)
  return ⟨decoded.format, content.length, decoded.data.length, written⟩

end Inflate
