/-
**The program on a real machine.**

The files that a command line names are looked up, the program runs on what was found, and the files
that it changed are written or removed. Modes and times of files are left to the machine.
-/

import Inflate.Program

namespace Inflate

open CommandLine

namespace Machine

/-- The absolute path of a location. -/
def pathOf (location : Location) : String := "/" ++ Path.ofSegments location

/-- The location of an absolute path. -/
def locationOf (path : String) : Location := (Path.segments path).filter (· != "")

/-- A file of which nothing is known. -/
def someFile : RegularFile := ⟨[], FileSystem.newFileMode, 0⟩

/-- What stands at a location, with all links followed, and the location that they lead to. -/
def observe (location : Location) : IO (Option (Location × Entry)) := do
  try
    let real ← IO.FS.realPath (pathOf location)
    let found ← real.metadata
    let entry := match found.type with
      | .dir => .directory
      | .file => .file someFile
      | _ => .nullDevice
    return some (locationOf real.toString, entry)
  catch _ => return none

/-- Adds an entry and the directories above it. -/
def addEntry (files : FileSystem) (location : Location) (entry : Entry) : FileSystem :=
  let above := (List.range location.length).map location.take
  (above.foldl (fun files parent => files.put parent .directory) files).put location entry

/-- Adds what is found on a walk along the segments of a path, and gives where the walk ended. -/
def walk (files : FileSystem) (location : Location) :
    List String → IO (FileSystem × Option Location)
  | [] => return (files, some location)
  | segment :: rest => do
    if segment = "" || segment = "." then walk files location rest
    else if segment = ".." then walk files location.dropLast rest
    else
      let next := location ++ [segment]
      match ← observe next with
      | none => return (files, none)
      | some (real, entry) =>
        let files := addEntry files real entry
        let files := if real = next then files else files.put next (.link (pathOf real))
        walk files real rest

/-- Adds what a path leads to. -/
def look (files : FileSystem) (path : String) : IO (FileSystem × Option Location) :=
  walk files (if Path.isAbsolute path then [] else files.home) (Path.segments path)

/-- A file that may be written to and not read. -/
def unreadableFile : RegularFile := { someFile with mode := 0o200 }

/-- Adds a source with its content, if it may be read. -/
def lookAtSource (files : FileSystem) (source : String) : IO FileSystem := do
  match ← look files source with
  | (files, some location) =>
    match files.lookup location with
    | some (.file file) =>
      try
        let content ← IO.FS.readBinFile (pathOf location)
        return files.put location (.file { file with content := content.toList })
      catch _ => return files.put location (.file unreadableFile)
    | _ => return files
  | (files, none) => return files

/-- Adds a directory with all that stands in it. -/
def lookAtDirectory (files : FileSystem) (path : String) : IO FileSystem := do
  match ← look files path with
  | (files, some location) =>
    try
      let inside ← (← IO.FS.realPath (pathOf location)).readDir
      inside.toList.foldlM (fun files entry => do return (← walk files location [entry.fileName]).1)
        files
    catch _ => return files
  | (files, none) => return files

/-- The directory that a path is in. -/
def directoryOf (path : String) : String :=
  let parent := Path.parent path
  if parent = "" then "." else parent

/-- The files that a command can read or write. -/
def snapshot (command : Command) : IO FileSystem := do
  let home := locationOf (← IO.currentDir).toString
  let clock ← IO.monoMsNow
  let empty := addEntry { entries := [], home, clock } home .directory
  let sources := command.input.toList ++ command.inputs
  let directories := "." :: (command.preferences.outputDirectory.bind Word.text?).toList ++
    (sources ++ command.output.toList).map directoryOf
  let files ← directories.foldlM lookAtDirectory empty
  let files ← command.output.toList.foldlM (fun files path => do return (← look files path).1) files
  (sources.filter (!isStandardInput ·)).foldlM lookAtSource files

/-- Whether a link stands at a location. -/
def isLink (files : FileSystem) (location : Location) : Bool :=
  match files.lookup location with
  | some (.link _) => true
  | _ => false

/-- Writes the files that changed and removes those that are gone. A file that has taken the place of
a link replaces it. -/
def commit (before after : FileSystem) : IO Unit := do
  for (location, entry) in after.entries do
    if before.lookup location != some entry then
      if let .file file := entry then
        if isLink before location then IO.FS.removeFile (pathOf location)
        IO.FS.writeBinFile (pathOf location) (ByteArray.mk file.content.toArray)
  for (location, _) in before.entries do
    if (after.lookup location).isNone then IO.FS.removeFile (pathOf location)

/-- Reads a stream to its end. -/
partial def readAll (stream : IO.FS.Stream) (read : ByteArray) : IO ByteArray := do
  let piece ← stream.read 65536
  if piece.isEmpty then return read else readAll stream (read ++ piece)

/-- Whether a command reads standard input. -/
def readsStandardInput (command : Command) : Bool :=
  if command.several then command.inputs.any isStandardInput
  else isStandardInput (command.input.getD standardInputName)

/-- The world that a command line is run in. -/
def prepare (environment : Environment) (words : List Word) : IO World := do
  let nothing : World := { files := { entries := [], home := [], clock := 0 }, console := {} }
  match (parse environment words).on nothing with
  | (.ok (some command), _) =>
    let input ←
      if readsStandardInput command then readAll (← IO.getStdin) ByteArray.empty
      else pure ByteArray.empty
    return { files := ← snapshot command, console := { input := input.toList } }
  | _ => return nothing

end Machine

end Inflate

open Inflate in
/-- Runs the program with the arguments and the environment of the process. -/
def main (arguments : List String) : IO UInt32 := do
  let environment : CommandLine.Environment := {
    maxOutput := ← IO.getEnv CommandLine.Environment.maxOutputName
    workers := ← IO.getEnv CommandLine.Environment.workersName }
  let words := arguments.map Word.ofString
  let world ← Machine.prepare environment words
  let (status, after) := (Program.run environment words).run world
  Machine.commit world.files after.files
  (← IO.getStdout).write (ByteArray.mk after.console.output.toArray)
  (← IO.getStderr).putStr after.console.remarks
  return status.toUInt32
