/-
**Operations on files.**

What the program asks of the file system: the status of a path, the content of a file, a file opened
for writing and emptied, a file moved or removed, a time and a mode set, and the regular files below
a directory.
-/

import Inflate.FileSystem.Resolve

namespace Inflate

namespace FileSystem

/-! ### Status -/

/-- The entry that a path leads to, all links followed, and its location. -/
def status (files : FileSystem) (path : String) : Except Errno (Location × Entry) := do
  match ← files.resolve path .reading with
  | .entry location =>
    match files.lookup location with
    | some entry => .ok (location, entry)
    | none => .error .noEntry
  | .missing _ _ => .error .noEntry

/-- Whether a path leads to anything. -/
def pathExists (files : FileSystem) (path : String) : Bool := (files.status path).isOk

/-- The directory that a path leads to, if it leads to one. -/
def directory? (files : FileSystem) (path : String) : Option Location :=
  match files.status path with
  | .ok (location, .directory) => some location
  | _ => none

/-- Whether a path leads to a directory. -/
def isDirectory (files : FileSystem) (path : String) : Bool := (files.directory? path).isSome

/-- The regular file that a path leads to, if it leads to one, and its location. -/
def regular? (files : FileSystem) (path : String) : Option (Location × RegularFile) :=
  match files.status path with
  | .ok (location, .file file) => some (location, file)
  | _ => none

/-! ### Reading and writing -/

/-- The content of a file that may be read. -/
def read (files : FileSystem) (path : String) : Except Errno Bytes := do
  match ← files.status path with
  | (_, .file file) => if file.isReadable then .ok file.content else .error .permissionDenied
  | (_, .nullDevice) => .ok []
  | (_, _) => .error .isDirectory

/-- The mode of a new file. -/
def newFileMode : Nat := 0o644

/-- The mode of a file after somebody has written to it. Who runs the file no longer does so as its
owner, nor as its group where the group may run it. -/
def modeAfterWriting (mode : Nat) : Nat :=
  mode &&& (if mode.testBit 3 then 0o1777 else 0o3777)

/-- Opens a file for writing and empties it, if it may be written to. A file that is not there is
created. Gives the location that is written to, if there is one. -/
def create (files : FileSystem) (path : String) : Except Errno (FileSystem × Option Location) := do
  match ← files.resolve path .writing with
  | .missing _ true => .error .isDirectory
  | .missing location false =>
    .ok (files.put location (.file ⟨[], newFileMode, files.clock⟩), some location)
  | .entry location =>
    match files.lookup location with
    | some (.file file) =>
      let emptied : RegularFile := ⟨[], modeAfterWriting file.mode, files.clock⟩
      if file.isWritable then .ok (files.put location (.file emptied), some location)
      else .error .permissionDenied
    | some .nullDevice => .ok (files, none)
    | _ => .error .isDirectory

/-- Adds bytes at the end of the regular file at a location. -/
def appendAt (files : FileSystem) (location : Location) (data : Bytes) : FileSystem :=
  match files.lookup location with
  | some (.file file) =>
    files.put location (.file { file with content := file.content ++ data, mtime := files.clock })
  | _ => files

/-- Sets the mode of the regular file at a location. -/
def grantAt (files : FileSystem) (location : Location) (mode : Nat) : FileSystem :=
  match files.lookup location with
  | some (.file file) => files.put location (.file { file with mode })
  | _ => files

/-- Moves the entry at one location to another, in place of what was there. -/
def move (files : FileSystem) (source target : Location) : FileSystem :=
  match files.lookup source with
  | some entry => (files.erase source).put target entry
  | none => files

/-- Moves the entry at a location to a path in one step. What the path names is replaced, unless it
is a directory; a link is replaced and not followed. The step takes a path with a NUL for an invalid
argument. -/
def rename (files : FileSystem) (source : Location) (path : String) :
    Except Errno FileSystem :=
  match files.resolve path .naming with
  | .error .nulInPath => .error .invalidArgument
  | .error errno => .error errno
  | .ok (.missing _ true) => .error .notDirectory
  | .ok (.missing location false) => .ok (files.move source location)
  | .ok (.entry location) =>
    if files.isDirectoryAt location then .error .isDirectory
    else .ok (files.move source location)

/-- Removes a file or a link. -/
def remove (files : FileSystem) (path : String) : Except Errno FileSystem := do
  match ← files.resolve path .naming with
  | .missing _ _ => .error .noEntry
  | .entry location =>
    if files.isDirectoryAt location then .error .isDirectory else .ok (files.erase location)

/-- The bits of a mode that can be set. -/
def modeBits (mode : Nat) : Nat := mode % 0o10000

/-- The error of setting the status of what is no regular file. -/
def notRegular : IoError := ⟨.invalidInput, "set_file_stat: not a regular file"⟩

/-- Sets the time and the mode of the regular file that a path leads to. The file is opened for
reading to do so. -/
def setStatus (files : FileSystem) (path : String) (mtime : Int) (mode : Nat) :
    Except IoError FileSystem :=
  match files.regular? path with
  | some (location, file) =>
    if file.isReadable then
      .ok (files.put location (.file { file with mtime, mode := modeBits mode }))
    else .error Errno.permissionDenied.toIoError
  | none => .error notRegular

/-! ### Files below a directory -/

/-- The names in a directory, in the order of their bytes. -/
def names (files : FileSystem) (location : Location) : List String :=
  let inside := files.entries.filterMap fun entry =>
    if entry.1.dropLast = location then entry.1.getLast? else none
  inside.mergeSort fun first second => !(second < first)

/-- The paths of the regular files below a directory, each directory in the order of its names. Links
are not followed. A tree of no more than `depth` levels is listed to its end. -/
def filesBelow (files : FileSystem) : Nat → Location → String → List String
  | 0, _, _ => []
  | depth + 1, location, path =>
    (files.names location).flatMap fun name =>
      let next := location ++ [name]
      let below := Path.join path name
      match files.lookup next with
      | some .directory => files.filesBelow depth next below
      | some (.file _) => [below]
      | _ => []

/-- The greatest count of names in a location. -/
def depth (files : FileSystem) : Nat :=
  files.entries.foldl (fun greatest entry => max greatest entry.1.length) 0

/-- The files that a list of paths stands for: a directory stands for the regular files below it that
pass the filter, and any other path for itself. -/
def expand (files : FileSystem) (keep : String → Bool) (paths : List String) : List String :=
  paths.flatMap fun path =>
    match files.directory? path with
    | some location => (files.filesBelow (files.depth + 1) location path).filter keep
    | none => [path]

end FileSystem

end Inflate
