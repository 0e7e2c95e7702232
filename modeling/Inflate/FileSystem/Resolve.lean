/-
**From paths to locations.**

A path is walked segment by segment from the root or from the working directory. Every segment but
the last must lead to a directory. Symbolic links are followed on the way, up to a fixed count of
them; the last one is followed or not, as the operation wants. A file to be written cannot have a slash
after its name, whatever that name leads to.

* `FileSystem.resolve`: the location that a path leads to, or where it would be;
* `FileSystem.undecodable`: why a path that is no text leads nowhere.
-/

import Inflate.Failure
import Inflate.FileSystem.Path
import Inflate.FileSystem.Tree
import Inflate.Text.Word

namespace Inflate

/-- Why an operation of the file system fails. -/
inductive Errno where
  | noEntry
  | permissionDenied
  | notDirectory
  | isDirectory
  | nameTooLong
  | tooManyLinks
  | invalidArgument
  | nulInPath
deriving DecidableEq, Repr

/-- The class of an error. -/
def Errno.kind : Errno → IoErrorKind
  | noEntry => .notFound
  | permissionDenied => .permissionDenied
  | notDirectory => .notADirectory
  | isDirectory => .isADirectory
  | nameTooLong => .invalidFilename
  | tooManyLinks => .filesystemLoop
  | invalidArgument => .invalidInput
  | nulInPath => .invalidInput

/-- The text of an error. -/
def Errno.message : Errno → String
  | noEntry => "No such file or directory (os error 2)"
  | permissionDenied => "Permission denied (os error 13)"
  | notDirectory => "Not a directory (os error 20)"
  | isDirectory => "Is a directory (os error 21)"
  | nameTooLong => "File name too long (os error 36)"
  | tooManyLinks => "Too many levels of symbolic links (os error 40)"
  | invalidArgument => "Invalid argument (os error 22)"
  | nulInPath => "file name contained an unexpected NUL byte"

/-- The error as one on files. -/
def Errno.toIoError (errno : Errno) : IoError := ⟨errno.kind, errno.message⟩

/-- The error on a named file. -/
def Errno.about (path : String) (errno : Errno) : IoError :=
  ⟨errno.kind, path ++ ": " ++ errno.message⟩

/-- Where a path leads: to an entry, or to a location that has none in a directory that exists. In
the second case a slash may follow the name. -/
inductive Target where
  | entry (location : Location)
  | missing (location : Location) (slash : Bool)
deriving DecidableEq, Repr

/-- What a path is resolved for: the entry that it names, be it a link, the entry that it leads to over
all links, or a file to be written there. -/
inductive Purpose where
  | naming
  | reading
  | writing
deriving DecidableEq, Repr

namespace FileSystem

/-- The greatest count of bytes of a name. -/
def maxNameSize : Nat := 255

/-- The greatest count of bytes of a path. -/
def maxPathSize : Nat := 4095

/-- How many symbolic links a path may lead over. -/
def maxLinks : Nat := 40

/-- Whether nothing but slashes follows a segment, and at least one. -/
def endsInSlash (rest : List String) : Bool := !rest.isEmpty && rest.all (· == "")

/-- Walks the segments of a path from a location. -/
def walk (files : FileSystem) (purpose : Purpose) (links : Nat) (location : Location)
    (segments : List String) : Except Errno Target :=
  match segments with
  | [] => .ok (.entry location)
  | segment :: rest =>
    if !files.isDirectoryAt location then .error .notDirectory
    else if segment = "" ∨ segment = "." then files.walk purpose links location rest
    else if segment = ".." then files.walk purpose links location.dropLast rest
    else if purpose = .writing ∧ endsInSlash rest then .error .isDirectory
    else if maxNameSize < segment.utf8ByteSize then .error .nameTooLong
    else
      let next := location ++ [segment]
      match files.lookup next with
      | none =>
        if rest.isEmpty ∨ endsInSlash rest then .ok (.missing next (endsInSlash rest))
        else .error .noEntry
      | some (.link target) =>
        if rest.isEmpty ∧ purpose = .naming then .ok (.entry next)
        else match links with
          | 0 => .error .tooManyLinks
          | links + 1 =>
            files.walk purpose links (if Path.isAbsolute target then [] else location)
              (Path.segments target ++ rest)
      | some _ => files.walk purpose links next rest
termination_by (links, segments.length)

/-- Where the walk along a path begins. -/
def origin (files : FileSystem) (path : String) : Location :=
  if Path.isAbsolute path then [] else files.home

/-- The location that a path leads to, or where it would be. -/
def resolve (files : FileSystem) (path : String) (purpose : Purpose) : Except Errno Target :=
  if path.toList.contains '\x00' then .error .nulInPath
  else if path = "" then .error .noEntry
  else if maxPathSize < path.utf8ByteSize then .error .nameTooLong
  else files.walk purpose maxLinks (files.origin path) (Path.segments path)

/-- The bytes at the front of an undecodable rest that are still of the same name. -/
def undecodableName (tail : Bytes) : Bytes := tail.takeWhile (· != '/'.toUInt8)

/-- Why a path that ends in undecodable bytes leads nowhere. Names are texts, so the walk ends at the
first of those bytes at the latest: before it, or because no name has it. -/
def undecodable (files : FileSystem) (path : String) (tail : Bytes) : Errno :=
  if path.toList.contains '\x00' ∨ tail.contains 0 then .nulInPath
  else if maxPathSize < path.utf8ByteSize + tail.length then .nameTooLong
  else
    let segments := Path.segments path
    match files.walk .reading maxLinks (files.origin path) (segments.dropLast ++ ["."]) with
    | .error errno => errno
    | .ok _ =>
      let size := (segments.getLastD "").utf8ByteSize + (undecodableName tail).length
      if maxNameSize < size then .nameTooLong else .noEntry

end FileSystem

end Inflate
