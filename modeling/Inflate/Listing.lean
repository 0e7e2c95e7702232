/-
**Listing compressed files.**

Every source is decoded as a whole, since only that tells the size of its output, and is then listed
in one row of a table: container, both sizes, their ratio and the last part of its name. The fields of
its header follow at high verbosity. Sources that cannot be decoded are remarked on and left out.

* `Listing.describe`: what is known of one source;
* `Listing.human`: a size with a unit;
* `Listing.run`: the whole table.
-/

import Inflate.Job
import Inflate.Text.Fixed

namespace Inflate

open Text (decimal hex alignLeft alignRight)

namespace Listing

/-- What is known of a compressed file. -/
structure Description where
  name : String
  format : Format
  compressedSize : Nat
  size : Nat
  checksum : UInt32
  header : Option Gzip.Header
deriving DecidableEq, Repr

/-- Decodes a source and describes it. -/
def describe (source : String) (preferences : Preferences) : Task IoError Description := do
  let content ← readSource source
  let decoded ← decodeSource source content preferences
  return {
    name := Naming.lastName source
    format := decoded.format
    compressedSize := content.length
    size := decoded.data.length
    checksum := decoded.checksum
    header := decoded.header }

/-! ### Sizes and ratios -/

/-- The units of sizes, each 1024 times the one before. -/
def units : List String := ["", "K", "M", "G", "T", "P", "E"]

/-- A size in the first of the given units that keeps it below 1024, or else in the last one. The
first unit stands for `scale` bytes. -/
def humanIn (size scale : Nat) : List String → String
  | [] => decimal size
  | [unit] => Text.fixed 2 size scale ++ unit
  | unit :: rest =>
    if size < 1024 * scale then Text.fixed 2 size scale ++ unit
    else humanIn size (1024 * scale) rest

/-- A size with two decimal places and a unit. -/
def human (size : Nat) : String := humanIn size 1 units

/-- The compressed size as a percentage of the size of the output, if that is not empty. -/
def Description.ratio (description : Description) : Option Float :=
  if description.size = 0 then none
  else some (Float.ofNat description.compressedSize / Float.ofNat description.size * 100.0)

/-! ### The table -/

/-- The head of the table. -/
def head : String :=
  alignRight 6 "Format" ++ " " ++ alignRight 11 "Compressed" ++ " " ++
    alignRight 13 "Uncompressed" ++ " " ++ alignRight 8 "Ratio" ++ "   Filename\n"

/-- The column of ratios. -/
def ratioCell (description : Description) : String :=
  match description.ratio with
  | some ratio => alignRight 7 (Text.fixedBinary64 2 ratio) ++ "%"
  | none => alignRight 8 "-"

/-- The row of a source. -/
def row (description : Description) : String :=
  alignRight 6 description.format.name ++ " " ++
    alignRight 11 (human description.compressedSize) ++ " " ++
    alignRight 13 (human description.size) ++ " " ++ ratioCell description ++ "   " ++
    description.name ++ "\n"

/-- The names of operating systems in gzip headers, by their numbers from zero on. -/
def systems : List String :=
  ["FAT", "Amiga", "VMS", "Unix", "VM/CMS", "Atari TOS", "HPFS", "Macintosh", "Z-System", "CP/M",
    "TOPS-20", "NTFS", "QDOS", "Acorn RISCOS"]

/-- The name of an operating system in a gzip header. -/
def systemName (os : UInt8) : String := systems.getD os.toNat "unknown"

/-- The fields of a gzip header that are shown, with their titles. -/
def headerFields (header : Gzip.Header) : List (String × String) :=
  [("os", systemName header.os), ("mtime", decimal header.mtime.toNat)] ++
    (header.name.map fun name => ("stored name", name)).toList ++
    (header.comment.map fun comment => ("comment", comment)).toList ++
    (header.extra.map fun extra => ("extra field", decimal extra.length ++ " bytes")).toList ++
    (if header.isText then [("text", "yes")] else [])

/-- The lines below the row of a source. -/
def details (description : Description) : String :=
  let fields := ("checksum", hex 8 description.checksum.toNat) ::
    (description.header.map headerFields).getD []
  String.join (fields.map fun field => "    " ++ alignLeft 12 field.1 ++ " " ++ field.2 ++ "\n")

/-- Lists one source. A failure is remarked on. -/
def listSource (preferences : Preferences) (source : String) :
    StateM World (Except IoError Description) := do
  let result ← (describe source preferences).run
  match result with
  | .ok description =>
    emitText (row description)
    if 3 ≤ (← currentVerbosity) then emitText (details description)
  | .error error => say 1 (signed error.message)
  return result

/-- Lists sources one after the other. -/
def listSources (preferences : Preferences) (sources : List String) :
    StateM World (List (Except IoError Description)) :=
  sources.mapM (listSource preferences)

/-- The first error among results. -/
def firstError? (results : List (Except IoError Description)) : Option IoError :=
  results.findSome? fun result =>
    match result with
    | .error error => some error
    | .ok _ => none

/-- Lists sources. Fails with the first error, after all of them were listed. -/
def run (sources : List String) (preferences : Preferences) : Task IoError Unit := do
  emitText head
  let results ← listSources preferences sources
  if let some error := firstError? results then throw error

end Listing

end Inflate
