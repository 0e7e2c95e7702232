/-
**Results of decoding.**

A decoded stream is its output together with what its container said about it. An attempt is the
result of decoding, or the failure, and the notes made on the way, which are shown at high levels of
verbosity.
-/

import Inflate.Gzip.Header

namespace Inflate

open Text (decimal hex)

/-- The container of a compressed stream. -/
inductive Format where
  | zlib
  | gzip
deriving DecidableEq, Repr

/-- The name of a container. -/
def Format.name : Format → String
  | zlib => "zlib"
  | gzip => "gzip"

/-- The outcome of a successful decoding. The checksum is the one of the last trailer, the header
belongs to the first gzip member, and ignored bytes count as consumed. -/
structure Decoded where
  data : Bytes
  format : Format
  checksum : UInt32
  header : Option Gzip.Header
  consumed : Nat
deriving DecidableEq, Repr

/-- The name stored in the header. -/
def Decoded.storedName (decoded : Decoded) : Option String := decoded.header.bind (·.name)

/-- The time stored in the header, if there is one. -/
def Decoded.storedTime (decoded : Decoded) : Option Nat :=
  decoded.header.bind fun header =>
    if header.mtime = 0 then none else some header.mtime.toNat

/-! ### Notes -/

/-- A remark made while decoding. -/
inductive Note where
  | zlibWindow (windowSize level : Nat)
  | gzipMember (index size : Nat) (checksum : UInt32)
  | ignoredTrailing (format : Format) (count : Nat)
deriving DecidableEq, Repr

/-- The level of verbosity from which a note is shown. -/
def Note.level : Note → Nat
  | zlibWindow _ _ => 5
  | gzipMember _ _ _ => 5
  | ignoredTrailing _ _ => 4

/-- The line of a note. -/
def Note.text : Note → String
  | zlibWindow windowSize level =>
    "zlib: window " ++ decimal windowSize ++ " bytes, level hint " ++ decimal level ++ "\n"
  | gzipMember index size checksum =>
    "gzip: member " ++ decimal index ++ " (" ++ decimal size ++ " bytes, crc 0x" ++
      hex 8 checksum.toNat ++ ")\n"
  | ignoredTrailing format count =>
    format.name ++ ": ignoring " ++ decimal count ++ " trailing bytes\n"

/-- What came of decoding, and the notes made on the way. -/
structure Attempt where
  notes : List Note
  result : Except Failure Decoded

end Inflate
