/-
**Finding and opening containers.**

A gzip file begins with two fixed bytes, and a zlib stream with a valid header. The two cannot be
confused, since the first of the fixed bytes names a method that zlib does not have.

* `detect`: the container that a byte string begins with;
* `attempt`: decodes a byte string, in a given container or in the one found.
-/

import Inflate.Gzip.Members
import Inflate.Zlib.Stream

namespace Inflate

/-- The container that a byte string begins with. -/
def detect (input : Bytes) : Option Format :=
  if Gzip.magic.isPrefixOf input then some .gzip
  else match Zlib.Header.parse input with
    | .ok _ => some .zlib
    | .error _ => none

/-- Decodes a byte string in a given container. -/
def attemptAs (format : Format) (input : Bytes) (options : Options) : Attempt :=
  match format with
  | .zlib => Zlib.attempt input options
  | .gzip => Gzip.attempt input options

/-- Decodes a byte string in the container found. -/
def attemptFound (input : Bytes) (options : Options) : Attempt :=
  if input.length < 2 then ⟨[], .error .truncated⟩
  else match detect input with
    | some format => attemptAs format input options
    | none => ⟨[], .error (.badHeader .unknownContainer)⟩

/-- Decodes a byte string in the given container or, without one, in the container found. -/
def attempt (format : Option Format) (input : Bytes) (options : Options) : Attempt :=
  match format with
  | some format => attemptAs format input options
  | none => attemptFound input options

/-- Decodes a byte string in the given container or, without one, in the container found. -/
def decode (format : Option Format) (input : Bytes) (options : Options) : Except Failure Decoded :=
  (attempt format input options).result

end Inflate
