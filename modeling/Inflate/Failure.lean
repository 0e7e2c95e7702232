/-
**Causes of failure.**

A `Failure` says why a stream could not be decoded or its output could not be persisted. Failures
fall into three kinds, each with a status code. An `IoError` is what an operation on files reports:
a class of cause and a text.

* `Failure.message`, `IoError.message`: the texts shown to the user;
* `Failure.toIoError`: how a failure is reported by an operation on files.
-/

import Inflate.Text.Digits
import Inflate.Text.Quoted

namespace Inflate

open Text (decimal hex signedDecimal)

/-! ### Errors of operations on files -/

/-- The class of cause of an error on files. -/
inductive IoErrorKind where
  | notFound
  | permissionDenied
  | alreadyExists
  | invalidInput
  | invalidData
  | isADirectory
  | notADirectory
  | invalidFilename
  | filesystemLoop
  | outOfMemory
  | other
deriving DecidableEq, Repr

/-- An error on files: its class and its text. -/
structure IoError where
  kind : IoErrorKind
  message : String
deriving DecidableEq, Repr

/-! ### Faults of container headers -/

/-- What is wrong with the header of a container. -/
inductive HeaderFault where
  | unsupportedMethod (method : Nat)
  | windowTooLarge (exponent : Nat)
  | checkBits
  | presetDictionary
  | notGzip (first second : UInt8)
  | reservedFlags (flags : UInt8)
  | unknownContainer
  | described (text : String)
deriving DecidableEq, Repr

/-- The text of a header fault. -/
def HeaderFault.message : HeaderFault → String
  | unsupportedMethod method => "unsupported compression method " ++ decimal method
  | windowTooLarge exponent => "window size 2^" ++ decimal exponent ++ " too large"
  | checkBits => "header check bits do not match"
  | presetDictionary => "preset dictionary not supported"
  | notGzip first second =>
    "not a gzip member (magic " ++ hex 2 first.toNat ++ " " ++ hex 2 second.toNat ++ ")"
  | reservedFlags flags => "reserved flag bits set: 0x" ++ hex 2 flags.toNat
  | unknownContainer => "neither a zlib nor a gzip stream"
  | described text => text

/-! ### Failures -/

/-- Everything that can go wrong while decoding a stream or persisting its output. -/
inductive Failure where
  | nullInput
  | negativeLength (length : Int)
  | nullOutputLength
  | truncated
  | badHeader (fault : HeaderFault)
  | corrupt (detail : String)
  | checksumMismatch (expected actual : UInt32)
  | lengthMismatch (expected actual : UInt32)
  | trailingData (count : Nat)
  | outputLimitExceeded (limit : Nat)
  | allocation (size : Nat)
  | notADirectory (path : String)
  | invalidFileName (name : String)
  | io (error : IoError)
deriving DecidableEq, Repr

/-- The three kinds of failure that a caller can act on. -/
inductive FailureKind where
  | invalidInput
  | allocationFailure
  | ioFailure
deriving DecidableEq, Repr

/-- The status code of a kind of failure. -/
def FailureKind.code : FailureKind → Int
  | invalidInput => -1
  | allocationFailure => -2
  | ioFailure => -3

namespace Failure

/-- The one detail that is given for a fault in DEFLATE data. -/
def deflateDetail : String := "deflate decompression error"

/-- The kind of a failure. -/
def kind : Failure → FailureKind
  | allocation _ => .allocationFailure
  | notADirectory _ | invalidFileName _ | io _ => .ioFailure
  | _ => .invalidInput

/-- The status code of a failure. -/
def code (failure : Failure) : Int := failure.kind.code

/-- The text of a failure. -/
def message : Failure → String
  | nullInput => "input pointer is null"
  | negativeLength length => "negative input length: " ++ signedDecimal length
  | nullOutputLength => "output length pointer is null"
  | truncated => "truncated stream"
  | badHeader fault => "bad header: " ++ fault.message
  | corrupt detail => "corrupt deflate data: " ++ detail
  | checksumMismatch expected actual =>
    "checksum mismatch: expected 0x" ++ hex 8 expected.toNat ++ ", got 0x" ++ hex 8 actual.toNat
  | lengthMismatch expected actual =>
    "length mismatch: trailer says " ++ decimal expected.toNat ++ ", decoded " ++
      decimal actual.toNat
  | trailingData count => decimal count ++ " trailing bytes after end of stream"
  | outputLimitExceeded limit =>
    "decompressed size exceeds limit of " ++ decimal limit ++ " bytes"
  | allocation size => "failed to allocate " ++ decimal size ++ " bytes"
  | notADirectory path => path ++ ": not a directory"
  | invalidFileName name => "invalid output file name: " ++ Text.quoted name
  | io error => "I/O error: " ++ error.message

/-- A failure as an error on files: one that was such an error stays itself, and any other keeps its
text. -/
def toIoError : Failure → IoError
  | io error => error
  | failure =>
    match failure.kind with
    | .allocationFailure => ⟨.outOfMemory, failure.message⟩
    | _ => ⟨.invalidData, failure.message⟩

/-- A failure as an error on the file that it was met in. -/
def about (source : String) (failure : Failure) : IoError :=
  ⟨failure.toIoError.kind, source ++ ": " ++ failure.message⟩

end Failure

end Inflate
