/-
**Zlib streams (RFC 1950).**

A stream is a header of two bytes, a DEFLATE body and the Adler-32 checksum of the output, most
significant byte first. The decoder meets a wrong checksum as a fault like any other. To name it, the
body is then decoded once more on its own: if that succeeds, the checksum was at fault.

* `Zlib.attempt`: decodes the stream that a byte string begins with.
-/

import Inflate.Decoded
import Inflate.Output.Pieces
import Inflate.Zlib.Header

namespace Inflate

namespace Zlib

/-- The count of bytes of a trailer. -/
def trailerLength : Nat := 4

/-- The least size of a stream: header, an empty body and trailer. -/
def minLength : Nat := 8

/-- The checksum in the four bytes that end at a position. -/
def trailerAt? (input : Bytes) (streamEnd : Nat) : Option UInt32 :=
  if trailerLength ≤ streamEnd ∧ streamEnd ≤ input.length then
    some (UInt32.ofNat
      (Bytes.bigEndian ((input.drop (streamEnd - trailerLength)).take trailerLength)))
  else none

section Decoding

variable [Memory]

/-- Names a fault of the stream: a wrong checksum if the body alone can be decoded, and otherwise a
fault of the body. -/
def classifyFault (input : Bytes) (options : Options) (detail : String) : Failure :=
  let body := input.drop Header.length
  match decodeInto .bare options.limit body {} with
  | .error _ => .corrupt detail
  | .ok (rest, buffer) =>
    let bodyLength := body.length - rest.length
    match trailerAt? input (Header.length + bodyLength + trailerLength) with
    | some expected => .checksumMismatch expected (adler32 buffer.bytes.toList)
    | none => .corrupt detail

/-- Decodes the body and checks the trailer. Gives the output, the checksum and how many bytes follow
the stream. -/
def decodeBody (input : Bytes) (options : Options) : Except Failure (Bytes × UInt32 × Nat) := do
  let buffer ← Buffer.reserve (seedCapacity input.length options)
  match decodeInto .checked options.limit (input.drop Header.length) buffer with
  | .error (.corrupt detail) => .error (classifyFault input options detail)
  | .error failure => .error failure
  | .ok (rest, buffer) =>
    match trailerAt? input (input.length - rest.length) with
    | some checksum => .ok (buffer.bytes.toList, checksum, rest.length)
    | none => .error .truncated

/-- Decodes the stream that a byte string begins with. -/
def attempt (input : Bytes) (options : Options) : Attempt :=
  match Header.parse input with
  | .error failure => ⟨[], .error failure⟩
  | .ok header =>
    if input.length < minLength then ⟨[], .error .truncated⟩
    else
      let window := Note.zlibWindow header.windowSize header.level
      match decodeBody input options with
      | .error failure => ⟨[window], .error failure⟩
      | .ok (data, checksum, trailing) =>
        let decoded : Decoded :=
          { data, checksum, format := .zlib, header := none, consumed := input.length }
        if trailing = 0 then ⟨[window], .ok decoded⟩
        else if options.allowTrailing then
          ⟨[window, .ignoredTrailing .zlib trailing], .ok decoded⟩
        else ⟨[window], .error (.trailingData trailing)⟩

/-- Decodes the stream that a byte string begins with. -/
def decode (input : Bytes) (options : Options) : Except Failure Decoded :=
  (attempt input options).result

end Decoding

end Zlib

end Inflate
