/-
**Gzip files (RFC 1952).**

A file is one or more members. A member is a header, a DEFLATE body with a window of its own, and a
trailer with the CRC-32 of its output and the size of its output modulo 2 ^ 32, both least significant
byte first. The outputs of all members go into one buffer, and the limit holds for their sum. After a
member the file ends, another member begins, or other bytes follow.

* `Gzip.decodeMember`: decodes the member at the front of a byte string;
* `Gzip.walk`: decodes member after member;
* `Gzip.attempt`: decodes a whole file.
-/

import Inflate.Decoded
import Inflate.Output.Pieces

namespace Inflate

namespace Gzip

/-- The count of bytes of a trailer. -/
def trailerLength : Nat := 8

/-- The least size of a member: header, an empty body and trailer. -/
def minLength : Nat := 20

/-- A decoded member: its header, the size of its output and the checksum of its output. -/
structure Member where
  header : Header
  size : Nat
  checksum : UInt32
deriving DecidableEq, Repr

/-- Checks the trailer of a member against its output. Gives the checksum. -/
def checkTrailer (trailer output : Bytes) : Except Failure UInt32 :=
  let expectedChecksum := UInt32.ofNat (Bytes.littleEndian (trailer.take 4))
  let expectedSize := UInt32.ofNat (Bytes.littleEndian (trailer.drop 4))
  let actualChecksum := crc32 output
  let actualSize := UInt32.ofNat output.length
  if expectedChecksum ≠ actualChecksum then
    .error (.checksumMismatch expectedChecksum actualChecksum)
  else if expectedSize ≠ actualSize then .error (.lengthMismatch expectedSize actualSize)
  else .ok actualChecksum

/-- How a walk over the members of a file ended: with a failure, or with a buffer and some bytes that
are not the beginning of another member. -/
inductive Ending where
  | failed (failure : Failure)
  | done (trailing : Nat) (buffer : Buffer)

/-- The members of a file that could be decoded, and how the walk ended. -/
structure Walk where
  members : List Member
  ending : Ending

/-- The notes on the members of a file, numbered from one on. -/
def memberNotes (members : List Member) : List Note :=
  members.mapIdx fun index member => .gzipMember (index + 1) member.size member.checksum

section Decoding

variable [Memory]

/-- Decodes the member at the front of a byte string into a buffer. Gives the member, the bytes after
it and the buffer. -/
def decodeMember (limit : Nat) (input : Bytes) (buffer : Buffer) :
    Except Failure (Member × Bytes × Buffer) := do
  let header ← Header.parse input
  if input.length < minLength then throw .truncated
  let (rest, filled) ← decodeInto .bare limit (input.drop header.length) buffer
  if rest.length < trailerLength then throw .truncated
  let output := (filled.bytes.extract buffer.size filled.size).toList
  let checksum ← checkTrailer (rest.take trailerLength) output
  return (⟨header, output.length, checksum⟩, rest.drop trailerLength, filled)

/-- A member takes at least one byte. -/
theorem length_lt_of_decodeMember {limit : Nat} {input rest : Bytes} {buffer filled : Buffer}
    {member : Member}
    (decoded : decodeMember limit input buffer = .ok (member, rest, filled)) :
    rest.length < input.length := by
  unfold decodeMember at decoded
  cases parsed : Header.parse input with
  | error failure => simp [parsed, bind, Except.bind] at decoded
  | ok header =>
    cases body : decodeInto .bare limit (input.drop header.length) buffer with
    | error failure =>
      simp only [parsed, body, bind, Except.bind] at decoded
      split at decoded <;> cases decoded
    | ok stream =>
      obtain ⟨after, output⟩ := stream
      have left := length_le_of_decodeInto body
      simp only [parsed, body, bind, Except.bind] at decoded
      split at decoded
      · cases decoded
      · split at decoded
        · cases decoded
        · next enough =>
          split at decoded
          · cases decoded
          · cases decoded
            simp only [List.length_drop, trailerLength] at left enough ⊢
            omega

/-- Decodes member after member to the end of a file. -/
def walk (limit : Nat) (input : Bytes) (buffer : Buffer) : Walk :=
  match decoded : decodeMember limit input buffer with
  | .error failure => ⟨[], .failed failure⟩
  | .ok (member, rest, filled) =>
    if magic.isPrefixOf rest then
      have : rest.length < input.length := length_lt_of_decodeMember decoded
      let others := walk limit rest filled
      ⟨member :: others.members, others.ending⟩
    else ⟨[member], .done rest.length filled⟩
termination_by input.length

/-- Decodes a whole file. -/
def attempt (input : Bytes) (options : Options) : Attempt :=
  match Buffer.reserve (seedCapacity input.length options) with
  | .error failure => ⟨[], .error failure⟩
  | .ok buffer =>
    let walked := walk options.limit input buffer
    let notes := memberNotes walked.members
    match walked.ending with
    | .failed failure => ⟨notes, .error failure⟩
    | .done trailing filled =>
      let decoded : Decoded :=
        { data := filled.bytes.toList
          format := .gzip
          checksum := (walked.members.getLast?.map (·.checksum)).getD 0
          header := walked.members.head?.map (·.header)
          consumed := input.length }
      if trailing = 0 then ⟨notes, .ok decoded⟩
      else if options.allowTrailing then
        ⟨notes ++ [.ignoredTrailing .gzip trailing], .ok decoded⟩
      else ⟨notes, .error (.trailingData trailing)⟩

/-- Decodes a whole file. -/
def decode (input : Bytes) (options : Options) : Except Failure Decoded :=
  (attempt input options).result

end Decoding

end Gzip

end Inflate
