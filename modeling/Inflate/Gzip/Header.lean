/-
**The header of a gzip member (RFC 1952).**

Two identifying bytes, the method, the flags, four bytes of time, two bytes of hints, and then the
optional parts that the flags announce, always in this order: an extra field with its length in two
bytes, a name and a comment that end with a zero byte and are read as ISO-8859-1, and the low half of
the CRC-32 of all that comes before it.

* `Header.parse`: reads the header at the front of a byte string;
* `Header.encode`: writes a header.
-/

import Inflate.Checksum.Crc32
import Inflate.Failure

namespace Inflate

namespace Gzip

/-! ### Flags -/

/-- The two bytes that every member begins with. -/
def magic : Bytes := [0x1f, 0x8b]

/-- The number of the DEFLATE method. -/
def deflateMethod : UInt8 := 8

/-- The content is probably text. -/
def textFlag : UInt8 := 0x01

/-- The header has a checksum of its own. -/
def checksumFlag : UInt8 := 0x02

/-- The header has an extra field. -/
def extraFlag : UInt8 := 0x04

/-- The header has a name. -/
def nameFlag : UInt8 := 0x08

/-- The header has a comment. -/
def commentFlag : UInt8 := 0x10

/-- The bits that no header may set. -/
def reservedFlags : UInt8 := 0xe0

/-- Whether a flag is set. -/
def hasFlag (flags flag : UInt8) : Bool := flags &&& flag != 0

/-! ### Headers -/

/-- The fields of a member's header. The time is in seconds, and zero means that there is none. -/
structure Header where
  method : UInt8
  flags : UInt8
  mtime : UInt32
  extraFlags : UInt8
  os : UInt8
  extra : Option Bytes
  name : Option String
  comment : Option String
  length : Nat
deriving DecidableEq, Repr

namespace Header

/-- Whether the content is marked as text. -/
def isText (header : Header) : Bool := hasFlag header.flags textFlag

/-- The text of ISO-8859-1 bytes. -/
def latin1 (bytes : Bytes) : String :=
  String.ofList (bytes.map fun byte => Char.ofNat byte.toNat)

/-! ### Reading -/

/-- The first `count` bytes and the rest, unless there are too few. -/
def takeExactly (count : Nat) (input : Bytes) : Except Failure (Bytes × Bytes) :=
  if input.length < count then .error .truncated else .ok (input.splitAt count)

/-- The first byte and the rest. -/
def takeByte : Bytes → Except Failure (UInt8 × Bytes)
  | [] => .error .truncated
  | byte :: rest => .ok (byte, rest)

/-- A text up to its zero byte, and the rest after that byte. -/
def takeText (input : Bytes) : Except Failure (String × Bytes) :=
  match input.dropWhile (· != 0) with
  | [] => .error .truncated
  | _ :: rest => .ok (latin1 (input.takeWhile (· != 0)), rest)

/-- A part that is there only if a flag is set. -/
def optional {α : Type} (present : Bool) (part : Bytes → Except Failure (α × Bytes))
    (input : Bytes) : Except Failure (Option α × Bytes) :=
  if present then do
    let (value, rest) ← part input
    .ok (some value, rest)
  else .ok (none, input)

/-- The extra field after its length. -/
def takeExtra (input : Bytes) : Except Failure (Bytes × Bytes) := do
  let (length, rest) ← takeExactly 2 input
  takeExactly (Bytes.littleEndian length) rest

/-- The checksum of a header: the low half of the CRC-32 of its bytes. -/
def checksum (bytes : Bytes) : UInt32 := crc32 bytes &&& 0xffff

/-- Reads the header at the front of a byte string. -/
def parse (input : Bytes) : Except Failure Header := do
  let (first, rest) ← takeByte input
  let (second, rest) ← takeByte rest
  if [first, second] ≠ magic then throw (.badHeader (.notGzip first second))
  let (method, rest) ← takeByte rest
  if method ≠ deflateMethod then throw (.badHeader (.unsupportedMethod method.toNat))
  let (flags, rest) ← takeByte rest
  if hasFlag flags reservedFlags then throw (.badHeader (.reservedFlags flags))
  let (mtime, rest) ← takeExactly 4 rest
  let (extraFlags, rest) ← takeByte rest
  let (os, rest) ← takeByte rest
  let (extra, rest) ← optional (hasFlag flags extraFlag) takeExtra rest
  let (name, rest) ← optional (hasFlag flags nameFlag) takeText rest
  let (comment, rest) ← optional (hasFlag flags commentFlag) takeText rest
  let covered := input.length - rest.length
  let (stored, rest) ← optional (hasFlag flags checksumFlag) (takeExactly 2) rest
  if let some stored := stored then
    let expected := UInt32.ofNat (Bytes.littleEndian stored)
    let actual := checksum (input.take covered)
    if expected ≠ actual then throw (.checksumMismatch expected actual)
  return {
    method, flags, extraFlags, os, extra, name, comment
    mtime := UInt32.ofNat (Bytes.littleEndian mtime)
    length := input.length - rest.length }

/-! ### Writing -/

/-- The ISO-8859-1 bytes of a text and the zero byte that ends it. -/
def encodeText (text : String) : Bytes :=
  text.toList.map (fun c => UInt8.ofNat c.toNat) ++ [0]

/-- The bytes of a header up to its checksum. -/
def encodeCovered (header : Header) : Bytes :=
  magic ++ [header.method, header.flags] ++ Bytes.ofLittleEndian 4 header.mtime.toNat ++
    [header.extraFlags, header.os] ++
    (header.extra.map fun extra => Bytes.ofLittleEndian 2 extra.length ++ extra).getD [] ++
    (header.name.map encodeText).getD [] ++ (header.comment.map encodeText).getD []

/-- The bytes of a header. -/
def encode (header : Header) : Bytes :=
  let covered := header.encodeCovered
  if hasFlag header.flags checksumFlag then
    covered ++ Bytes.ofLittleEndian 2 (checksum covered).toNat
  else covered

end Header

end Gzip

end Inflate
