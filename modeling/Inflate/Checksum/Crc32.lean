/-
**The CRC-32 checksum of RFC 1952.**

The register starts with all bits set. Each byte is added to its low eight bits, and the register is
then shifted right eight times; a bit that falls out adds the polynomial. The checksum is the
complement of the register.
-/

import Inflate.Bytes

namespace Inflate

namespace Crc32

/-- The generator polynomial, with the highest coefficient in the lowest bit. -/
def polynomial : UInt32 := 0xEDB88320

/-- One shift of the register. -/
def shift (register : UInt32) : UInt32 :=
  if register &&& 1 = 1 then (register >>> 1) ^^^ polynomial else register >>> 1

/-- Eight shifts of the register. -/
def shiftByte (register : UInt32) : UInt32 :=
  shift (shift (shift (shift (shift (shift (shift (shift register)))))))

/-- The register after one more byte. -/
def add (register : UInt32) (byte : UInt8) : UInt32 :=
  shiftByte (register ^^^ byte.toUInt32)

end Crc32

/-- The CRC-32 checksum of a byte string. -/
def crc32 (bytes : Bytes) : UInt32 :=
  bytes.foldl Crc32.add 0xFFFFFFFF ^^^ 0xFFFFFFFF

end Inflate
