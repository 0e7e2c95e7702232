/-
**The header of a zlib stream (RFC 1950).**

The first byte holds the method and the window size, the second one a check value that makes the two
bytes, read as one number, a multiple of 31, the mark of a preset dictionary and a hint at the level
of compression.
-/

import Inflate.Failure

namespace Inflate

namespace Zlib

/-- What the header of a stream says. -/
structure Header where
  windowSize : Nat
  level : Nat
deriving DecidableEq, Repr

namespace Header

/-- The count of bytes of a header. -/
def length : Nat := 2

/-- Reads the two bytes of a header. -/
def ofBytes (cmf flg : UInt8) : Except HeaderFault Header :=
  let method := cmf.toNat % 16
  let windowBits := cmf.toNat / 16
  if method ≠ 8 then .error (.unsupportedMethod method)
  else if 7 < windowBits then .error (.windowTooLarge (windowBits + 8))
  else if (256 * cmf.toNat + flg.toNat) % 31 ≠ 0 then .error .checkBits
  else if flg &&& 0x20 ≠ 0 then .error .presetDictionary
  else .ok ⟨256 * 2 ^ windowBits, flg.toNat / 64⟩

/-- Reads the header at the front of a byte string. -/
def parse : Bytes → Except Failure Header
  | cmf :: flg :: _ =>
    match ofBytes cmf flg with
    | .ok header => .ok header
    | .error fault => .error (.badHeader fault)
  | _ => .error .truncated

end Header

end Zlib

end Inflate
