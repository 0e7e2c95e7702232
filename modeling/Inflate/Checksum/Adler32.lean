/-
**The Adler-32 checksum of RFC 1950.**

Two sums modulo the prime 65521 run over the bytes: the low half adds up the bytes and starts at
one, the high half adds up the successive values of the low one. The checksum is the high half
followed by the low half.
-/

import Inflate.Bytes

namespace Inflate

namespace Adler32

/-- The largest prime below 2 ^ 16. -/
def modulus : Nat := 65521

/-- The two running sums. -/
structure Sums where
  low : Nat
  high : Nat
deriving DecidableEq, Repr

/-- The sums before the first byte. -/
def Sums.initial : Sums := ⟨1, 0⟩

/-- The sums after one more byte. -/
def Sums.add (sums : Sums) (byte : UInt8) : Sums :=
  let low := (sums.low + byte.toNat) % modulus
  ⟨low, (sums.high + low) % modulus⟩

/-- The checksum that two sums stand for. -/
def Sums.value (sums : Sums) : UInt32 :=
  UInt32.ofNat (65536 * sums.high + sums.low)

end Adler32

/-- The Adler-32 checksum of a byte string. -/
def adler32 (bytes : Bytes) : UInt32 :=
  (bytes.foldl Adler32.Sums.add Adler32.Sums.initial).value

end Inflate
