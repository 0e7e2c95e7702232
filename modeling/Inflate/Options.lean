/-
**Options of decoding.**

Sizes are numbers of 64 bits. Without a limit of its own a decoder stops at the greatest size.
-/

import Inflate.Bytes

namespace Inflate

/-- The greatest size. -/
def maxSize : Nat := 2 ^ 64 - 1

/-- The sum of two sizes, or the greatest size if the sum is greater. -/
def saturatingAdd (m n : Nat) : Nat := min (m + n) maxSize

/-- How a stream is decoded: a limit on the size of its output, whether bytes after it are ignored,
and the capacity its output starts with. -/
structure Options where
  maxOutput : Option Nat := none
  allowTrailing : Bool := false
  initialCapacity : Option Nat := none
deriving DecidableEq, Repr, Inhabited

/-- The greatest size the output may have. -/
def Options.limit (options : Options) : Nat := options.maxOutput.getD maxSize

end Inflate
