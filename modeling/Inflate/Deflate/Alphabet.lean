/-
**The alphabets of DEFLATE.**

Symbols 0 to 255 of the first alphabet are literal bytes, 256 ends a block, and those after it give
the length of a copy: the least length of a class and a count of extra bits. The second alphabet
gives distances in the same way. A dynamic block lists the lengths of its code words in a third
alphabet, whose own lengths come in an order of their own.

* `lengthClass?`, `distanceClass?`: the classes by symbol;
* `codeLengthOrder`: the order in which the lengths of the third alphabet are written;
* `fixedCodes`: the two codes of blocks that bring none.
-/

import Inflate.Deflate.PrefixCode

namespace Inflate

namespace Deflate

/-- A class of lengths or distances: its least value and how many extra bits choose in it. -/
structure ValueClass where
  least : Nat
  extraBits : Nat
deriving DecidableEq, Repr

/-- The classes of copy lengths, from symbol 257 on. -/
def lengthClasses : Array ValueClass :=
  #[⟨3, 0⟩, ⟨4, 0⟩, ⟨5, 0⟩, ⟨6, 0⟩, ⟨7, 0⟩, ⟨8, 0⟩, ⟨9, 0⟩, ⟨10, 0⟩,
    ⟨11, 1⟩, ⟨13, 1⟩, ⟨15, 1⟩, ⟨17, 1⟩, ⟨19, 2⟩, ⟨23, 2⟩, ⟨27, 2⟩, ⟨31, 2⟩,
    ⟨35, 3⟩, ⟨43, 3⟩, ⟨51, 3⟩, ⟨59, 3⟩, ⟨67, 4⟩, ⟨83, 4⟩, ⟨99, 4⟩, ⟨115, 4⟩,
    ⟨131, 5⟩, ⟨163, 5⟩, ⟨195, 5⟩, ⟨227, 5⟩, ⟨258, 0⟩]

/-- The classes of distances, from symbol 0 on. -/
def distanceClasses : Array ValueClass :=
  #[⟨1, 0⟩, ⟨2, 0⟩, ⟨3, 0⟩, ⟨4, 0⟩, ⟨5, 1⟩, ⟨7, 1⟩, ⟨9, 2⟩, ⟨13, 2⟩, ⟨17, 3⟩, ⟨25, 3⟩,
    ⟨33, 4⟩, ⟨49, 4⟩, ⟨65, 5⟩, ⟨97, 5⟩, ⟨129, 6⟩, ⟨193, 6⟩, ⟨257, 7⟩, ⟨385, 7⟩,
    ⟨513, 8⟩, ⟨769, 8⟩, ⟨1025, 9⟩, ⟨1537, 9⟩, ⟨2049, 10⟩, ⟨3073, 10⟩,
    ⟨4097, 11⟩, ⟨6145, 11⟩, ⟨8193, 12⟩, ⟨12289, 12⟩, ⟨16385, 13⟩, ⟨24577, 13⟩]

/-- The class of copy lengths of a symbol. -/
def lengthClass? (symbol : Nat) : Option ValueClass :=
  if 257 ≤ symbol then lengthClasses[symbol - 257]? else none

/-- The class of distances of a symbol. -/
def distanceClass? (symbol : Nat) : Option ValueClass := distanceClasses[symbol]?

/-- The order in which the lengths of the code of lengths are written. -/
def codeLengthOrder : List Nat :=
  [16, 17, 18, 0, 8, 7, 9, 6, 10, 5, 11, 4, 12, 3, 13, 2, 14, 1, 15]

/-! ### The fixed codes -/

/-- The lengths of the fixed code of literals and copy lengths. -/
def fixedLiteralLengths : List Nat :=
  List.replicate 144 8 ++ List.replicate 112 9 ++ List.replicate 24 7 ++ List.replicate 8 8

/-- The lengths of the fixed code of distances. -/
def fixedDistanceLengths : List Nat := List.replicate 32 5

/-- The two codes of a compressed block. -/
structure Codes where
  literals : PrefixCode
  distances : PrefixCode
deriving DecidableEq, Repr

/-- The codes of a block that brings none. -/
def fixedCodes : Codes :=
  ⟨PrefixCode.ofLengths fixedLiteralLengths, PrefixCode.ofLengths fixedDistanceLengths⟩

end Deflate

end Inflate
