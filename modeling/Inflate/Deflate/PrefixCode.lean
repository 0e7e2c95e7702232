/-
**Canonical prefix codes.**

A code gives each of its symbols a word of bits. It is fixed by the lengths of the words alone: words
of one length are consecutive numbers in the order of their symbols, and the first word of a length
is the first number that no shorter word is a prefix of. Words are written most significant bit
first.

A code is held by its rows: for each length, from one on, the symbols with a word of that length, in
increasing order. Reading a word counts in the words not used up yet: in each row the bits read so far
number the remaining words, of which the first belong to the symbols of the row and the others begin
longer words.

* `PrefixCode.spare`: how many words of the greatest length are left over;
* `PrefixCode.isComplete`, `PrefixCode.isUsable`: which codes a block may use;
* `PrefixCode.read`: reads a word and gives its symbol.
-/

import Inflate.Deflate.BitReader

namespace Inflate

namespace Deflate

/-- For each length of word, from one on, the symbols with a word of that length. -/
structure PrefixCode where
  rows : List (Array Nat)
deriving DecidableEq, Repr

namespace PrefixCode

/-! ### Codes from lengths -/

/-- The greatest length in a list. -/
def greatest (lengths : List Nat) : Nat := lengths.foldl max 0

/-- The symbols, in increasing order, whose entry in the list is `length`. -/
def row (lengths : List Nat) (length : Nat) : Array Nat :=
  (lengths.zipIdx.filterMap fun entry =>
    if entry.1 = length then some entry.2 else none).toArray

/-- The code in which symbol `s` has a word of the length listed at `s`, and no word if that length
is zero. A code without words has one empty row. -/
def ofLengths (lengths : List Nat) : PrefixCode :=
  ⟨(List.range' 1 (max 1 (greatest lengths))).map (row lengths)⟩

/-! ### Which codes may be used -/

/-- How many words of the greatest length are left over, if `free` words of length zero can be
prolonged; none if there are more symbols than words. -/
def spareFrom : List (Array Nat) → Nat → Option Nat
  | [], free => some free
  | row :: rows, free =>
    if row.size ≤ 2 * free then spareFrom rows (2 * free - row.size) else none

/-- How many words of the greatest length are left over; none if there are more symbols than
words. -/
def spare (code : PrefixCode) : Option Nat := spareFrom code.rows 1

/-- Every sequence of bits begins with a word. -/
def isComplete (code : PrefixCode) : Bool := code.spare == some 0

/-- The code is complete, or it has no words longer than one bit and not too many of them. -/
def isUsable (code : PrefixCode) : Bool :=
  match code.spare with
  | some 0 => true
  | some _ => code.rows.length ≤ 1
  | none => false

/-! ### Reading and writing words -/

/-- Reads the rest of a word from the given rows. The bits read so far are the remaining word
number `number`. -/
def readFrom : List (Array Nat) → Nat → Reading Nat
  | [], _ => Reading.fault
  | row :: rows, number => do
    let low ← Reading.bit
    let number := 2 * number + low.toNat
    if found : number < row.size then pure row[number]
    else readFrom rows (number - row.size)

/-- Reads a word and gives its symbol. -/
def read (code : PrefixCode) : Reading Nat := readFrom code.rows 0

/-- The lowest `width` bits of a number, the most significant one first. -/
def wordBits : Nat → Nat → List Bool
  | 0, _ => []
  | width + 1, n => n.testBit width :: wordBits width n

theorem consumes_readFrom (rows : List (Array Nat)) (number : Nat) :
    (readFrom rows number).Consumes 1 := by
  induction rows generalizing number with
  | nil => exact Reading.consumes_fault 1
  | cons row rows ih =>
    refine (Reading.consumes_bit.bind (n := 0) fun low => ?_).mono (Nat.le_refl 1)
    simp only
    split
    · exact Reading.consumes_pure _
    · exact (ih _).mono (Nat.zero_le 1)

theorem consumes_read (code : PrefixCode) : code.read.Consumes 1 :=
  consumes_readFrom code.rows 0

end PrefixCode

end Deflate

end Inflate
