/-
**Blocks of a DEFLATE stream.**

A block begins with a bit that marks the last block and two bits for its kind. A stored block then
gives the count of its bytes twice, the second time complemented. A dynamic block gives its two codes
by the lengths of their words, and a fixed block uses codes that are always the same. After that a
compressed block is a sequence of items.

* `readBlockHeader`: the header of a block;
* `readItem`: one item of a compressed block.
-/

import Inflate.Deflate.Alphabet

namespace Inflate

namespace Deflate

open Reading (bit bits)

/-! ### The codes of a dynamic block -/

/-- The lengths of the code of lengths, put in the order of its symbols. -/
def codeLengthLengths (written : List Nat) : List Nat :=
  (List.range 19).map fun symbol =>
    ((codeLengthOrder.zip written).lookup symbol).getD 0

/-- The next `left` lengths of code words, written in the code of lengths. Symbols below 16 are
lengths, 16 repeats the length before, and 17 and 18 repeat zero. A repetition that passes the end
is a fault. -/
def readLengths (code : PrefixCode) (left : Nat) (previous : Option Nat) :
    Reading (List Nat) :=
  match left with
  | 0 => pure []
  | others + 1 => do
    let symbol ← code.read
    if symbol < 16 then
      let rest ← readLengths code others (some symbol)
      pure (symbol :: rest)
    else
      let run (length least extraBits : Nat) (enough : 0 < least) : Reading (List Nat) := do
        let extra ← bits extraBits
        let count := least + extra
        if count ≤ others + 1 then
          let rest ← readLengths code (others + 1 - count) (some length)
          pure (List.replicate count length ++ rest)
        else Reading.fault
      if symbol = 16 then
        match previous with
        | some length => run length 3 2 (by decide)
        | none => Reading.fault
      else if symbol = 17 then run 0 3 3 (by decide)
      else run 0 11 7 (by decide)
termination_by left
decreasing_by all_goals omega

/-- The two codes of a dynamic block. -/
def readCodes : Reading Codes := do
  let literalCount ← (257 + ·) <$> bits 5
  let distanceCount ← (1 + ·) <$> bits 5
  let lengthCount ← (4 + ·) <$> bits 4
  if 286 < literalCount ∨ 30 < distanceCount then Reading.fault
  else
    let written ← Reading.many (bits 3) lengthCount
    let lengthCode := PrefixCode.ofLengths (codeLengthLengths written)
    if lengthCode.isComplete then
      let lengths ← readLengths lengthCode (literalCount + distanceCount) none
      let literals := PrefixCode.ofLengths (lengths.take literalCount)
      let distances := PrefixCode.ofLengths (lengths.drop literalCount)
      if literals.isUsable && distances.isUsable then pure ⟨literals, distances⟩
      else Reading.fault
    else Reading.fault

/-! ### Headers and items -/

/-- What follows the header of a block: a count of stored bytes, or items in two codes. -/
inductive BlockBody where
  | stored (count : Nat)
  | compressed (codes : Codes)
deriving DecidableEq, Repr

/-- The header of a block. -/
structure BlockHeader where
  final : Bool
  body : BlockBody
deriving DecidableEq, Repr

/-- The count of bytes of a stored block. -/
def readStoredCount : Reading Nat := do
  Reading.align
  let count ← bits 16
  let complement ← bits 16
  if count + complement = 65535 then pure count else Reading.fault

/-- The header of a block. -/
def readBlockHeader : Reading BlockHeader := do
  let final ← bit
  let kind ← bits 2
  if kind = 0 then
    let count ← readStoredCount
    pure ⟨final, .stored count⟩
  else if kind = 1 then pure ⟨final, .compressed fixedCodes⟩
  else if kind = 2 then
    let codes ← readCodes
    pure ⟨final, .compressed codes⟩
  else Reading.fault

/-- An item of a compressed block. -/
inductive Item where
  | literal (byte : UInt8)
  | copy (length distance : Nat)
  | endOfBlock
deriving DecidableEq, Repr

/-- A value of a class. -/
def readClass (valueClass : Option ValueClass) : Reading Nat :=
  match valueClass with
  | some valueClass => do
    let extra ← bits valueClass.extraBits
    pure (valueClass.least + extra)
  | none => Reading.fault

/-- One item of a compressed block. -/
def readItem (codes : Codes) : Reading Item := do
  let symbol ← codes.literals.read
  if symbol < 256 then pure (.literal (UInt8.ofNat symbol))
  else if symbol = 256 then pure .endOfBlock
  else
    let length ← readClass (lengthClass? symbol)
    let distanceSymbol ← codes.distances.read
    let distance ← readClass (distanceClass? distanceSymbol)
    pure (.copy length distance)

/-! ### How many bits headers and items take -/

theorem consumes_readLengths (code : PrefixCode) (left : Nat) (previous : Option Nat) :
    (readLengths code left previous).Consumes 0 := by
  induction left using Nat.strongRecOn generalizing previous with
  | ind left ih =>
    cases left with
    | zero => rw [readLengths]; exact Reading.consumes_pure []
    | succ others =>
      have repeated : ∀ length least extraBits, 0 < least →
          Reading.Consumes (do
            let extra ← bits extraBits
            let count := least + extra
            if count ≤ others + 1 then
              let rest ← readLengths code (others + 1 - count) (some length)
              pure (List.replicate count length ++ rest)
            else Reading.fault : Reading (List Nat)) 0 := by
        intro length least extraBits enough
        refine ((Reading.consumes_bits extraBits).mono (Nat.zero_le _)).bind (n := 0) fun extra => ?_
        simp only
        split
        · exact (ih _ (by omega) _).bind (n := 0) fun rest => Reading.consumes_pure _
        · exact Reading.consumes_fault 0
      rw [readLengths]
      refine (code.consumes_read.mono (Nat.zero_le 1)).bind (n := 0) fun symbol => ?_
      split
      · exact (ih _ (Nat.lt_succ_self others) _).bind (n := 0) fun rest => Reading.consumes_pure _
      · simp only
        split
        · split
          · exact repeated _ _ _ (by decide)
          · exact Reading.consumes_fault 0
        · split
          · exact repeated _ _ _ (by decide)
          · exact repeated _ _ _ (by decide)

theorem consumes_readCodes : readCodes.Consumes 0 := by
  have number : ∀ (least width : Nat),
      Reading.Consumes ((least + ·) <$> bits width) 0 := fun least width =>
    ((Reading.consumes_bits width).bind fun _ => Reading.consumes_pure _).mono (Nat.zero_le _)
  unfold readCodes
  refine (number 257 5).bind (n := 0) fun literalCount => ?_
  refine (number 1 5).bind (n := 0) fun distanceCount => ?_
  refine (number 4 4).bind (n := 0) fun lengthCount => ?_
  split
  · exact Reading.consumes_fault 0
  · refine (Reading.consumes_many _ _ ((Reading.consumes_bits 3).mono (Nat.zero_le 3))).bind (n := 0)
      fun written => ?_
    simp only
    split
    · refine (consumes_readLengths _ _ _).bind (n := 0) fun lengths => ?_
      split
      · exact Reading.consumes_pure _
      · exact Reading.consumes_fault 0
    · exact Reading.consumes_fault 0

theorem consumes_readStoredCount : readStoredCount.Consumes 32 := by
  unfold readStoredCount
  refine Reading.consumes_align.bind (n := 32) fun _ => ?_
  refine (Reading.consumes_bits 16).bind (n := 16) fun count => ?_
  refine (Reading.consumes_bits 16).bind (n := 0) fun complement => ?_
  split
  · exact Reading.consumes_pure _
  · exact Reading.consumes_fault 0

theorem consumes_readBlockHeader : readBlockHeader.Consumes 3 := by
  unfold readBlockHeader
  refine Reading.consumes_bit.bind (n := 2) fun final => ?_
  refine (Reading.consumes_bits 2).bind (n := 0) fun kind => ?_
  split
  · exact (consumes_readStoredCount.mono (Nat.zero_le 32)).bind (n := 0) fun count =>
      Reading.consumes_pure _
  · split
    · exact Reading.consumes_pure _
    · split
      · exact consumes_readCodes.bind (n := 0) fun codes => Reading.consumes_pure _
      · exact Reading.consumes_fault 0

theorem consumes_readClass (valueClass : Option ValueClass) :
    (readClass valueClass).Consumes 0 := by
  unfold readClass
  split
  · exact ((Reading.consumes_bits _).mono (Nat.zero_le _)).bind (n := 0) fun extra =>
      Reading.consumes_pure _
  · exact Reading.consumes_fault 0

theorem consumes_readItem (codes : Codes) : (readItem codes).Consumes 1 := by
  unfold readItem
  refine codes.literals.consumes_read.bind (n := 0) fun symbol => ?_
  split
  · exact Reading.consumes_pure _
  · split
    · exact Reading.consumes_pure _
    · refine (consumes_readClass _).bind (n := 0) fun length => ?_
      refine (codes.distances.consumes_read.mono (Nat.zero_le 1)).bind (n := 0) fun symbol => ?_
      exact (consumes_readClass _).bind (n := 0) fun distance => Reading.consumes_pure _

end Deflate

end Inflate
