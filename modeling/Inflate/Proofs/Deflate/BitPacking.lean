/-
**Bits that are written and read back.**

Numbers are written with their lowest bit first, and bits are packed into bytes from the least
significant one on. A step reads back what was written if it reads it from the front of any bits,
wherever in a byte they begin. Bytes follow from their bits, and bits that fill up the last byte are
skipped.

* `lowBits`: a number as it is written;
* `BitReader.Holds`: the bits that a reader has to read;
* `Reading.Reads`: a step reads back what was written;
* `BitReader.Holds.align`: the bits that fill up a byte are skipped.
-/

import Inflate.Proofs.Deflate.Extension

namespace Inflate

namespace Deflate

/-! ### Numbers -/

/-- The lowest `width` bits of a number, the lowest one first. -/
def lowBits : Nat → Nat → List Bool
  | 0, _ => []
  | width + 1, n => n.testBit 0 :: lowBits width (n / 2)

@[simp] theorem length_lowBits (width n : Nat) : (lowBits width n).length = width := by
  induction width generalizing n with
  | zero => rfl
  | succ width ih => rw [lowBits, List.length_cons, ih]

/-- The number whose lowest bits are given. -/
def ofLowBits : List Bool → Nat
  | [] => 0
  | low :: rest => low.toNat + 2 * ofLowBits rest

theorem toNat_testBit_zero_add (n : Nat) : (n.testBit 0).toNat + 2 * (n / 2) = n := by
  rw [Nat.toNat_testBit, Nat.pow_zero, Nat.div_one]
  omega

theorem ofLowBits_lowBits {width n : Nat} (small : n < 2 ^ width) :
    ofLowBits (lowBits width n) = n := by
  induction width generalizing n with
  | zero =>
    rw [Nat.pow_zero] at small
    rw [lowBits, ofLowBits]
    omega
  | succ width ih =>
    rw [Nat.pow_succ] at small
    rw [lowBits, ofLowBits, ih (by omega), toNat_testBit_zero_add]

theorem bitsOf_eq (byte : UInt8) : bitsOf byte = lowBits 8 byte.toNat := by
  simp only [bitsOf, lowBits, Nat.testBit_div_two]

theorem bitsOf_injective {first second : UInt8} (same : bitsOf first = bitsOf second) :
    first = second := by
  have numbers := congrArg ofLowBits same
  rw [bitsOf_eq, bitsOf_eq, ofLowBits_lowBits first.toNat_lt,
    ofLowBits_lowBits second.toNat_lt] at numbers
  exact UInt8.toNat_inj.mp numbers

/-! ### Bytes -/

/-- The bits of a byte string. -/
def packed (bytes : Bytes) : List Bool := bytes.flatMap bitsOf

theorem packed_append (first second : Bytes) :
    packed (first ++ second) = packed first ++ packed second :=
  List.flatMap_append

theorem length_packed (bytes : Bytes) : (packed bytes).length = 8 * bytes.length := by
  have size := (BitReader.ofBytes bytes).length_toBits
  simp only [BitReader.toBits, BitReader.size, BitReader.ofBytes, List.nil_append,
    List.length_nil, Nat.zero_add] at size
  exact size

/-- Bytes follow from their bits. -/
theorem packed_injective {first second : Bytes} (same : packed first = packed second) :
    first = second := by
  induction first generalizing second with
  | nil =>
    have length := congrArg List.length same
    rw [length_packed, length_packed, List.length_nil] at length
    exact (List.length_eq_zero_iff.mp (by omega)).symm
  | cons byte rest ih =>
    cases second with
    | nil => cases same
    | cons other others =>
      obtain ⟨front, back⟩ := List.append_inj same rfl
      rw [bitsOf_injective front, ih back]

/-! ### Readers -/

namespace BitReader

/-- The reader has the given bits to read, and no whole byte is pending. -/
structure Holds (reader : BitReader) (bits : List Bool) : Prop where
  bits : reader.toBits = bits
  pending : reader.pending.length < 8

theorem holds_ofBytes (bytes : Bytes) : (ofBytes bytes).Holds (packed bytes) :=
  ⟨rfl, by simp [ofBytes]⟩

/-- **Padding is skipped**: what follows it begins at the next byte boundary. -/
theorem Holds.align {reader : BitReader} {padding rest : List Bool}
    (holds : reader.Holds (padding ++ rest)) (short : padding.length < 8)
    (whole : rest.length % 8 = 0) : reader.align.Holds rest := by
  have pending := holds.pending
  have counted := congrArg List.length holds.bits
  have size := reader.length_toBits
  rw [counted, List.length_append, BitReader.size] at size
  have split : reader.pending ++ packed reader.bytes = padding ++ rest := holds.bits
  obtain ⟨_, back⟩ := List.append_inj split (by omega)
  exact ⟨back, by simp [BitReader.align]⟩

/-- What is left at a byte boundary are the bytes that follow. -/
theorem Holds.align_eq {reader : BitReader} {padding : List Bool} {rest : Bytes}
    (holds : reader.Holds (padding ++ packed rest)) (short : padding.length < 8) :
    reader.align = ofBytes rest := by
  have left := holds.align short (by rw [length_packed, Nat.mul_mod_right])
  have same : packed reader.bytes = packed rest := left.bits
  rw [BitReader.align, ofBytes, packed_injective same]

end BitReader

/-! ### Steps -/

namespace Reading

/-- From any bits that begin with the given ones, the step reads the value and leaves the others. -/
def Reads {α : Type} (step : Reading α) (bits : List Bool) (value : α) : Prop :=
  ∀ reader rest, reader.Holds (bits ++ rest) →
    ∃ after, step reader = .read value after ∧ after.Holds rest

theorem reads_pure {α : Type} (value : α) : (pure value : Reading α).Reads [] value := by
  intro reader rest holds
  exact ⟨reader, rfl, holds⟩

theorem Reads.bind {α β : Type} {first : Reading α} {next : α → Reading β} {front back : List Bool}
    {value : α} {result : β} (reads : first.Reads front value)
    (readsNext : (next value).Reads back result) : (first >>= next).Reads (front ++ back) result := by
  intro reader rest holds
  rw [List.append_assoc] at holds
  obtain ⟨middle, read, left⟩ := reads reader _ holds
  obtain ⟨after, readNext, leftNext⟩ := readsNext middle _ left
  exact ⟨after, (bind_of_read read).trans readNext, leftNext⟩

/-- A step after one that reads nothing more. -/
theorem Reads.bind_pure {α β : Type} {first : Reading α} {next : α → Reading β} {bits : List Bool}
    {value : α} {result : β} (reads : first.Reads bits value)
    (returns : next value = pure result) : (first >>= next).Reads bits result := by
  have readsNext : (next value).Reads [] result := by
    rw [returns]
    exact reads_pure result
  have whole := reads.bind readsNext
  rwa [List.append_nil] at whole

theorem Reads.map {α β : Type} {step : Reading α} {bits : List Bool} {value : α}
    (reads : step.Reads bits value) (f : α → β) : (f <$> step).Reads bits (f value) :=
  reads.bind_pure rfl

theorem reads_bit (b : Bool) : bit.Reads [b] b := by
  rintro ⟨pending, bytes⟩ rest ⟨bits, short⟩
  simp only [BitReader.toBits] at bits short
  cases pending with
  | cons first others =>
    obtain ⟨rfl, left⟩ := List.cons.inj bits
    refine ⟨_, rfl, left, ?_⟩
    rw [List.length_cons] at short
    show others.length < 8
    omega
  | nil =>
    cases bytes with
    | nil => cases bits
    | cons byte others =>
      obtain ⟨rfl, left⟩ := List.cons.inj bits
      refine ⟨_, rfl, left, ?_⟩
      show (bitsOf byte).tail.length < 8
      rw [List.length_tail, length_bitsOf]
      decide

/-- **A number is read back.** -/
theorem reads_bits {width n : Nat} (small : n < 2 ^ width) : (bits width).Reads (lowBits width n) n := by
  induction width generalizing n with
  | zero =>
    rw [Nat.pow_zero] at small
    obtain rfl : n = 0 := by omega
    exact reads_pure 0
  | succ width ih =>
    rw [Nat.pow_succ] at small
    refine (reads_bit (n.testBit 0)).bind ((ih (n := n / 2) (by omega)).bind_pure ?_)
    rw [toNat_testBit_zero_add]

theorem reads_byte (byte : UInt8) : (bits 8).Reads (bitsOf byte) byte.toNat := by
  rw [bitsOf_eq]
  exact reads_bits byte.toNat_lt

/-- Values that are read back one by one are read back together. -/
theorem reads_many {α β : Type} {step : Reading α} {write : β → List Bool} {value : β → α}
    (sources : List β) (reads : ∀ source ∈ sources, step.Reads (write source) (value source)) :
    (many step sources.length).Reads (sources.flatMap write) (sources.map value) := by
  induction sources with
  | nil => exact reads_pure []
  | cons source sources ih =>
    obtain ⟨first, others⟩ := List.forall_mem_cons.mp reads
    rw [List.flatMap_cons]
    exact first.bind ((ih others).bind_pure rfl)

end Reading

end Deflate

end Inflate
