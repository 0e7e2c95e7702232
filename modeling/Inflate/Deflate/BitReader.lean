/-
**Reading a byte string bit by bit.**

DEFLATE packs bits into bytes from the least significant bit on, and writes numbers with their lowest
bit first. A reader holds the unread bits of the byte that is being read and the bytes after it. A
reading step gives a value and the reader after it, or ends because the input is short, or meets a
fault; the last two are kept apart, since more input may mend the first and never the second.

* `Reading.Consumes`: a step takes at least a given count of bits;
* `consumes_bit`, `consumes_bits`, `Consumes.bind`: how many bits the steps take.
-/

import Inflate.Bytes

namespace Inflate

namespace Deflate

/-! ### Readers -/

/-- The bits of a byte, from the least significant one on. -/
def bitsOf (byte : UInt8) : List Bool :=
  let n := byte.toNat
  [n.testBit 0, n.testBit 1, n.testBit 2, n.testBit 3,
    n.testBit 4, n.testBit 5, n.testBit 6, n.testBit 7]

@[simp] theorem length_bitsOf (byte : UInt8) : (bitsOf byte).length = 8 := rfl

/-- The unread bits of the current byte, and the bytes after it. -/
structure BitReader where
  pending : List Bool := []
  bytes : Bytes
deriving DecidableEq, Repr

namespace BitReader

/-- A reader at the front of a byte string. -/
def ofBytes (bytes : Bytes) : BitReader := { bytes }

/-- All unread bits. -/
def toBits (reader : BitReader) : List Bool :=
  reader.pending ++ reader.bytes.flatMap bitsOf

/-- The count of unread bits. -/
def size (reader : BitReader) : Nat :=
  reader.pending.length + 8 * reader.bytes.length

theorem length_toBits (reader : BitReader) : reader.toBits.length = reader.size := by
  obtain ⟨pending, bytes⟩ := reader
  simp only [toBits, size, List.length_append, Nat.add_left_cancel_iff]
  induction bytes with
  | nil => rfl
  | cons byte rest ih => simp only [List.flatMap_cons, List.length_append, ih, length_bitsOf,
      List.length_cons]; omega

/-- The reader at the next byte boundary. -/
def align (reader : BitReader) : BitReader := { bytes := reader.bytes }

theorem size_align_le (reader : BitReader) : reader.align.size ≤ reader.size := by
  simp [align, size]

end BitReader

/-! ### Reading steps -/

/-- The outcome of a reading step. -/
inductive Scan (α : Type) where
  | read (value : α) (rest : BitReader)
  | short
  | fault

/-- A reading step. -/
def Reading (α : Type) : Type := BitReader → Scan α

namespace Reading

/-- The step that reads nothing. -/
protected def pure {α : Type} (value : α) : Reading α := fun reader => .read value reader

/-- One step after another. -/
protected def bind {α β : Type} (first : Reading α) (next : α → Reading β) : Reading β :=
  fun reader =>
    match first reader with
    | .read value rest => next value rest
    | .short => .short
    | .fault => .fault

instance : Monad Reading where
  pure := Reading.pure
  bind := Reading.bind

/-- The step that meets a fault. -/
def fault {α : Type} : Reading α := fun _ => .fault

/-- Skips to the next byte boundary. -/
def align : Reading Unit := fun reader => .read () reader.align

/-- The next bit. -/
def bit : Reading Bool := fun reader =>
  match reader.pending with
  | b :: rest => .read b { reader with pending := rest }
  | [] =>
    match reader.bytes with
    | [] => .short
    | byte :: rest => .read (byte.toNat.testBit 0) ⟨(bitsOf byte).tail, rest⟩

/-- A number of `width` bits, the lowest one first. -/
def bits : Nat → Reading Nat
  | 0 => pure 0
  | width + 1 => do
    let low ← bit
    let high ← bits width
    pure (low.toNat + 2 * high)

/-- `count` values of one step. -/
def many {α : Type} (step : Reading α) : Nat → Reading (List α)
  | 0 => pure []
  | count + 1 => do
    let value ← step
    let rest ← many step count
    pure (value :: rest)

/-! ### How many bits a step takes -/

/-- A step that gives a value takes at least `count` bits. -/
def Consumes {α : Type} (step : Reading α) (count : Nat) : Prop :=
  ∀ reader value rest, step reader = .read value rest → rest.size + count ≤ reader.size

theorem Consumes.mono {α : Type} {step : Reading α} {count fewer : Nat}
    (consumes : step.Consumes count) (le : fewer ≤ count) : step.Consumes fewer :=
  fun reader value rest read => by
    have taken := consumes reader value rest read
    omega

theorem consumes_pure {α : Type} (value : α) : (pure value : Reading α).Consumes 0 := by
  intro reader other rest read
  cases read
  exact Nat.le_refl _

theorem consumes_fault {α : Type} (count : Nat) : (fault : Reading α).Consumes count := by
  intro reader value rest read
  cases read

theorem Consumes.bind {α β : Type} {first : Reading α} {next : α → Reading β} {m n : Nat}
    (front : first.Consumes m) (back : ∀ value, (next value).Consumes n) :
    (first >>= next).Consumes (m + n) := by
  intro reader value rest read
  change Reading.bind first next reader = _ at read
  unfold Reading.bind at read
  split at read
  · next middle between firstRead =>
    have taken := front _ _ _ firstRead
    have left := back _ _ _ _ read
    omega
  · cases read
  · cases read

theorem consumes_align : align.Consumes 0 := by
  intro reader value rest read
  cases read
  exact reader.size_align_le

theorem consumes_bit : bit.Consumes 1 := by
  intro reader value rest read
  obtain ⟨pending, bytes⟩ := reader
  cases pending with
  | cons b others =>
    cases read
    simp only [BitReader.size, List.length_cons]
    omega
  | nil =>
    cases bytes with
    | nil => cases read
    | cons byte others =>
      cases read
      simp only [BitReader.size, List.length_tail, length_bitsOf, List.length_nil, List.length_cons]
      omega

theorem consumes_bits (width : Nat) : (bits width).Consumes width := by
  induction width with
  | zero => exact consumes_pure 0
  | succ width ih =>
    have taken : (bits (width + 1)).Consumes (1 + (width + 0)) :=
      consumes_bit.bind fun low => ih.bind fun high => consumes_pure (low.toNat + 2 * high)
    exact taken.mono (by omega)

theorem consumes_many {α : Type} (step : Reading α) (count : Nat) (consumes : step.Consumes 0) :
    (many step count).Consumes 0 := by
  induction count with
  | zero => exact consumes_pure []
  | succ count ih => exact consumes.bind fun value => (ih.bind fun rest => consumes_pure _)

end Reading

end Deflate

end Inflate
