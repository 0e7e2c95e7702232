/-
**The growing output buffer.**

The size of the output is not known beforehand. A buffer starts with a capacity taken from the size
of the input and asks, when it is full, for as much again or at least for one piece, but never for
more than reaches one byte past the limit. The capacity at the start is exactly the one asked for. What a
buffer gets when it grows is a matter of the memory: at least what it asks for, and nothing if that is
too much. The program runs on a memory where a buffer at least doubles, so it may come to hold more than
was asked for.

* `seedCapacity`: the capacity at the start;
* `growth`: for how much more a full buffer asks;
* `Memory`: what a memory gives;
* `Memory.doubling`, `Memory.exact`: the memory of the program, and one that gives what is asked for;
* `Buffer.deliver`: moves a piece of output into a buffer, which grows on the way;
* `Buffer.room_pos_of_makeRoom`: a buffer that has made room is not full.
-/

import Inflate.Bytes
import Inflate.Failure
import Inflate.Options

namespace Inflate

/-! ### Sizes -/

/-- The size of a piece of output. -/
def pieceSize : Nat := 32768

/-- How many times the size of the input is reserved at the start. -/
def seedFactor : Nat := 4

/-- The greatest capacity at the start that is taken from the size of the input. -/
def maxSeed : Nat := 64 * 1024 * 1024

/-- The capacity at the start, before any limit: the one asked for, or a multiple of the size of the
input, but at least one piece and at most `maxSeed`. -/
def wantedCapacity (inputSize : Nat) (options : Options) : Nat :=
  options.initialCapacity.getD (max pieceSize (min (min (inputSize * seedFactor) maxSize) maxSeed))

/-- The capacity at the start. -/
def seedCapacity (inputSize : Nat) (options : Options) : Nat :=
  min (wantedCapacity inputSize options) (saturatingAdd options.limit 1)

/-- For how much more a full buffer of the given size asks: its own size, at least one piece, and never
past one byte more than the limit. -/
def growth (limit size : Nat) : Nat :=
  min (max size pieceSize) (saturatingAdd limit 1 - size)

/-! ### Memory -/

/-- What a memory gives to buffers. A buffer that grows gets at least the capacity it asks for, and memory
runs out only when a full buffer of at least `exhausting` bytes grows. -/
class Memory where
  /-- The least capacity that cannot be reserved. -/
  unreservable : Nat
  /-- The capacity of a buffer after it has grown, by its old one and the one it asks for. -/
  enlarged : Nat → Nat → Nat
  /-- The least size of a full buffer for whose growth memory can run out. -/
  exhausting : Nat
  unreservable_le : unreservable ≤ maxSize
  le_enlarged (capacity asked : Nat) : asked ≤ enlarged capacity asked
  exhausting_le {limit size : Nat} :
    unreservable ≤ enlarged size (size + growth limit size) → exhausting ≤ size

export Memory (unreservable enlarged exhausting le_enlarged)

/-- The least capacity of a buffer that has grown. -/
def leastCapacity : Nat := 8

/-- The memory of the program: a buffer that grows gets at least twice its capacity. -/
instance Memory.doubling : Memory where
  unreservable := 2 ^ 62
  enlarged capacity asked := max leastCapacity (max (2 * capacity) asked)
  exhausting := 2 ^ 61
  unreservable_le := by decide
  le_enlarged capacity asked := by omega
  exhausting_le large := by
    simp only [growth, leastCapacity, pieceSize] at large
    omega

/-- A memory that gives exactly what is asked for, up to the greatest size of an object. -/
@[reducible]
def Memory.exact : Memory where
  unreservable := 2 ^ 63
  enlarged _ asked := asked
  exhausting := 2 ^ 62
  unreservable_le := by decide
  le_enlarged _ asked := Nat.le_refl asked
  exhausting_le large := by
    simp only [growth, pieceSize] at large
    omega

/-! ### Buffers -/

/-- Bytes and how many of them fit without another reservation. -/
structure Buffer where
  bytes : Array UInt8 := #[]
  capacity : Nat := 0

namespace Buffer

/-- The count of bytes. -/
def size (buffer : Buffer) : Nat := buffer.bytes.size

/-- How many more bytes fit. -/
def room (buffer : Buffer) : Nat := buffer.capacity - buffer.size

/-- Adds bytes at the end. -/
def append (buffer : Buffer) (piece : Bytes) : Buffer :=
  { buffer with bytes := buffer.bytes ++ piece.toArray }

/-- The buffer itself, unless it holds more than the limit. -/
def checkLimit (limit : Nat) (buffer : Buffer) : Except Failure Buffer :=
  if limit < buffer.size then .error (.outputLimitExceeded limit) else .ok buffer

section Growing

variable [Memory]

/-- An empty buffer of a given capacity. -/
def reserve (capacity : Nat) : Except Failure Buffer :=
  if capacity < unreservable then .ok { capacity } else .error (.allocation capacity)

/-- The buffer with more capacity. -/
def grow (limit : Nat) (buffer : Buffer) : Except Failure Buffer :=
  if limit < buffer.size then .error (.outputLimitExceeded limit)
  else
    let asked := buffer.size + growth limit buffer.size
    let capacity := enlarged buffer.capacity asked
    if capacity < unreservable then .ok { buffer with capacity }
    else .error (.allocation (min asked maxSize))

/-- The buffer itself, or the grown one if it is full. -/
def makeRoom (limit : Nat) (buffer : Buffer) : Except Failure Buffer :=
  if buffer.capacity ≤ buffer.size then buffer.grow limit else .ok buffer

/-- A buffer that has made room is not full. -/
theorem room_pos_of_makeRoom {limit : Nat} {buffer roomy : Buffer}
    (made : buffer.makeRoom limit = .ok roomy) : 0 < roomy.room := by
  unfold makeRoom at made
  split at made
  · unfold grow at made
    split at made
    · cases made
    · simp only at made
      split at made
      · next within reservable =>
        cases made
        have enough := le_enlarged buffer.capacity (buffer.size + growth limit buffer.size)
        have representable := Memory.unreservable_le
        simp only [room, size, growth, saturatingAdd, maxSize, pieceSize] at *
        omega
      · cases made
  · cases made
    simp only [room]
    omega

/-- Moves a piece of output into the buffer, as much at a time as fits, and fails when the buffer
holds more than the limit. -/
def deliver (limit : Nat) (buffer : Buffer) (piece : Bytes) : Except Failure Buffer :=
  if piece.isEmpty then buffer.checkLimit limit
  else
    match made : buffer.makeRoom limit with
    | .error failure => .error failure
    | .ok roomy =>
      have : 0 < roomy.room := room_pos_of_makeRoom made
      match (roomy.append (piece.take roomy.room)).checkLimit limit with
      | .error failure => .error failure
      | .ok filled => filled.deliver limit (piece.drop roomy.room)
termination_by piece.length
decreasing_by
  have nonempty : piece ≠ [] := by
    intro empty
    simp_all
  have count := List.length_pos_iff.mpr nonempty
  simp only [List.length_drop]
  omega

end Growing

end Buffer

end Inflate
