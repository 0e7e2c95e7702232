/-
**Byte strings and the numbers written in them.**

A byte string is a list of bytes. Container formats write numbers in a fixed count of bytes, either
with the least significant byte first (gzip) or with the most significant one first (zlib).

* `littleEndian_ofLittleEndian`: what is written least significant byte first reads back, modulo
  the width;
* `ofLittleEndian_littleEndian`: what is read least significant byte first is written back;
* `bigEndian_eq_littleEndian_reverse`: the two orders are each other's reversal.
-/

namespace Inflate

/-- Powers of naturals are the ones of the core library, also where a module knows monoids. -/
@[default_instance high]
instance (priority := high) naturalPower : Pow Nat Nat := instPowNat

/-- A byte string. -/
abbrev Bytes := List UInt8

namespace Bytes

/-! ### Least significant byte first -/

/-- The number whose bytes are listed from the least significant one on. -/
def littleEndian : Bytes → Nat
  | [] => 0
  | byte :: rest => byte.toNat + 256 * littleEndian rest

/-- The lowest `width` bytes of a number, from the least significant one on. -/
def ofLittleEndian : Nat → Nat → Bytes
  | 0, _ => []
  | width + 1, n => UInt8.ofNat n :: ofLittleEndian width (n / 256)

@[simp] theorem length_ofLittleEndian (width n : Nat) :
    (ofLittleEndian width n).length = width := by
  induction width generalizing n with
  | zero => rfl
  | succ width ih => simp [ofLittleEndian, ih]

/-- Writing and reading keeps a number modulo the width. -/
theorem littleEndian_ofLittleEndian (width n : Nat) :
    littleEndian (ofLittleEndian width n) = n % 256 ^ width := by
  induction width generalizing n with
  | zero => simp [ofLittleEndian, littleEndian, Nat.mod_one]
  | succ width ih =>
    have low : (UInt8.ofNat n).toNat = n % 256 := by simp
    rw [ofLittleEndian, littleEndian, ih, low, Nat.pow_succ', Nat.mod_mul]

theorem littleEndian_lt (bytes : Bytes) : littleEndian bytes < 256 ^ bytes.length := by
  induction bytes with
  | nil => decide
  | cons byte rest ih =>
    have small := byte.toNat_lt
    rw [littleEndian, List.length_cons, Nat.pow_succ']
    omega

/-- Reading and writing keeps the bytes. -/
theorem ofLittleEndian_littleEndian (bytes : Bytes) :
    ofLittleEndian bytes.length (littleEndian bytes) = bytes := by
  induction bytes with
  | nil => rfl
  | cons byte rest ih =>
    have small := byte.toNat_lt
    have low : UInt8.ofNat (byte.toNat + 256 * littleEndian rest) = byte := by
      apply UInt8.toNat_inj.mp
      rw [UInt8.toNat_ofNat']
      omega
    have high : (byte.toNat + 256 * littleEndian rest) / 256 = littleEndian rest := by omega
    rw [littleEndian, List.length_cons, ofLittleEndian, low, high, ih]

/-! ### Most significant byte first -/

/-- The number whose bytes are listed from the most significant one on. -/
def bigEndian (bytes : Bytes) : Nat :=
  bytes.foldl (fun n byte => 256 * n + byte.toNat) 0

/-- The lowest `width` bytes of a number, from the most significant one on. -/
def ofBigEndian (width n : Nat) : Bytes :=
  (ofLittleEndian width n).reverse

theorem bigEndian_append_singleton (bytes : Bytes) (byte : UInt8) :
    bigEndian (bytes ++ [byte]) = 256 * bigEndian bytes + byte.toNat := by
  simp [bigEndian, List.foldl_append]

/-- Reading from the other end is reading the reversal. -/
theorem bigEndian_eq_littleEndian_reverse (bytes : Bytes) :
    bigEndian bytes = littleEndian bytes.reverse := by
  suffices reversed : ∀ l : Bytes, bigEndian l.reverse = littleEndian l by
    simpa using reversed bytes.reverse
  intro l
  induction l with
  | nil => rfl
  | cons byte rest ih =>
    rw [List.reverse_cons, bigEndian_append_singleton, ih, littleEndian, Nat.add_comm]

theorem bigEndian_lt (bytes : Bytes) : bigEndian bytes < 256 ^ bytes.length := by
  rw [bigEndian_eq_littleEndian_reverse, ← List.length_reverse]
  exact littleEndian_lt bytes.reverse

/-- Writing and reading keeps a number modulo the width. -/
theorem bigEndian_ofBigEndian (width n : Nat) :
    bigEndian (ofBigEndian width n) = n % 256 ^ width := by
  rw [bigEndian_eq_littleEndian_reverse, ofBigEndian, List.reverse_reverse,
    littleEndian_ofLittleEndian]

end Bytes

end Inflate
