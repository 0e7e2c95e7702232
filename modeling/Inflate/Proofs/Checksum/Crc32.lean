/-
**Bursts of errors and the CRC-32.**

A shift of the register is linear in exclusive or, and no two registers shift to the same one: the
polynomial has its highest bit set where a register that was shifted has none. So registers that
differ go on to differ over the same bytes. Over different bytes, registers that agree after the last
of `n` bytes, `n` at most four, differed before the first one by less than `256 ^ n`; if they did not
differ at all then neither did the bytes.

* `shift_xor`, `shift_injective`: one shift of the register;
* `foldl_add_injective`: the register over the same bytes;
* `agree_of_foldl_add_eq`: the register over up to four different bytes;
* `crc32_ne_of_burst`: byte strings that differ within four bytes in a row.
-/

import Mathlib
import Inflate.Checksum.Crc32

namespace Inflate

namespace Crc32

/-! ### One shift -/

theorem and_one_toNat (register : UInt32) : (register &&& 1).toNat = register.toNat % 2 := by
  rw [UInt32.toNat_and]
  exact Nat.and_one_is_mod _

theorem and_one_cases (register : UInt32) : register &&& 1 = 0 ∨ register &&& 1 = 1 := by
  have low := and_one_toNat register
  rcases Nat.mod_two_eq_zero_or_one register.toNat with even | odd
  · exact Or.inl (UInt32.toNat_inj.mp (low.trans even))
  · exact Or.inr (UInt32.toNat_inj.mp (low.trans odd))

theorem xor_and_one (first second : UInt32) :
    (first ^^^ second) &&& 1 = (first &&& 1) ^^^ (second &&& 1) := by
  apply UInt32.toNat_inj.mp
  simp only [UInt32.toNat_and, UInt32.toNat_xor]
  exact Nat.and_xor_distrib_right

theorem shift_of_even {register : UInt32} (even : register &&& 1 = 0) :
    shift register = register >>> 1 := by
  rw [shift, even, if_neg (by decide)]

theorem shift_of_odd {register : UInt32} (odd : register &&& 1 = 1) :
    shift register = (register >>> 1) ^^^ polynomial := by
  rw [shift, if_pos odd]

/-- **A shift is linear.** -/
theorem shift_xor (first second : UInt32) :
    shift (first ^^^ second) = shift first ^^^ shift second := by
  have low := xor_and_one first second
  have shifted : (first ^^^ second) >>> 1 = (first >>> 1) ^^^ (second >>> 1) :=
    UInt32.shiftRight_xor
  rcases and_one_cases first with even | odd <;>
    rcases and_one_cases second with otherEven | otherOdd
  · rw [even, otherEven] at low
    rw [shift_of_even low, shift_of_even even, shift_of_even otherEven, shifted]
  · rw [even, otherOdd] at low
    rw [shift_of_odd low, shift_of_even even, shift_of_odd otherOdd, shifted, UInt32.xor_assoc]
  · rw [odd, otherEven] at low
    rw [shift_of_odd low, shift_of_odd odd, shift_of_even otherEven, shifted]
    ac_rfl
  -- Where both drop a bit, the polynomial is added twice.
  · rw [odd, otherOdd] at low
    rw [shift_of_even low, shift_of_odd odd, shift_of_odd otherOdd, shifted, UInt32.xor_assoc,
      UInt32.xor_comm polynomial, UInt32.xor_assoc, UInt32.xor_self, UInt32.xor_zero]

/-- A register that was shifted has no highest bit, and the polynomial has one. -/
theorem shiftRight_ne_polynomial (register : UInt32) : register >>> 1 ≠ polynomial := by
  intro same
  have value := congrArg UInt32.toNat same
  rw [UInt32.toNat_shiftRight] at value
  have half : register.toNat >>> 1 = register.toNat / 2 := Nat.shiftRight_one _
  have high : polynomial.toNat = 0xEDB88320 := rfl
  have small := register.toNat_lt
  have shifted : register.toNat >>> 1 = 0xEDB88320 := value.trans high
  omega

/-- Only the zero register shifts to zero. -/
theorem eq_zero_of_shift {register : UInt32} (zero : shift register = 0) : register = 0 := by
  rcases and_one_cases register with even | odd
  · have low : register.toNat % 2 = 0 :=
      (and_one_toNat register).symm.trans (congrArg UInt32.toNat even)
    have half : register.toNat >>> 1 = 0 :=
      congrArg UInt32.toNat ((shift_of_even even).symm.trans zero)
    rw [Nat.shiftRight_one] at half
    exact UInt32.toNat_inj.mp (show register.toNat = 0 by omega)
  · rw [shift_of_odd odd] at zero
    exact absurd (UInt32.xor_eq_zero_iff.mp zero) (shiftRight_ne_polynomial register)

/-- **No two registers shift to the same one.** -/
theorem shift_injective : Function.Injective shift := by
  intro first second same
  refine UInt32.xor_eq_zero_iff.mp (eq_zero_of_shift ?_)
  rw [shift_xor, same, UInt32.xor_self]

/-- A register whose lowest bit is clear is halved. -/
theorem shift_ofNat_double {n : Nat} (small : 2 * n < 2 ^ 32) :
    shift (UInt32.ofNat (2 * n)) = UInt32.ofNat n := by
  have value : (UInt32.ofNat (2 * n)).toNat = 2 * n := UInt32.toNat_ofNat_of_lt' small
  have even : UInt32.ofNat (2 * n) &&& 1 = 0 := by
    apply UInt32.toNat_inj.mp
    rw [and_one_toNat, value]
    exact Nat.mul_mod_right 2 n
  rw [shift_of_even even]
  apply UInt32.toNat_inj.mp
  rw [UInt32.toNat_shiftRight, value, UInt32.toNat_ofNat_of_lt' (show n < 2 ^ 32 by omega)]
  exact (Nat.shiftRight_one _).trans (by omega)

/-! ### One byte -/

theorem shiftByte_eq (register : UInt32) : shiftByte register = shift^[8] register := rfl

theorem iterate_shift_xor (times : Nat) (first second : UInt32) :
    shift^[times] (first ^^^ second) = shift^[times] first ^^^ shift^[times] second := by
  induction times generalizing first second with
  | zero => rfl
  | succ times ih => rw [Function.iterate_succ_apply, shift_xor, ih]; rfl

theorem iterate_shift_ofNat {times n : Nat} (small : 2 ^ times * n < 2 ^ 32) :
    shift^[times] (UInt32.ofNat (2 ^ times * n)) = UInt32.ofNat n := by
  induction times with
  | zero => rw [Nat.pow_zero, Nat.one_mul]; rfl
  | succ times ih =>
    rw [Nat.pow_succ', Nat.mul_assoc] at small
    rw [Nat.pow_succ', Nat.mul_assoc, Function.iterate_succ_apply, shift_ofNat_double small,
      ih (by omega)]

theorem add_injective_left (byte : UInt8) : Function.Injective fun register => add register byte := by
  intro first second same
  exact (UInt32.xor_left_inj _).mp (shift_injective.iterate 8 same)

/-- What two registers differ by after a byte each. -/
theorem add_xor_add (first second : UInt32) (byte other : UInt8) :
    add first byte ^^^ add second other
      = shiftByte ((first ^^^ second) ^^^ (byte ^^^ other).toUInt32) := by
  have grouped : (first ^^^ second) ^^^ (byte ^^^ other).toUInt32
      = (first ^^^ byte.toUInt32) ^^^ (second ^^^ other.toUInt32) := by
    rw [UInt8.toUInt32_xor]
    ac_rfl
  rw [grouped, add, add, shiftByte_eq, shiftByte_eq, shiftByte_eq,
    iterate_shift_xor 8 (first ^^^ byte.toUInt32)]

/-- The difference before a byte, where the one after it leaves the highest byte clear. -/
theorem xor_eq_of_add_xor_add {first second : UInt32} {byte other : UInt8} {n : Nat}
    (after : (add first byte ^^^ add second other).toNat = n) (small : 256 * n < 2 ^ 32) :
    (first ^^^ second) ^^^ (byte ^^^ other).toUInt32 = UInt32.ofNat (256 * n) := by
  apply shift_injective.iterate 8
  calc shift^[8] ((first ^^^ second) ^^^ (byte ^^^ other).toUInt32)
      = add first byte ^^^ add second other := (add_xor_add first second byte other).symm
    _ = UInt32.ofNat n := by rw [← after, UInt32.ofNat_toNat]
    _ = shift^[8] (UInt32.ofNat (256 * n)) := (iterate_shift_ofNat small).symm

/-! ### Byte strings -/

/-- **The same bytes keep registers apart.** -/
theorem foldl_add_injective (bytes : Bytes) :
    Function.Injective fun register => bytes.foldl add register := by
  induction bytes with
  | nil => exact Function.injective_id
  | cons byte rest ih => exact ih.comp (add_injective_left byte)

/-- **Registers that agree after a few bytes** differed by little before them, and if they agreed
then, so do the bytes. -/
theorem agree_of_foldl_add_eq {first second : Bytes} {register other : UInt32}
    (length : first.length = second.length) (short : first.length ≤ 4)
    (same : first.foldl add register = second.foldl add other) :
    (register ^^^ other).toNat < 256 ^ first.length ∧ (register = other → first = second) := by
  induction first generalizing second register other with
  | nil =>
    obtain rfl : second = [] := List.length_eq_zero_iff.mp length.symm
    have agree : register = other := same
    rw [agree, UInt32.xor_self]
    exact ⟨by decide, fun _ => rfl⟩
  | cons byte rest ih =>
    obtain ⟨otherByte, others, rfl⟩ : ∃ otherByte others, second = otherByte :: others :=
      List.exists_cons_of_length_eq_add_one length.symm
    rw [List.length_cons] at short
    obtain ⟨close, tail⟩ := ih (Nat.succ.inj length) (by omega) same
    obtain ⟨n, after⟩ : ∃ n, (add register byte ^^^ add other otherByte).toNat = n := ⟨_, rfl⟩
    rw [after] at close
    have size : 256 ^ (rest.length + 1) ≤ 256 ^ 4 := Nat.pow_le_pow_right (by decide) short
    have bound : 256 * n < 256 ^ (rest.length + 1) := by
      rw [Nat.pow_succ']
      omega
    have before := xor_eq_of_add_xor_add after (by omega)
    have byteBound : (byte ^^^ otherByte).toUInt32.toNat < 256 :=
      (UInt8.toNat_toUInt32 _).trans_lt (UInt8.toNat_lt _)
    constructor
    · have apart : register ^^^ other
          = UInt32.ofNat (256 * n) ^^^ (byte ^^^ otherByte).toUInt32 := by
        rw [← before, UInt32.xor_assoc, UInt32.xor_self, UInt32.xor_zero]
      have power : 256 ^ (rest.length + 1) = 2 ^ (8 * (rest.length + 1)) := by
        rw [Nat.pow_mul]
      rw [apart, UInt32.toNat_xor, List.length_cons, power,
        UInt32.toNat_ofNat_of_lt' (show 256 * n < 2 ^ 32 by omega)]
      refine Nat.xor_lt_two_pow (power ▸ bound) (power ▸ byteBound.trans_le ?_)
      exact Nat.le_self_pow (Nat.succ_ne_zero _) 256
    · intro agree
      -- The difference of the bytes is below 256 and a multiple of it.
      rw [agree, UInt32.xor_self, UInt32.zero_xor] at before
      have value := congrArg UInt32.toNat before
      rw [UInt32.toNat_ofNat_of_lt' (show 256 * n < 2 ^ 32 by omega)] at value
      have none : (byte ^^^ otherByte).toNat = 0 := by
        rw [UInt8.toNat_toUInt32] at value byteBound
        omega
      have bytes : byte = otherByte := UInt8.xor_eq_zero_iff.mp (UInt8.toNat_inj.mp none)
      rw [bytes, tail (by rw [bytes, agree])]

/-- Byte strings that differ in a few bytes in a row only, as what is around these bytes and them. -/
theorem exists_window {first second : Bytes} {start width : Nat}
    (length : first.length = second.length)
    (within : ∀ position, first[position]? ≠ second[position]? →
      start ≤ position ∧ position < start + width) :
    ∃ front u v back, first = front ++ (u ++ back) ∧ second = front ++ (v ++ back) ∧
      u.length = v.length ∧ u.length ≤ width := by
  have parts : ∀ bytes : Bytes, bytes
      = bytes.take start ++ ((bytes.drop start).take width ++ bytes.drop (start + width)) := by
    intro bytes
    rw [← List.drop_drop, List.take_append_drop, List.take_append_drop]
  have front : second.take start = first.take start := by
    apply List.ext_getElem?
    intro position
    rw [List.getElem?_take, List.getElem?_take]
    split
    · by_contra other
      have atLeast := (within position (Ne.symm other)).1
      omega
    · rfl
  have back : second.drop (start + width) = first.drop (start + width) := by
    apply List.ext_getElem?
    intro position
    rw [List.getElem?_drop, List.getElem?_drop]
    by_contra other
    have below := (within _ (Ne.symm other)).2
    omega
  refine ⟨first.take start, (first.drop start).take width, (second.drop start).take width,
    first.drop (start + width), parts first, ?_, ?_, List.length_take_le _ _⟩
  · rw [← front, ← back]
    exact parts second
  · simp only [List.length_take, List.length_drop, length]

/-- **A burst is noticed**: byte strings of one length that differ within four bytes in a row, and
nowhere else, have different checksums. -/
theorem crc32_ne_of_burst {first second : Bytes} {start : Nat}
    (length : first.length = second.length) (different : first ≠ second)
    (within : ∀ position, first[position]? ≠ second[position]? →
      start ≤ position ∧ position < start + 4) :
    crc32 first ≠ crc32 second := by
  obtain ⟨front, u, v, back, rfl, rfl, sizes, short⟩ := exists_window length within
  intro same
  rw [crc32, crc32, UInt32.xor_left_inj] at same
  simp only [List.foldl_append] at same
  have windows : u = v :=
    (agree_of_foldl_add_eq sizes short (foldl_add_injective back same)).2 rfl
  exact different (by rw [windows])

end Crc32

end Inflate
