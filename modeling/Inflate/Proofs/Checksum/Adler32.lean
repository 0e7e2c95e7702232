/-
**Single wrong bytes and the Adler-32.**

Modulo the prime, what two runs of the sums differ by is kept by the bytes that they share: the low
halves differ by the same as before, and the high ones by that much more for each byte. One wrong byte
is therefore seen in the low half. Two of them are only missed by it if what they are wrong by adds up
to zero, and then the high halves differ by the first one's share of the bytes between them, which is
no multiple of the prime.

* `Sums.Apart`: what two runs of the sums differ by;
* `Sums.Apart.foldl`: over the bytes that they share;
* `Sums.value_injective`: sums that are reduced follow from the checksum;
* `adler32_ne_of_one`, `adler32_ne_of_two`: byte strings that differ in one byte, or in two.
-/

import Mathlib
import Inflate.Checksum.Adler32

namespace Inflate

/-- Byte strings whose first difference is at a given place, as what is before it, the two bytes there
and what comes after them. -/
theorem Bytes.exists_wrong_byte {first second : Bytes} {place : Nat}
    (length : first.length = second.length) (wrong : first[place]? ≠ second[place]?)
    (before : ∀ position, position < place → first[position]? = second[position]?) :
    ∃ front byte other rest others, first = front ++ byte :: rest ∧
      second = front ++ other :: others ∧ byte ≠ other ∧ front.length = place ∧
      rest.length = others.length ∧ ∀ position, rest[position]? = first[place + 1 + position]? ∧
        others[position]? = second[place + 1 + position]? := by
  have inside : place < first.length := by
    by_contra outside
    exact wrong ((List.getElem?_eq_none (by omega)).trans (List.getElem?_eq_none (by omega)).symm)
  have parts : ∀ (bytes : Bytes) (within : place < bytes.length),
      bytes = bytes.take place ++ bytes[place] :: bytes.drop (place + 1) := by
    intro bytes within
    rw [← List.drop_eq_getElem_cons within, List.take_append_drop]
  have front : second.take place = first.take place := by
    apply List.ext_getElem?
    intro position
    rw [List.getElem?_take, List.getElem?_take]
    split
    case isTrue early => exact (before position early).symm
    case isFalse => rfl
  refine ⟨first.take place, first[place], second[place], first.drop (place + 1),
    second.drop (place + 1), parts first inside, ?_, ?_,
    List.length_take_of_le inside.le, ?_, ?_⟩
  · rw [← front]
    exact parts second (length ▸ inside)
  · intro same
    rw [List.getElem?_eq_getElem inside, List.getElem?_eq_getElem (length ▸ inside), same] at wrong
    exact wrong rfl
  · rw [List.length_drop, List.length_drop, length]
  · intro position
    exact ⟨List.getElem?_drop, List.getElem?_drop⟩

namespace Adler32

instance modulusPrime : Fact (Nat.Prime modulus) := ⟨by norm_num [modulus]⟩

/-- Nothing between zero and the prime is zero modulo it. -/
theorem cast_ne_zero {n : Nat} (positive : 0 < n) (small : n < modulus) : (n : ZMod modulus) ≠ 0 := by
  intro zero
  have divides := (ZMod.natCast_eq_zero_iff n modulus).mp zero
  exact absurd (Nat.le_of_dvd positive divides) (by omega)

theorem cast_injective {n m : Nat} (small : n < modulus) (otherSmall : m < modulus)
    (same : (n : ZMod modulus) = m) : n = m := by
  have congruent := (ZMod.natCast_eq_natCast_iff' n m modulus).mp same
  rwa [Nat.mod_eq_of_lt small, Nat.mod_eq_of_lt otherSmall] at congruent

namespace Sums

/-! ### What two runs differ by -/

/-- Modulo the prime, the halves of the one are those of the other and the given amounts. -/
structure Apart (sums other : Sums) (low high : ZMod modulus) : Prop where
  low : (sums.low : ZMod modulus) = other.low + low
  high : (sums.high : ZMod modulus) = other.high + high

theorem Apart.refl (sums : Sums) : sums.Apart sums 0 0 :=
  ⟨(add_zero _).symm, (add_zero _).symm⟩

section Runs

variable {sums other : Sums} {low high : ZMod modulus}

/-- After a byte each. -/
theorem Apart.add (apart : sums.Apart other low high) (byte otherByte : UInt8) :
    (sums.add byte).Apart (other.add otherByte) (low + (byte.toNat - otherByte.toNat))
      (high + low + (byte.toNat - otherByte.toNat)) := by
  constructor
  · simp only [Sums.add, ZMod.natCast_mod, Nat.cast_add, apart.low]
    ring
  · simp only [Sums.add, ZMod.natCast_mod, Nat.cast_add, apart.low, apart.high]
    ring

/-- **Over bytes that both read.** -/
theorem Apart.foldl (apart : sums.Apart other low high) (bytes : Bytes) :
    (bytes.foldl Sums.add sums).Apart (bytes.foldl Sums.add other) low
      (high + bytes.length * low) := by
  induction bytes generalizing sums other high with
  | nil => simpa using apart
  | cons byte rest ih =>
    have next := apart.add byte byte
    rw [sub_self, add_zero, add_zero] at next
    have grouped : high + low + rest.length * low = high + (byte :: rest).length * low := by
      rw [List.length_cons]
      push_cast
      ring
    rw [← grouped]
    exact ih next

theorem Apart.eq_zero (apart : sums.Apart other low high) (same : sums = other) :
    low = 0 ∧ high = 0 := by
  subst same
  exact ⟨left_eq_add.mp apart.low, left_eq_add.mp apart.high⟩

end Runs

/-! ### What the checksum tells -/

/-- Both halves are residues. -/
structure Reduced (sums : Sums) : Prop where
  low : sums.low < modulus
  high : sums.high < modulus

theorem reduced_add (sums : Sums) (byte : UInt8) : (sums.add byte).Reduced :=
  ⟨Nat.mod_lt _ (by decide), Nat.mod_lt _ (by decide)⟩

theorem Reduced.foldl {sums : Sums} (reduced : sums.Reduced) (bytes : Bytes) :
    (bytes.foldl Sums.add sums).Reduced := by
  induction bytes generalizing sums with
  | nil => exact reduced
  | cons byte rest ih => exact ih (reduced_add sums byte)

/-- **Reduced sums follow from the checksum.** -/
theorem value_injective {sums other : Sums} (reduced : sums.Reduced) (otherReduced : other.Reduced)
    (same : sums.value = other.value) : sums = other := by
  obtain ⟨low, high⟩ := sums
  obtain ⟨otherLow, otherHigh⟩ := other
  have bounds : low < 65521 ∧ high < 65521 := ⟨reduced.low, reduced.high⟩
  have otherBounds : otherLow < 65521 ∧ otherHigh < 65521 := ⟨otherReduced.low, otherReduced.high⟩
  have numbers := congrArg UInt32.toNat same
  simp only [value] at numbers
  rw [UInt32.toNat_ofNat_of_lt' (show 65536 * high + low < 2 ^ 32 by omega),
    UInt32.toNat_ofNat_of_lt' (show 65536 * otherHigh + otherLow < 2 ^ 32 by omega)] at numbers
  obtain ⟨rfl, rfl⟩ : low = otherLow ∧ high = otherHigh := by omega
  rfl

theorem reduced_initial : initial.Reduced := ⟨by decide, by decide⟩

end Sums

/-- Byte strings with one checksum end with the same sums. -/
theorem foldl_eq_of_adler32_eq {first second : Bytes} (same : adler32 first = adler32 second) :
    first.foldl Sums.add .initial = second.foldl Sums.add .initial :=
  Sums.value_injective (Sums.reduced_initial.foldl first) (Sums.reduced_initial.foldl second) same

/-- Bytes that are congruent are the same. -/
theorem byte_sub_ne_zero {byte other : UInt8} (different : byte ≠ other) :
    (byte.toNat - other.toNat : ZMod modulus) ≠ 0 := by
  intro zero
  have small : byte.toNat < modulus := byte.toNat_lt.trans (by decide)
  have otherSmall : other.toNat < modulus := other.toNat_lt.trans (by decide)
  exact different (UInt8.toNat_inj.mp (cast_injective small otherSmall (sub_eq_zero.mp zero)))

/-! ### Wrong bytes -/

/-- **One wrong byte** is seen in the low half. -/
theorem adler32_ne_of_one (front back : Bytes) {byte wrong : UInt8} (different : byte ≠ wrong) :
    adler32 (front ++ byte :: back) ≠ adler32 (front ++ wrong :: back) := by
  intro same
  have sums := foldl_eq_of_adler32_eq same
  simp only [List.foldl_append, List.foldl_cons] at sums
  have after := ((Sums.Apart.refl (front.foldl Sums.add .initial)).add byte wrong).foldl back
  have low := (after.eq_zero sums).1
  rw [zero_add] at low
  exact byte_sub_ne_zero different low

/-- **Two wrong bytes** are seen in one of the halves, unless the prime divides their distance. -/
theorem adler32_ne_of_two (front middle back : Bytes) {byte wrong last otherWrong : UInt8}
    (different : byte ≠ wrong) (close : middle.length + 1 < modulus) :
    adler32 (front ++ byte :: (middle ++ last :: back))
      ≠ adler32 (front ++ wrong :: (middle ++ otherWrong :: back)) := by
  intro same
  have sums := foldl_eq_of_adler32_eq same
  simp only [List.foldl_append, List.foldl_cons] at sums
  have after := ((((Sums.Apart.refl (front.foldl Sums.add .initial)).add byte wrong).foldl
    middle).add last otherWrong).foldl back
  obtain ⟨low, high⟩ := after.eq_zero sums
  -- The low halves cancel, and so the high ones differ by the bytes from the first one on.
  rw [low, mul_zero, add_zero] at high
  have share : ((middle.length + 1 : ℕ) : ZMod modulus)
      * ((byte.toNat : ZMod modulus) - wrong.toNat) = 0 := by
    push_cast
    linear_combination high - low
  rcases mul_eq_zero.mp share with distance | bytes
  · exact cast_ne_zero (Nat.succ_pos _) close distance
  · exact byte_sub_ne_zero different bytes

/-- **One or two wrong bytes are noticed**: byte strings of one length that differ at two places, less
than the prime apart, or at one, and nowhere else, have different checksums. -/
theorem adler32_ne_of_places {first second : Bytes} {place last : Nat}
    (length : first.length = second.length) (order : place ≤ last) (close : last < place + modulus)
    (wrong : ∀ position, first[position]? ≠ second[position]? ↔ position = place ∨ position = last) :
    adler32 first ≠ adler32 second := by
  have agree : ∀ position, position ≠ place → position ≠ last →
      first[position]? = second[position]? := by
    intro position notFirst notLast
    by_contra other
    rcases (wrong position).mp other with same | same
    · exact notFirst same
    · exact notLast same
  obtain ⟨front, byte, other, rest, others, rfl, rfl, different, -, sizes, tails⟩ :=
    Bytes.exists_wrong_byte length ((wrong place).mpr (Or.inl rfl))
      (fun position early => agree position (by omega) (by omega))
  rcases Nat.eq_or_lt_of_le order with same | later
  · have tail : rest = others := by
      apply List.ext_getElem?
      intro position
      rw [(tails position).1, (tails position).2]
      exact agree _ (by omega) (by omega)
    rw [tail]
    exact adler32_ne_of_one front others different
  · have wrongLast : rest[last - place - 1]? ≠ others[last - place - 1]? := by
      rw [(tails _).1, (tails _).2, show place + 1 + (last - place - 1) = last by omega]
      exact (wrong last).mpr (Or.inr rfl)
    obtain ⟨middle, lastByte, otherLast, back, otherBack, rfl, rfl, -, between, -, ends⟩ :=
      Bytes.exists_wrong_byte sizes wrongLast fun position early => by
        rw [(tails position).1, (tails position).2]
        exact agree _ (by omega) (by omega)
    have tail : back = otherBack := by
      apply List.ext_getElem?
      intro position
      rw [(ends position).1, (ends position).2, (tails _).1, (tails _).2]
      exact agree _ (by omega) (by omega)
    rw [tail]
    exact adler32_ne_of_two front middle otherBack different (by omega)

end Adler32

end Inflate
