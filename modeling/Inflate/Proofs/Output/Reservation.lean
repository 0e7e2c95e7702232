/-
**Buffers of different capacities.**

The capacity a buffer starts with depends on the size of the whole input, so a part of an input is decoded
into another buffer than the whole of it. That makes no difference to what is decoded: the capacities
differ only for inputs that are too small to exhaust memory, and then only what the buffers hold and the
limit count.

* `Interchangeable`: two buffers that do the same for an input of a given size;
* `exists_decodeInto`, `decodeInto_of_lt`: a stream that is small enough is decoded into any buffer, and
  one that does not keep to the limit into none;
* `interchangeable_seed`: the buffers at the start for an input and for a part of it;
* `decodeInto_interchange`: a stream is decoded into either of them in the same way;
* `decodeInto_beginning`: the beginning of an input that is decoded as a whole.
-/

import Inflate.Proofs.Deflate.Expansion
import Inflate.Proofs.Output.Continuation

namespace Inflate

open Deflate (expansion inflate ratio)

/-- An output that keeps to the limit is refused only for its size. -/
theorem Refusal.exhausting_le_of_under [Memory] {limit total : Nat} {failure : Failure}
    (refused : Refusal limit total failure) (under : total ≤ limit) : exhausting ≤ total :=
  (refused.exhausts (Or.inl under)).1

/-! ### Complete streams -/

section Complete

variable [Memory] {frame : Frame} {input rest : Bytes} {buffer : Buffer}
  (sound : buffer.Sound) (complete : frame.verdict input = .complete rest)

include sound complete

/-- A complete stream is decoded into the buffer, or refused for its size. -/
theorem ends_decodeInto (limit : Nat) :
    Ends (decodeInto frame limit input buffer)
      (fun decoded => decoded.1 = rest ∧
        decoded.2.Holds limit (buffer.bytes.toList ++ (inflate input).1))
      (Refusal limit (buffer.bytes.toList ++ (inflate input).1).length) := by
  have delivered := decodeInto_spec frame limit input sound
  rw [complete] at delivered
  exact delivered.ends

/-- **A complete stream is decoded** if its output keeps to the limit and cannot exhaust memory. -/
theorem exists_decodeInto {limit : Nat}
    (under : (buffer.bytes.toList ++ (inflate input).1).length ≤ limit)
    (small : (buffer.bytes.toList ++ (inflate input).1).length < exhausting) :
    ∃ filled, decodeInto frame limit input buffer = .ok (rest, filled) ∧
      filled.Holds limit (buffer.bytes.toList ++ (inflate input).1) := by
  have ends := ends_decodeInto sound complete limit
  cases outcome : decodeInto frame limit input buffer with
  | error failure =>
    rw [outcome] at ends
    exact absurd (Refusal.exhausting_le_of_under ends under) (Nat.not_le.mpr small)
  | ok result =>
    obtain ⟨_, filled⟩ := result
    obtain ⟨rfl, holds⟩ := ends.of_ok outcome
    exact ⟨filled, rfl, holds⟩

/-- **A complete stream is refused** if its output does not keep to the limit. -/
theorem decodeInto_of_lt {limit : Nat}
    (beyond : limit < (buffer.bytes.toList ++ (inflate input).1).length)
    (small : (buffer.bytes.toList ++ (inflate input).1).length < exhausting) :
    decodeInto frame limit input buffer = .error (.outputLimitExceeded limit) := by
  have ends := ends_decodeInto sound complete limit
  cases outcome : decodeInto frame limit input buffer with
  | ok result =>
    obtain ⟨-, holds⟩ := ends.of_ok outcome
    exact absurd (holds.size_eq ▸ holds.under) (Nat.not_le.mpr beyond)
  | error failure =>
    rw [outcome] at ends
    cases ends with
    | limit => rfl
    | memory asked large => exact absurd small (Nat.not_lt.mpr large)

end Complete

/-! ### Buffers that do the same -/

/-- The buffers hold the same. They are the same, or `count` more bytes of a stream cannot exhaust
memory. -/
structure Interchangeable (count : Nat) (buffer other : Buffer) : Prop where
  bytes : buffer.bytes = other.bytes
  sound : buffer.Sound
  otherSound : other.Sound
  eq_or_small : buffer = other ∨ buffer.size + expansion * count < exhausting

section Interchange

variable {count : Nat} {buffer other : Buffer}

theorem Interchangeable.refl (count : Nat) (sound : buffer.Sound) :
    Interchangeable count buffer buffer :=
  ⟨rfl, sound, sound, Or.inl rfl⟩

theorem Interchangeable.mono (alike : Interchangeable count buffer other) {less : Nat}
    (le : less ≤ count) : Interchangeable less buffer other where
  bytes := alike.bytes
  sound := alike.sound
  otherSound := alike.otherSound
  eq_or_small := by
    have fewer := Nat.mul_le_mul_left expansion le
    exact alike.eq_or_small.imp_right fun small => by omega

theorem Interchangeable.size_eq (alike : Interchangeable count buffer other) :
    buffer.size = other.size :=
  congrArg Array.size alike.bytes

theorem Interchangeable.symm (alike : Interchangeable count buffer other) :
    Interchangeable count other buffer where
  bytes := alike.bytes.symm
  sound := alike.otherSound
  otherSound := alike.sound
  eq_or_small := alike.eq_or_small.imp Eq.symm fun small => alike.size_eq ▸ small

theorem Interchangeable.trans {third : Buffer} (alike : Interchangeable count buffer other)
    (next : Interchangeable count other third) : Interchangeable count buffer third where
  bytes := alike.bytes.trans next.bytes
  sound := alike.sound
  otherSound := next.otherSound
  eq_or_small := by
    rcases alike.eq_or_small with rfl | small
    · exact next.eq_or_small
    · exact Or.inr small

/-- **The buffers at the start** for an input and for a part of it: they are the same, or the part is
too small to exhaust memory. -/
theorem interchangeable_seed {options : Options} {size part : Nat} (le : part ≤ size)
    (reserved : Buffer.reserve (seedCapacity size options) = .ok buffer) :
    ∃ other, Buffer.reserve (seedCapacity part options) = .ok other ∧
      Interchangeable part buffer other := by
  obtain ⟨sound, empty⟩ := Buffer.sound_of_reserve reserved
  by_cases same : seedCapacity part options = seedCapacity size options
  · exact ⟨buffer, same ▸ reserved, .refl part sound⟩
  -- Then no capacity was asked for, and the greatest one at the start was not reached.
  have unset : options.initialCapacity = none := by
    cases wanted : options.initialCapacity with
    | none => rfl
    | some capacity =>
      simp only [seedCapacity, wantedCapacity, wanted, Option.getD_some] at same
      exact absurd trivial same
  obtain ⟨other, otherReserved, otherSound, otherEmpty⟩ := Buffer.sound_seed unset part
  refine ⟨other, otherReserved, empty.trans otherEmpty.symm, sound, otherSound, Or.inr ?_⟩
  have few : part * seedFactor < maxSeed := by
    simp only [seedCapacity, wantedCapacity, unset, Option.getD_none, pieceSize, maxSize, maxSeed,
      seedFactor] at same ⊢
    omega
  have nothing : buffer.size = 0 := by rw [Buffer.size, empty]; rfl
  simp only [nothing, maxSeed, seedFactor, expansion, Deflate.greatestCopy, exhausting] at few ⊢
  omega

/-- What a stream leaves in a buffer, and what the bytes after it can still give. -/
theorem size_add_unread_le [Memory] {frame : Frame} {limit : Nat} {held input rest : Bytes} {filled : Buffer}
    (complete : frame.verdict input = .complete rest)
    (holds : filled.Holds limit (held ++ (inflate input).1)) :
    filled.size + ratio * rest.length ≤ held.length + ratio * input.length := by
  obtain ⟨whole, stops, shorter⟩ := Frame.rest_le_of_close complete
  have spent := Deflate.output_add_unread_le input
  rw [stops] at spent
  have left : ratio * rest.length ≤ ratio * whole.length := Nat.mul_le_mul_left ratio shorter
  have size := holds.size_eq
  rw [List.length_append] at size
  simp only [Deflate.Halt.rest] at spent
  omega

/-- The same with room to spare. -/
theorem size_add_rest_le [Memory] {frame : Frame} {limit : Nat} {held input rest : Bytes} {filled : Buffer}
    (complete : frame.verdict input = .complete rest)
    (holds : filled.Holds limit (held ++ (inflate input).1)) :
    filled.size + expansion * rest.length ≤ held.length + expansion * input.length := by
  have sharp := size_add_unread_le complete holds
  have kept : held.length ≤ filled.size := by
    rw [holds.size_eq, List.length_append]
    exact Nat.le_add_right _ _
  simp only [ratio, expansion, Deflate.perBit, Deflate.greatestCopy] at sharp ⊢
  omega

/-- What a stream leaves behind it in either buffer. -/
theorem interchangeable_filled {frame : Frame} {limit : Nat} {input rest : Bytes}
    {filled otherFilled : Buffer} (small : buffer.size + expansion * input.length < exhausting)
    (complete : frame.verdict input = .complete rest)
    (holds : filled.Holds limit (buffer.bytes.toList ++ (inflate input).1))
    (otherHolds : otherFilled.Holds limit (buffer.bytes.toList ++ (inflate input).1)) :
    Interchangeable rest.length filled otherFilled where
  bytes := Array.toList_inj.mp (holds.contents.trans otherHolds.contents.symm)
  sound := holds.sound
  otherSound := otherHolds.sound
  eq_or_small := by
    have left := size_add_rest_le complete holds
    rw [buffer.bytes.length_toList] at left
    exact Or.inr (Nat.lt_of_le_of_lt left small)

/-- **A stream is decoded into either buffer** in the same way, and it is too short for both. -/
theorem decodeInto_interchange (frame : Frame) (limit : Nat) {input : Bytes}
    (alike : Interchangeable input.length buffer other) :
    (∀ rest filled, decodeInto frame limit input buffer = .ok (rest, filled) →
      ∃ otherFilled, decodeInto frame limit input other = .ok (rest, otherFilled) ∧
        Interchangeable rest.length filled otherFilled) ∧
    (decodeInto frame limit input buffer = .error .truncated →
      decodeInto frame limit input other = .error .truncated) := by
  have delivered := decodeInto_spec frame limit input alike.sound
  rcases alike.eq_or_small with rfl | small
  · refine ⟨fun rest filled decoded => ⟨filled, decoded, ?_⟩, id⟩
    rw [decoded] at delivered
    exact .refl _ delivered.of_ok.2.sound
  have otherDelivered := decodeInto_spec frame limit input alike.otherSound
  rw [← alike.bytes] at otherDelivered
  have total : (buffer.bytes.toList ++ (inflate input).1).length < exhausting := by
    have spent := Deflate.output_add_rest_le input
    rw [List.length_append, Array.length_toList]
    exact Nat.lt_of_le_of_lt (Nat.add_le_add_left (by omega) _) small
  constructor
  · intro rest filled decoded
    rw [decoded] at delivered
    obtain ⟨complete, holds⟩ := delivered.of_ok
    have under := holds.under
    rw [holds.size_eq] at under
    rw [alike.bytes] at under total
    obtain ⟨otherFilled, outcome, otherHolds⟩ :=
      exists_decodeInto alike.otherSound complete under total
    rw [← alike.bytes] at otherHolds
    exact ⟨otherFilled, outcome, interchangeable_filled small complete holds otherHolds⟩
  · intro truncated
    rw [truncated] at delivered
    obtain ⟨short, under⟩ : frame.verdict input = .short ∧
        (buffer.bytes.toList ++ (inflate input).1).length ≤ limit := by
      cases delivered with
      | truncated short under => exact ⟨short, under⟩
      | refused refused => cases refused
    generalize decodeInto frame limit input other = outcome at otherDelivered
    rw [short] at otherDelivered
    cases otherDelivered with
    | filled complete holds => cases complete
    | truncated => rfl
    | corrupt fault => cases fault
    | refused refused => exact absurd (refused.exhausting_le_of_under under) (Nat.not_le.mpr total)

/-- **The beginning of an input** that is decoded as a whole gives the same stream, with less behind
it, or is too short. -/
theorem decodeInto_beginning {frame : Frame} {limit : Nat} {input more rest : Bytes}
    {filled : Buffer} (alike : Interchangeable input.length buffer other)
    (decoded : decodeInto frame limit (input ++ more) buffer = .ok (rest, filled)) :
    (∃ left otherFilled, rest = left ++ more ∧
      decodeInto frame limit input other = .ok (left, otherFilled) ∧
        Interchangeable left.length filled otherFilled) ∨
    decodeInto frame limit input other = .error .truncated := by
  obtain ⟨onSuccess, onTruncated⟩ := decodeInto_interchange frame limit alike
  have continues := continues_decodeInto frame limit input alike.sound more
  rw [decoded] at continues
  rcases continues.of_whole with ⟨left, split, found⟩ | ⟨-, short⟩
  · obtain ⟨otherFilled, otherFound, filledAlike⟩ := onSuccess left filled found
    exact Or.inl ⟨left, otherFilled, split, otherFound, filledAlike⟩
  · exact Or.inr (onTruncated short)

end Interchange

end Inflate
