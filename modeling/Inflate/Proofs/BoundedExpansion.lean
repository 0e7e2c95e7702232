/-
**Expansion is bounded.**

A copy gives 258 bytes at most and takes two bits at least, so no stream gives more than 1032 bytes for
each of its own. That bounds what is decoded at every moment, whether a failure follows or not, and with it
the turns that decoding takes. A file of many members is paid for as a whole: what the members before have
given and what the bytes that are left can still give is never more than the whole input can.

* `size_le_of_inflateInto`: what a decoder that counts has decoded is paid for by what it counts;
* `Gzip.Visits`: the members that a walk over a file comes to, with the buffer it has then;
* `Gzip.paid_of_visits`: the walk keeps within what the input can give;
* `expansion_bounded`: decoding ends, within the bound.
-/

import Inflate.Proofs.Gzip.Beginning
import Inflate.Proofs.Outcomes
import Inflate.Proofs.Output.Reservation
import Inflate.Proofs.Output.StreamEnd
import Inflate.Proofs.Output.Turns

namespace Inflate

open Deflate (inflate ratio)

/-! ### Streams -/

section Streams

variable {limit : Nat} {buffer : Buffer}

/-- At every turn the buffer holds at most what it held before and what has been decoded. -/
theorem Progress.size_buffer_le (frame : Frame) (limit : Nat) (input : Bytes) (sound : buffer.Sound)
    (turns : Nat) :
    ∀ roomy ∈ ((start input buffer).after frame limit turns).buffer?,
      roomy.size ≤ buffer.size + ((start input buffer).after frame limit turns).decoder.output.size := by
  intro roomy at_turn
  have kept := kept_after frame limit input sound turns
  have sizes := congrArg List.length (kept.carries roomy at_turn)
  simp only [List.length_append, Array.length_toList] at sizes
  exact Nat.le_trans (Nat.le_add_right _ _) (Nat.le_of_eq sizes)

/-- What a stream adds to a buffer is paid for by the bytes of the stream. -/
theorem size_le_of_decodeInto {frame : Frame} {input rest : Bytes} {filled : Buffer}
    (sound : buffer.Sound) (decoded : decodeInto frame limit input buffer = .ok (rest, filled)) :
    filled.size ≤ buffer.size + ratio * (input.length - rest.length) := by
  have delivered := decodeInto_spec frame limit input sound
  rw [decoded] at delivered
  obtain ⟨complete, holds⟩ := delivered.of_ok
  have paid := size_add_unread_le complete holds
  rw [buffer.bytes.length_toList] at paid
  rw [Nat.mul_sub]
  simp only [Buffer.size] at paid ⊢
  omega

/-- What a decoder that counts has decoded is paid for by what it counts. -/
theorem size_le_of_inflateInto {inflater : Inflater} {input : Bytes} {count : Nat} {filled : Buffer}
    (sound : buffer.Sound) (decoded : inflater.inflateInto limit input buffer = .ok (count, filled)) :
    filled.size ≤ buffer.size + ratio * count := by
  cases inflater with
  | raw =>
    obtain ⟨rest, found, rfl⟩ := counted_eq_ok_iff.mp decoded
    exact size_le_of_decodeInto sound found
  | zlib =>
    obtain ⟨cmf, flg, body, rfl, valid⟩ := headed_of_inflateInto decoded
    rw [inflateInto_zlib valid] at decoded
    obtain ⟨rest, found, rfl⟩ := counted_eq_ok_iff.mp decoded
    -- the header is counted too
    have fewer : body.length - rest.length ≤ (cmf :: flg :: body).length - rest.length :=
      Nat.sub_le_sub_right (by simp only [List.length_cons]; omega) _
    exact Nat.le_trans (size_le_of_decodeInto sound found)
      (Nat.add_le_add_left (Nat.mul_le_mul_left ratio fewer) _)

/-- The output of a zlib stream is paid for by the bytes that are consumed. -/
theorem Zlib.length_data_le {input : Bytes} {options : Options} {decoded : Decoded}
    (accepted : decode input options = .ok decoded) :
    decoded.data.length ≤ ratio * decoded.consumed := by
  rw [decode_eq_conclude] at accepted
  obtain ⟨header, -, accepted⟩ := ok_of_bind accepted
  obtain ⟨-, accepted⟩ := ok_of_guard accepted
  obtain ⟨⟨data, checksum, trailing⟩, body, concluded⟩ := ok_of_bind accepted
  obtain ⟨buffer, rest, filled, reserved, found, -, rfl, -⟩ := stream_of_decodeBody body
  obtain ⟨sound, empty⟩ := Buffer.sound_of_reserve reserved
  have paid := size_le_of_decodeInto sound found
  have nothing : buffer.size = 0 := by rw [Buffer.size, ← Array.length_toList, empty]; rfl
  have fewer : (input.drop Header.length).length - rest.length ≤ input.length :=
    Nat.le_trans (Nat.sub_le _ _) (by simp)
  obtain ⟨same, all⟩ : decoded.data = filled.bytes.toList ∧ decoded.consumed = input.length := by
    unfold conclude at concluded
    split at concluded <;> cases concluded
    exact ⟨rfl, rfl⟩
  rw [same, all, Array.length_toList]
  calc filled.size
      ≤ 0 + ratio * ((input.drop Header.length).length - rest.length) := nothing ▸ paid
    _ = ratio * ((input.drop Header.length).length - rest.length) := Nat.zero_add _
    _ ≤ ratio * input.length := Nat.mul_le_mul_left ratio fewer

end Streams

/-! ### Files of many members -/

namespace Gzip

section Members

variable {limit : Nat} {input : Bytes} {buffer : Buffer}

/-- The members that a walk over a file comes to: what is left of the file where a member begins, and the
buffer with the output of the members before it. -/
inductive Visits (limit : Nat) : Bytes → Buffer → Bytes → Buffer → Prop where
  | here (input : Bytes) (buffer : Buffer) : Visits limit input buffer input buffer
  | later {input rest left : Bytes} {member : Member} {buffer filled held : Buffer}
    (decoded : decodeMember limit input buffer = .ok (member, rest, filled)) (more : magic <+: rest)
    (onward : Visits limit rest filled left held) : Visits limit input buffer left held

/-- The output of a member is paid for by its bytes. -/
theorem paid_of_decodeMember (sound : buffer.Sound) {rest : Bytes} {member : Member} {filled : Buffer}
    (decoded : decodeMember limit input buffer = .ok (member, rest, filled)) :
    filled.Sound ∧ filled.size + ratio * rest.length ≤ buffer.size + ratio * input.length := by
  obtain ⟨written, wellFormed, rfl, -, holds⟩ := written_of_decodeMember sound decoded
  have spent := Deflate.output_add_unread_le written.body
  rw [wellFormed.body] at spent
  have size := holds.size_eq
  have within : written.body.length + rest.length ≤ (written.bytes ++ rest).length := by
    simp only [Written.bytes, List.length_append]
    omega
  refine ⟨holds.sound, ?_⟩
  calc filled.size + ratio * rest.length
      = buffer.size + written.output.length + ratio * rest.length := by
        rw [size, List.length_append, buffer.bytes.length_toList]
        rfl
    _ ≤ buffer.size + ratio * written.body.length + ratio * rest.length := by
        have few : written.output.length ≤ ratio * written.body.length := spent
        omega
    _ = buffer.size + ratio * (written.body.length + rest.length) := by
        rw [Nat.mul_add, Nat.add_assoc]
    _ ≤ buffer.size + ratio * (written.bytes ++ rest).length :=
        Nat.add_le_add_left (Nat.mul_le_mul_left ratio within) _

/-- **The walk keeps within what the input can give.** -/
theorem paid_of_visits {left : Bytes} {held : Buffer} (visits : Visits limit input buffer left held)
    (sound : buffer.Sound) :
    held.Sound ∧ held.size + ratio * left.length ≤ buffer.size + ratio * input.length := by
  induction visits with
  | here input buffer => exact ⟨sound, Nat.le_refl _⟩
  | later decoded more onward ih =>
    obtain ⟨filledSound, paid⟩ := paid_of_decodeMember sound decoded
    obtain ⟨heldSound, others⟩ := ih filledSound
    exact ⟨heldSound, Nat.le_trans others paid⟩

/-- How a walk ends, by what decoding its last member gives. -/
def Ending.ofLast : Except Failure (Member × Bytes × Buffer) → Ending
  | .error failure => .failed failure
  | .ok (_, rest, filled) => .done rest.length filled

/-- **A walk ends as the last member does** that it comes to. -/
theorem exists_last (limit : Nat) (input : Bytes) (buffer : Buffer) :
    ∃ left held, Visits limit input buffer left held ∧
      (walk limit input buffer).ending = .ofLast (decodeMember limit left held) := by
  cases decoded : decodeMember limit input buffer with
  | error failure =>
    refine ⟨input, buffer, .here input buffer, ?_⟩
    rw [walk_of_error decoded, decoded]
    rfl
  | ok result =>
    obtain ⟨member, rest, filled⟩ := result
    have fewer : rest.length < input.length := length_lt_of_decodeMember decoded
    rw [walk_of_ok decoded]
    by_cases more : magic <+: rest
    · obtain ⟨left, held, onward, ends⟩ := exists_last limit rest filled
      rw [if_pos more]
      exact ⟨left, held, .later decoded more onward, ends⟩
    · refine ⟨input, buffer, .here input buffer, ?_⟩
      rw [if_neg more, decoded]
      rfl
termination_by input.length

/-- Every member takes the least size, so there are not many. -/
theorem minLength_mul_members_le (limit : Nat) (input : Bytes) {buffer : Buffer}
    (sound : buffer.Sound) :
    minLength * (walk limit input buffer).members.length ≤ input.length := by
  cases decoded : decodeMember limit input buffer with
  | error failure =>
    rw [walk_of_error decoded]
    exact Nat.zero_le _
  | ok result =>
    obtain ⟨member, rest, filled⟩ := result
    have fewer : rest.length < input.length := length_lt_of_decodeMember decoded
    obtain ⟨written, wellFormed, split, -, holds⟩ := written_of_decodeMember sound decoded
    have least := wellFormed.minLength_le
    have whole := congrArg List.length split
    rw [List.length_append] at whole
    rw [walk_of_ok decoded]
    by_cases more : magic <+: rest
    · have others := minLength_mul_members_le limit rest holds.sound
      rw [if_pos more, List.length_cons, Nat.mul_succ]
      omega
    · rw [if_neg more, List.length_singleton]
      omega
termination_by input.length

/-- The output of a file is paid for by the bytes that are consumed. -/
theorem length_data_le {options : Options} {decoded : Decoded}
    (accepted : decode input options = .ok decoded) :
    decoded.data.length ≤ ratio * decoded.consumed := by
  rw [decode_eq_conclude] at accepted
  obtain ⟨buffer, reserved, accepted⟩ := ok_of_bind accepted
  obtain ⟨⟨members, trailing, filled⟩, walked, concluded⟩ := ok_of_bind accepted
  obtain ⟨sound, empty⟩ := Buffer.sound_of_reserve reserved
  have ending : (walk options.limit input buffer).ending = .done trailing filled := by
    unfold Walk.outcome at walked
    split at walked
    · cases walked
    · next ending =>
      cases walked
      exact ending
  obtain ⟨left, held, visits, ends⟩ := exists_last options.limit input buffer
  obtain ⟨heldSound, before⟩ := paid_of_visits visits sound
  rw [ending] at ends
  cases last : decodeMember options.limit left held with
  | error failure =>
    rw [last] at ends
    cases ends
  | ok result =>
  obtain ⟨member, rest, _⟩ := result
  rw [last] at ends
  cases ends
  have paid := (paid_of_decodeMember heldSound last).2
  have nothing : buffer.size = 0 := by rw [Buffer.size, ← Array.length_toList, empty]; rfl
  obtain ⟨same, all⟩ : decoded.data = filled.bytes.toList ∧ decoded.consumed = input.length := by
    simp only [conclude] at concluded
    split at concluded <;> cases concluded
    exact ⟨rfl, rfl⟩
  rw [same, all, Array.length_toList]
  show filled.size ≤ ratio * input.length
  omega

end Members

end Gzip

/-! ### Every decoder -/

/-- **Expansion is bounded, so decoding ends**, whatever the limit and the options.

* The stream at the front of an input is decoded in few turns. At every turn at most 1032 times the size
  of the input has been decoded, and the buffer holds no more than that beyond what it held before.
* A stream that is decoded, bare or with the header and the checksum of zlib, gives at most 1032 bytes for
  each of those that it takes.
* What is decoded of a zlib stream or a gzip file is at most 1032 bytes for each that is consumed.
* A gzip file has no more members than there is room for, and the walk over them ends as the last member
  does that it comes to. At every turn of the body of a member that it comes to, all that has been decoded
  of the file is at most 1032 times its size. -/
theorem expansion_bounded (limit : Nat) (options : Options) (input : Bytes) :
    (∀ (frame : Frame) (buffer : Buffer), buffer.Sound →
      (∃ turns ≤ 4 * (1032 * input.length / 32768 + 1), ∃ last,
        (Progress.start input buffer).after frame limit turns =
          .ended last (decodeInto frame limit input buffer)) ∧
      ∀ turns,
        ((Progress.start input buffer).after frame limit turns).decoder.output.size ≤
          1032 * input.length ∧
        ∀ roomy ∈ ((Progress.start input buffer).after frame limit turns).buffer?,
          roomy.size ≤ buffer.size + 1032 * input.length) ∧
    (∀ (inflater : Inflater) (buffer : Buffer) (count : Nat) (filled : Buffer), buffer.Sound →
      inflater.inflateInto limit input buffer = .ok (count, filled) →
        filled.size ≤ buffer.size + 1032 * count) ∧
    (∀ decoded,
      Zlib.decode input options = .ok decoded ∨ Gzip.decode input options = .ok decoded →
        decoded.data.length ≤ 1032 * decoded.consumed) ∧
    (∀ buffer : Buffer, buffer.Sound → buffer.size = 0 →
      20 * (Gzip.walk limit input buffer).members.length ≤ input.length ∧
      (∃ left held, Gzip.Visits limit input buffer left held ∧
        (Gzip.walk limit input buffer).ending = .ofLast (Gzip.decodeMember limit left held)) ∧
      ∀ left held, Gzip.Visits limit input buffer left held → held.Sound ∧
        ∀ header, Gzip.Header.parse left = .ok header → ∀ turns,
          held.size +
              ((Progress.start (left.drop header.length) held).after .bare limit
                turns).decoder.output.size ≤
            1032 * input.length) := by
  refine ⟨?_, ?_, ?_, ?_⟩
  · intro frame buffer sound
    refine ⟨Progress.exists_ended_decodeInto frame limit input sound, fun turns => ?_⟩
    have few := Progress.size_after_le frame limit input buffer turns
    exact ⟨few, fun roomy present =>
      Nat.le_trans (Progress.size_buffer_le frame limit input sound turns roomy present)
        (Nat.add_le_add_left few _)⟩
  · intro inflater buffer count filled sound decoded
    exact size_le_of_inflateInto sound decoded
  · rintro decoded (accepted | accepted)
    · exact Zlib.length_data_le accepted
    · exact Gzip.length_data_le accepted
  · intro buffer sound empty
    refine ⟨Gzip.minLength_mul_members_le limit input sound, Gzip.exists_last limit input buffer, ?_⟩
    intro left held visits
    obtain ⟨heldSound, paid⟩ := Gzip.paid_of_visits visits sound
    refine ⟨heldSound, fun header parsed turns => ?_⟩
    have few := Progress.size_after_le .bare limit (left.drop header.length) held turns
    have shorter : ratio * (left.drop header.length).length ≤ ratio * left.length :=
      Nat.mul_le_mul_left ratio (by rw [List.length_drop]; exact Nat.sub_le _ _)
    show _ ≤ ratio * input.length
    omega

/-- A stored letter behind another one, in a zlib stream, and in a gzip file. -/
theorem expansion_bounded_letter :
    (⟨#[0x62], 64⟩ : Buffer).Sound ∧ ({ capacity := 32768 } : Buffer).Sound ∧
      (∃ turns ≤ 4, ∃ last,
        (Progress.start [1, 1, 0, 0xfe, 0xff, 0x61] ⟨#[0x62], 64⟩).after .bare maxSize turns =
          .ended last (decodeInto .bare maxSize [1, 1, 0, 0xfe, 0xff, 0x61] ⟨#[0x62], 64⟩)) ∧
      (∃ filled, Inflater.raw.inflateInto maxSize [1, 1, 0, 0xfe, 0xff, 0x61] ⟨#[0x62], 64⟩ =
        .ok (6, filled) ∧ filled.size ≤ 1 + 1032 * 6) ∧
      (∃ decoded, Zlib.decode [0x78, 0x9c, 1, 1, 0, 0xfe, 0xff, 0x61, 0, 0x62, 0, 0x62] {} =
        .ok decoded ∧ decoded.data.length ≤ 1032 * decoded.consumed) ∧
      ∃ header, Gzip.Header.parse Gzip.letter.bytes = .ok header ∧ ∀ turns,
        0 + ((Progress.start (Gzip.letter.bytes.drop header.length)
            { capacity := 32768 }).after .bare maxSize turns).decoder.output.size ≤ 1032 * 24 := by
  have sound : (⟨#[0x62], 64⟩ : Buffer).Sound := ⟨by decide, by decide⟩
  have emptySound : ({ capacity := 32768 } : Buffer).Sound := ⟨by decide, by decide⟩
  have inflated : inflate [1, 1, 0, 0xfe, 0xff, 0x61] = ([0x61], .complete []) := by cbv
  have complete : Frame.bare.verdict [1, 1, 0, 0xfe, 0xff, 0x61] = .complete [] := by
    rw [Frame.verdict, inflated]
    rfl
  have few : ([0x62] ++ (inflate [1, 1, 0, 0xfe, 0xff, 0x61]).1).length = 2 := by
    rw [inflated]
    rfl
  have under : ([0x62] ++ (inflate [1, 1, 0, 0xfe, 0xff, 0x61]).1).length ≤ maxSize :=
    Nat.le_trans (Nat.le_of_eq few) (by decide)
  have small : ([0x62] ++ (inflate [1, 1, 0, 0xfe, 0xff, 0x61]).1).length < exhausting :=
    Nat.lt_of_le_of_lt (Nat.le_of_eq few) (by decide)
  obtain ⟨filled, decoding, -⟩ := exists_decodeInto sound complete under small
  obtain ⟨streams, counting, -, -⟩ :=
    expansion_bounded maxSize {} [1, 1, 0, 0xfe, 0xff, 0x61]
  have counted : Inflater.raw.inflateInto maxSize [1, 1, 0, 0xfe, 0xff, 0x61] ⟨#[0x62], 64⟩ =
      .ok (6, filled) := counted_eq_ok_iff.mpr ⟨[], decoding, rfl⟩
  have accepted : Zlib.decode [0x78, 0x9c, 1, 1, 0, 0xfe, 0xff, 0x61, 0, 0x62, 0, 0x62] {} =
      .ok ⟨[0x61], .zlib, 0x00620062, none, 12⟩ := by
    have valid : Zlib.Header.Valid 0x78 0x9c := ⟨by decide, by decide, by decide, by decide⟩
    have whole : inflate [1, 1, 0, 0xfe, 0xff, 0x61, 0, 0x62, 0, 0x62] =
        ([0x61], .complete [0, 0x62, 0, 0x62]) := by cbv
    exact (Zlib.yields_conclusion valid rfl whole (permits_default _)).eq (by decide)
  obtain ⟨-, -, file, -⟩ :=
    expansion_bounded maxSize {} [0x78, 0x9c, 1, 1, 0, 0xfe, 0xff, 0x61, 0, 0x62, 0, 0x62]
  obtain ⟨-, -, -, members⟩ := expansion_bounded maxSize {} Gzip.letter.bytes
  have parsed : Gzip.Header.parse (Gzip.letter.bytes ++ []) = .ok Gzip.letter.header :=
    Gzip.wellFormed_letter.parse []
  rw [List.append_nil] at parsed
  refine ⟨sound, emptySound, (streams .bare _ sound).1, ⟨filled, counted, ?_⟩,
    ⟨_, accepted, file _ (Or.inl accepted)⟩, ⟨_, parsed, ?_⟩⟩
  · exact counting .raw _ _ _ sound counted
  · have long : Gzip.letter.bytes.length = 24 := by rw [Gzip.bytes_letter]; rfl
    rw [← long]
    exact ((members _ emptySound rfl).2.2 _ _ (.here _ _)).2 _ parsed

end Inflate
