/-
**What follows a stream.**

Bytes after a stream are either rejected, with their count, or ignored and counted as consumed. Whether
they are allowed decides that and nothing else: a stream that nothing follows is the same either way, and
so is every other failure. The count that is rejected is exact, since without that many bytes the stream
is accepted, and what is decoded then is decoded with them, too, where they are allowed.

* `Zlib.decode_without`, `Gzip.decode_without`: a stream without the bytes after it;
* `decode_trailing`: decoding where bytes after a stream are allowed, beside decoding where they are not.
-/

import Inflate.Proofs.Gzip.Beginning
import Inflate.Proofs.Output.StreamEnd

namespace Inflate

open Deflate (inflate)

/-! ### Zlib streams -/

namespace Zlib

/-- A header that is there as a whole is not truncated. -/
theorem Header.parse_ne_truncated {input : Bytes} (whole : Header.length ≤ input.length) :
    parse input ≠ .error .truncated := by
  match input with
  | [] => exact absurd whole (by decide)
  | [_] => exact absurd whole (Nat.not_le.mpr Nat.one_lt_two)
  | cmf :: flg :: rest =>
    intro short
    simp only [parse] at short
    split at short <;> cases short

/-- A body with its trailer is never too short for the least size. -/
theorem minLength_le_of_checked {body : Bytes} (checked : Frame.checked.verdict body = .complete []) :
    minLength ≤ Header.length + body.length := by
  obtain ⟨output, whole, complete, enough, -, -⟩ := complete_of_checked checked
  obtain ⟨front, rfl⟩ := Deflate.suffix_of_inflate (congrArg Prod.snd complete)
  have two := Deflate.two_le_length_of_inflate (Deflate.inflate_complete_of_append complete)
  rw [List.length_append]
  simp only [minLength, Header.length, trailerLength] at enough ⊢
  omega

/-- The trailer at the end of a stream is found without the bytes after it. -/
theorem trailerAt?_end (stream rest : Bytes) :
    trailerAt? (stream ++ rest) stream.length = trailerAt? stream stream.length := by
  unfold trailerAt?
  by_cases enough : trailerLength ≤ stream.length
  · have within : stream.length ≤ (stream ++ rest).length := (List.prefix_append _ _).length_le
    have four : trailerLength ≤ (stream.drop (stream.length - trailerLength)).length := by
      rw [List.length_drop]
      omega
    rw [if_pos ⟨enough, within⟩, if_pos ⟨enough, Nat.le_refl _⟩,
      List.drop_append_of_le_length (Nat.sub_le _ _), List.take_append_of_le_length four]
  · rw [if_neg fun found => enough found.1, if_neg fun found => enough found.1]

/-- **A stream without the bytes after it** has the same body, with nothing after it. -/
theorem decodeBody_without {input data : Bytes} {options : Options} {checksum : UInt32}
    {trailing : Nat} (long : minLength ≤ input.length)
    (decoded : decodeBody input options = .ok (data, checksum, trailing)) :
    trailing < input.length ∧ minLength ≤ (input.take (input.length - trailing)).length ∧
      decodeBody (input.take (input.length - trailing)) options = .ok (data, checksum, 0) := by
  obtain ⟨buffer, rest, filled, reserved, found, stored, rfl, rfl⟩ := stream_of_decodeBody decoded
  obtain ⟨sound, -⟩ := Buffer.sound_of_reserve reserved
  obtain ⟨front, split, further, -⟩ := split_of_decodeInto sound found
  have alone := further []
  rw [List.append_nil] at alone
  obtain ⟨head, isHead⟩ : ∃ head, head = input.take Header.length := ⟨_, rfl⟩
  have two : head.length = Header.length := by
    rw [isHead, List.length_take_of_le (Nat.le_trans (by decide) long)]
  have whole : input = (head ++ front) ++ rest := by
    rw [List.append_assoc, ← split, isHead, List.take_append_drop]
  have stream : input.take (input.length - rest.length) = head ++ front := by
    rw [whole, List.length_append, Nat.add_sub_cancel, List.take_left]
  have body : (head ++ front).drop Header.length = front := List.drop_left' two
  have delivered := decodeInto_spec .checked options.limit front sound
  rw [alone] at delivered
  have least := minLength_le_of_checked delivered.of_ok.1
  have size : (head ++ front).length = Header.length + front.length := by
    rw [List.length_append, two]
  have counts : input.length = Header.length + front.length + rest.length := by
    rw [whole, List.length_append, size]
  rw [stream]
  refine ⟨?_, size ▸ least, ?_⟩
  · simp only [minLength] at least
    omega
  have fewer : (head ++ front).length ≤ input.length := whole ▸ (List.prefix_append _ _).length_le
  obtain ⟨other, otherReserved, alike⟩ := interchangeable_seed fewer reserved
  have frontAlike : Interchangeable front.length buffer other :=
    alike.mono (List.suffix_append _ _).length_le
  obtain ⟨otherFilled, otherFound, filledAlike⟩ :=
    (decodeInto_interchange .checked options.limit frontAlike).1 [] filled alone
  rw [filledAlike.bytes]
  refine decodeBody_of_stream otherReserved (body.symm ▸ otherFound) ?_
  have position : input.length - rest.length = (head ++ front).length := by omega
  rw [position, whole, trailerAt?_end] at stored
  exact stored

/-- **A stream without the bytes after it** is accepted, with the same result. -/
theorem decode_without {input : Bytes} {options : Options} {count : Nat}
    (rejected : decode input { options with allowTrailing := false } =
      .error (.trailingData count)) :
    0 < count ∧ count < input.length ∧
      ∃ decoded, decode (input.take (input.length - count))
          { options with allowTrailing := false } = .ok decoded ∧
        decode input { options with allowTrailing := true } =
          .ok { decoded with consumed := input.length } := by
  rcases outcome_cases input options with ⟨failure, ofStream, failed⟩ |
    ⟨header, ⟨data, checksum, trailing⟩, parsed, long, body, outcome⟩
  · exact absurd (Except.error.inj ((failed false).symm.trans rejected)) (ofStream.ne count)
  have concluded := (outcome false).symm.trans rejected
  have allowed := outcome true
  have some : trailing ≠ 0 := by
    intro none
    rw [conclude, if_neg fun refused => refused.1 none] at concluded
    cases concluded
  rw [conclude, if_pos ⟨some, rfl⟩] at concluded
  cases concluded
  rw [conclude, if_neg fun refused => Bool.noConfusion refused.2] at allowed
  obtain ⟨fewer, partLong, partBody⟩ := decodeBody_without long body
  have partParsed := Header.parse_append
    (Header.parse_ne_truncated (Nat.le_trans (by decide) partLong))
    (input.drop (input.length - trailing))
  rw [List.take_append_drop, parsed] at partParsed
  have same : decodeBody (input.take (input.length - trailing))
    { options with allowTrailing := false } = .ok (data, checksum, 0) := partBody
  refine ⟨Nat.pos_of_ne_zero some, fewer, _,
    (decode_of_body partParsed.symm partLong same).trans (if_neg fun refused => refused.1 rfl), ?_⟩
  exact allowed

end Zlib

/-! ### Gzip files -/

namespace Gzip

/-- **A file without the bytes after it** is accepted, with the same result. -/
theorem decode_without {input : Bytes} {options : Options} {count : Nat}
    (rejected : decode input { options with allowTrailing := false } =
      .error (.trailingData count)) :
    0 < count ∧ count < input.length ∧
      ∃ decoded, decode (input.take (input.length - count))
          { options with allowTrailing := false } = .ok decoded ∧
        decode input { options with allowTrailing := true } =
          .ok { decoded with consumed := input.length } := by
  rcases outcome_cases input options with ⟨failure, ofStream, failed⟩ |
    ⟨buffer, members, tail, filled, reserved, done, file, -, outcome⟩
  · exact absurd (Except.error.inj ((failed false).symm.trans rejected)) (ofStream.ne count)
  have concluded := (outcome false).symm.trans rejected
  have allowed := outcome true
  have some : tail.length ≠ 0 := by
    intro none
    rw [if_neg fun refused => refused.1 none] at concluded
    cases concluded
  rw [if_pos ⟨some, rfl⟩] at concluded
  cases concluded
  rw [if_neg fun refused => Bool.noConfusion refused.2] at allowed
  have positive : 0 < (members.flatMap Written.bytes).length := by
    obtain ⟨written, others, rfl⟩ := List.exists_cons_of_ne_nil file.nonempty
    have least := (file.wellFormed written List.mem_cons_self).minLength_le
    rw [List.flatMap_cons, List.length_append]
    exact Nat.lt_of_lt_of_le (by decide) (Nat.le_add_right_of_le least)
  have split := file.split
  subst split
  rw [List.length_append, Nat.add_sub_cancel, List.take_left]
  refine ⟨Nat.pos_of_ne_zero some, Nat.lt_add_of_pos_left positive, ?_⟩
  have part : decode (members.flatMap Written.bytes ++ []) { options with allowTrailing := false } =
      _ := decode_members file.nonempty file.wellFormed (by decide) reserved done
  rw [List.append_nil, if_neg fun refused => refused.1 rfl] at part
  refine ⟨_, part, ?_⟩
  rw [allowed, ← List.length_append]
  rfl

end Gzip

/-! ### Both containers -/

section Containers

variable {format : Format} {input : Bytes} {options : Options}

/-- Only bytes after a stream are a failure that allowing them avoids. -/
theorem decode_cases_of_allowed (format : Format) (input : Bytes) (options : Options) :
    (∃ failure : Failure, failure.OfStream ∧ ∀ allowed,
      decode (some format) input { options with allowTrailing := allowed } = .error failure) ∨
    (∃ decoded, ∀ allowed,
      decode (some format) input { options with allowTrailing := allowed } = .ok decoded) ∨
    ∃ count, decode (some format) input { options with allowTrailing := false } =
      .error (.trailingData count) := by
  cases format with
  | zlib =>
    rcases Zlib.outcome_cases input options with failed | ⟨header, body, -, -, -, outcome⟩
    · exact Or.inl failed
    · right
      by_cases none : body.2.2 = 0
      · exact Or.inl ⟨_, fun allowed =>
          (outcome allowed).trans (if_neg fun refused => refused.1 none)⟩
      · exact Or.inr ⟨_, (outcome false).trans (if_pos ⟨none, rfl⟩)⟩
  | gzip =>
    rcases Gzip.outcome_cases input options with failed |
      ⟨buffer, members, tail, filled, -, -, -, -, outcome⟩
    · exact Or.inl failed
    · right
      by_cases none : tail.length = 0
      · exact Or.inl ⟨_, fun allowed =>
          (outcome allowed).trans (if_neg fun refused => refused.1 none)⟩
      · exact Or.inr ⟨_, (outcome false).trans (if_pos ⟨none, rfl⟩)⟩

/-- **A stream without the bytes after it** is accepted, in either container. -/
theorem decode_without {count : Nat}
    (rejected : decode (some format) input { options with allowTrailing := false } =
      .error (.trailingData count)) :
    0 < count ∧ count < input.length ∧
      ∃ decoded, decode (some format) (input.take (input.length - count))
          { options with allowTrailing := false } = .ok decoded ∧
        decode (some format) input { options with allowTrailing := true } =
          .ok { decoded with consumed := input.length } := by
  cases format with
  | zlib => exact Zlib.decode_without rejected
  | gzip => exact Gzip.decode_without rejected

end Containers

/-- **Allowing bytes after a stream changes exactly the outcomes in which they are rejected.** In either
container, and with any other options:

* what is accepted if they are not allowed is accepted in the same way if they are;
* if a count of them is rejected, it is not zero and less than the size of the input, the input without
  that many bytes is accepted, and if they are allowed the result is the same for the whole input, all of
  which is consumed;
* every other failure is the same. -/
theorem decode_trailing (format : Format) (input : Bytes) (options : Options) :
    (∀ decoded, decode (some format) input { options with allowTrailing := false } = .ok decoded →
      decode (some format) input { options with allowTrailing := true } = .ok decoded) ∧
    (∀ count, decode (some format) input { options with allowTrailing := false } =
        .error (.trailingData count) →
      0 < count ∧ count < input.length ∧
        ∃ decoded, decode (some format) (input.take (input.length - count))
            { options with allowTrailing := false } = .ok decoded ∧
          decode (some format) input { options with allowTrailing := true } =
            .ok { decoded with consumed := input.length }) ∧
    ∀ failure : Failure, (∀ count, failure ≠ .trailingData count) →
      decode (some format) input { options with allowTrailing := false } = .error failure →
        decode (some format) input { options with allowTrailing := true } = .error failure := by
  refine ⟨?_, fun count rejected => decode_without rejected, ?_⟩
  · intro decoded accepted
    rcases decode_cases_of_allowed format input options with
      ⟨_, -, same⟩ | ⟨_, same⟩ | ⟨_, rejected⟩
    · cases (same false).symm.trans accepted
    · exact (same true).trans ((same false).symm.trans accepted)
    · cases rejected.symm.trans accepted
  · intro failure other failed
    rcases decode_cases_of_allowed format input options with
      ⟨_, -, same⟩ | ⟨_, same⟩ | ⟨_, rejected⟩
    · exact (same true).trans ((same false).symm.trans failed)
    · cases (same false).symm.trans failed
    · exact absurd (Except.error.inj (failed.symm.trans rejected)) (other _)

/-- A member of one letter, the same with two bytes behind it, and nothing at all. -/
theorem decode_trailing_letter :
    ∃ decoded, decoded.data = [0x61] ∧
      decode (some .gzip) Gzip.letter.bytes {} = .ok decoded ∧
      decode (some .gzip) Gzip.letter.bytes { allowTrailing := true } = .ok decoded ∧
      decode (some .gzip) (Gzip.letter.bytes ++ [0x1f, 0]) {} = .error (.trailingData 2) ∧
      decode (some .gzip) (Gzip.letter.bytes ++ [0x1f, 0]) { allowTrailing := true } =
        .ok { decoded with consumed := 26 } ∧
      (∀ count, Failure.truncated ≠ .trailingData count) ∧
      decode (some .zlib) [] {} = .error .truncated ∧
      decode (some .zlib) [] { allowTrailing := true } = .error .truncated := by
  obtain ⟨input, is⟩ : ∃ input : Bytes, input = Gzip.letter.bytes ++ [0x1f, 0] := ⟨_, rfl⟩
  have file : Gzip.Members input [Gzip.letter] [0x1f, 0] :=
    is ▸ .single Gzip.wellFormed_letter (by decide)
  have size : input.length = 26 := by
    rw [is, Gzip.bytes_letter]
    rfl
  have found : Yields _ (.ok (Gzip.summary input [Gzip.letter]))
      (Gzip.decode input { allowTrailing := true }) :=
    Gzip.yields_of_members rfl file (Or.inr rfl) (permits_default _)
  have lenient := found.eq (by decide)
  have rejected : decode (some .gzip) input {} = .error (.trailingData 2) := by
    rcases Gzip.outcome_cases input {} with ⟨failure, -, failed⟩ |
      ⟨-, members, tail, -, -, -, other, -, outcome⟩
    · cases lenient.symm.trans (failed true)
    · obtain ⟨-, rfl⟩ := file.unique other
      exact (outcome false).trans (if_pos ⟨by decide, rfl⟩)
  obtain ⟨-, -, decoded, part, allowed⟩ := (decode_trailing .gzip input {}).2.1 2 rejected
  have data : decoded.data = [0x61] :=
    congrArg Decoded.data (Except.ok.inj (allowed.symm.trans lenient))
  have letter : input.take (input.length - 2) = Gzip.letter.bytes := by
    rw [is, List.length_append]
    exact List.take_left
  rw [letter] at part
  rw [size] at allowed
  have ofStream : Failure.truncated.OfStream := trivial
  have other : ∀ count, Failure.truncated ≠ .trailingData count := ofStream.ne
  have strict : decode (some .zlib) [] {} = .error .truncated := rfl
  rw [← is]
  exact ⟨decoded, data, part, (decode_trailing .gzip _ {}).1 _ part, rejected, allowed, other, strict,
    (decode_trailing .zlib [] {}).2.2 _ other strict⟩

end Inflate
