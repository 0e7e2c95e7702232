/-
**Damaged trailers.**

A trailer that is not the one of its member's output is never accepted, and what is wrong with it is named:
the checksum, if its field is another one, and otherwise the size. A member is decoded in the same way
whatever follows its body, so this happens where the member stands, behind all members in front of it and
before anything that comes after it.

* `checkTrailer_of_checksum`, `checkTrailer_of_size`: the two things that can be wrong with a trailer;
* `decodeMember_withTrailer`: what is decoded of a member with any trailer;
* `walk_withTrailer`: a walk up to a member with another trailer;
* `decode_damaged`: a file that is accepted, with one trailer replaced.
-/

import Mathlib
import Inflate.Proofs.Gzip.Beginning

namespace Inflate

namespace Gzip

open Deflate (inflate)

/-! ### Trailers -/

section Trailers

variable {trailer output : Bytes}

/-- A checksum that is not the one of the output is named first. -/
theorem checkTrailer_of_checksum (eight : trailer.length = trailerLength)
    (differs : trailer.take 4 ≠ (trailerOf output).take 4) :
    checkTrailer trailer output =
      .error (.checksumMismatch (UInt32.ofNat (Bytes.littleEndian (trailer.take 4)))
        (crc32 output)) := by
  refine if_pos fun same => differs ?_
  have front : (trailer.take 4).length = 4 := by
    rw [List.length_take, eight]
    rfl
  rw [take_trailerOf, ← same, Header.ofLittleEndian_ofNat front (by decide)]

/-- A size that is not the one of the output is named, if the checksum is right. -/
theorem checkTrailer_of_size (eight : trailer.length = trailerLength)
    (same : trailer.take 4 = (trailerOf output).take 4)
    (differs : trailer.drop 4 ≠ (trailerOf output).drop 4) :
    checkTrailer trailer output =
      .error (.lengthMismatch (UInt32.ofNat (Bytes.littleEndian (trailer.drop 4)))
        (UInt32.ofNat (output.length % 2 ^ 32))) := by
  have back : (trailer.drop 4).length = 4 := by
    rw [List.length_drop, eight]
    rfl
  have checksum : UInt32.ofNat (Bytes.littleEndian (trailer.take 4)) = crc32 output := by
    rw [same, take_trailerOf, Header.ofNat_littleEndian (crc32 output).toNat_lt]
  rw [UInt32.ofNat_mod_size]
  refine (if_neg (not_not_intro checksum)).trans (if_pos fun size => differs ?_)
  rw [drop_trailerOf, ← size, Header.ofLittleEndian_ofNat back (by decide)]

end Trailers

/-! ### Members -/

section Members

variable {limit : Nat} {buffer : Buffer} {written : Written} {trailer rest : Bytes}

/-- A body that is decoded in front of some bytes is decoded in front of any. -/
theorem decodeInto_replace (sound : buffer.Sound) {body behind : Bytes} {filled : Buffer}
    (decoded : decodeInto .bare limit (body ++ behind) buffer = .ok (behind, filled))
    (other : Bytes) : decodeInto .bare limit (body ++ other) buffer = .ok (other, filled) := by
  have whole := continues_decodeInto .bare limit body sound behind
  rw [decoded] at whole
  rcases whole.of_whole with ⟨left, split, alone⟩ | ⟨fewer, -⟩
  · obtain rfl := List.self_eq_append_left.mp split
    have replaced := continues_decodeInto .bare limit body sound other
    rw [alone] at replaced
    exact replaced.of_complete
  · exact absurd fewer (Nat.lt_irrefl _)

/-- **A member with any trailer**, where the member itself is decoded: only its trailer is judged
anew, and neither that nor what follows it makes a difference to the buffer. -/
theorem decodeMember_withTrailer (wellFormed : written.WellFormed) (sound : buffer.Sound)
    {behind : Bytes} {result : Member × Bytes × Buffer}
    (decoded : decodeMember limit (written.bytes ++ behind) buffer = .ok result) :
    ∃ filled : Buffer, filled.Sound ∧ ∀ trailer rest : Bytes, trailer.length = trailerLength →
      decodeMember limit (written.withTrailer trailer ++ rest) buffer =
        (checkTrailer trailer written.output).map fun checksum =>
          (⟨written.header, written.output.length, checksum⟩, rest, filled) := by
  have least := wellFormed.minLength_le
  rw [decodeMember_eq, bind_of_ok (wellFormed.parse behind)] at decoded
  have long : ¬(written.bytes ++ behind).length < minLength := by
    rw [List.length_append]
    omega
  rw [if_neg long, Written.bytes_append, wellFormed.whole, List.drop_left] at decoded
  obtain ⟨⟨after, filled⟩, filling, -⟩ := ok_of_bind decoded
  have delivered := decodeInto_spec .bare limit
    (written.body ++ (trailerOf written.output ++ behind)) sound
  rw [filling] at delivered
  obtain ⟨complete, holds⟩ := delivered.of_ok
  have inflated := Deflate.inflate_append wellFormed.body (trailerOf written.output ++ behind)
  have stops : (inflate (written.body ++ (trailerOf written.output ++ behind))).2 =
      .complete after := complete
  rw [inflated] at stops holds
  cases stops
  refine ⟨filled, holds.sound, fun trailer rest eight => ?_⟩
  have parsed := Header.parse_append wellFormed.header (written.body ++ (trailer ++ rest))
  have alsoLong : ¬(written.head ++ (written.body ++ (trailer ++ rest))).length < minLength := by
    simp only [Written.bytes, List.length_append, length_trailerOf] at least ⊢
    omega
  rw [Written.withTrailer_append, decodeMember_eq, bind_of_ok parsed, if_neg alsoLong,
    wellFormed.whole, List.drop_left, bind_of_ok (decodeInto_replace sound filling _)]
  simp only [toList_extract_of_eq holds.contents, closeMember_eq written.header written.output eight]
  cases checkTrailer trailer written.output <;> rfl

/-! ### Member after member -/

/-- **A walk up to a member with another trailer** fails as that trailer does, whatever follows it. -/
theorem walk_withTrailer {front : List Written}
    (frontWellFormed : ∀ written ∈ front, written.WellFormed) (wellFormed : written.WellFormed)
    (sound : buffer.Sound) {behind : Bytes} {result : List Member × Nat × Buffer}
    (done : (walk limit (front.flatMap Written.bytes ++ (written.bytes ++ behind)) buffer).outcome =
      .ok result)
    (eight : trailer.length = trailerLength) {failure : Failure}
    (wrong : checkTrailer trailer written.output = .error failure) (rest : Bytes) :
    (walk limit (front.flatMap Written.bytes ++ (written.withTrailer trailer ++ rest))
      buffer).outcome = .error failure := by
  induction front generalizing buffer result with
  | nil =>
    rw [List.flatMap_nil, List.nil_append, outcome_walk] at done ⊢
    obtain ⟨_, decoded, -⟩ := ok_of_bind done
    obtain ⟨_, -, any⟩ := decodeMember_withTrailer wellFormed sound decoded
    rw [any trailer rest eight, wrong]
    rfl
  | cons first front ih =>
    obtain ⟨firstWellFormed, othersWellFormed⟩ := List.forall_mem_cons.mp frontWellFormed
    rw [List.flatMap_cons, List.append_assoc, outcome_walk] at done ⊢
    obtain ⟨found, decoded, done⟩ := ok_of_bind done
    -- The first member fills the buffer in the same way, in front of either rest.
    obtain ⟨filled, filledSound, any⟩ := decodeMember_withTrailer firstWellFormed sound decoded
    have checked := (checkTrailer_eq_ok_iff (length_trailerOf first.output) first.output _).mpr
      ⟨rfl, rfl⟩
    have same (rest : Bytes) : decodeMember limit (first.bytes ++ rest) buffer =
        .ok (first.member, rest, filled) := by
      rw [← first.withTrailer_trailerOf, any _ rest (length_trailerOf _), checked]
      rfl
    rw [same, Except.ok.injEq] at decoded
    subst decoded
    simp only [if_pos (begins_members othersWellFormed (wellFormed.begins behind))] at done
    obtain ⟨_, done, -⟩ := ok_of_bind done
    rw [bind_of_ok (same _)]
    simp only [if_pos (begins_members othersWellFormed (wellFormed.begins_withTrailer trailer rest))]
    rw [ih othersWellFormed filledSound done]
    rfl

end Members

/-! ### Files -/

section Files

variable {options : Options} {members front : List Written} {written : Written}

/-- Members that are walked over in one file are walked over in any file that is no shorter than they
are, where a buffer can be reserved for it. -/
theorem exists_walk_of_reserve (nonempty : members ≠ [])
    (wellFormed : ∀ written ∈ members, written.WellFormed) {behind : Bytes} {buffer other : Buffer}
    (reserved : Buffer.reserve
      (seedCapacity (members.flatMap Written.bytes ++ behind).length options) = .ok buffer)
    {result : List Member × Nat × Buffer}
    (done : (walk options.limit (members.flatMap Written.bytes ++ behind) buffer).outcome =
      .ok result)
    {size : Nat} (long : (members.flatMap Written.bytes).length ≤ size)
    (otherReserved : Buffer.reserve (seedCapacity size options) = .ok other) :
    ∃ result, (walk options.limit (members.flatMap Written.bytes) other).outcome = .ok result := by
  have within : (members.flatMap Written.bytes).length ≤
      (members.flatMap Written.bytes ++ behind).length := (List.prefix_append _ _).length_le
  obtain ⟨least, leastReserved, alike⟩ := interchangeable_seed within reserved
  obtain ⟨same, sameReserved, otherAlike⟩ := interchangeable_seed long otherReserved
  obtain rfl := Except.ok.inj (leastReserved.symm.trans sameReserved)
  have walks (rest : Bytes) (buffer : Buffer) :=
    onward_of_members nonempty wellFormed rest options.limit buffer
  have both := alike.trans otherAlike.symm
  rw [← walks] at done
  rw [← List.append_nil (members.flatMap Written.bytes)] at both
  obtain ⟨_, otherMid, -, -, -, outcome⟩ := onward_members wellFormed both done
  have ends : onward options.limit [] otherMid = .ok ([], 0, otherMid) := if_neg (by decide)
  have whole := walks [] other
  rw [outcome, ends, List.append_nil] at whole
  exact ⟨_, whole.symm⟩

/-- **A file with one trailer replaced** fails as that trailer does, whatever follows it, where the file
as it was is walked over. -/
theorem decode_withTrailer (unset : options.initialCapacity = none)
    (frontWellFormed : ∀ written ∈ front, written.WellFormed) (wellFormed : written.WellFormed)
    {behind : Bytes} {buffer : Buffer}
    (reserved : Buffer.reserve (seedCapacity
      (front.flatMap Written.bytes ++ (written.bytes ++ behind)).length options) = .ok buffer)
    {result : List Member × Nat × Buffer}
    (done : (walk options.limit (front.flatMap Written.bytes ++ (written.bytes ++ behind))
      buffer).outcome = .ok result)
    {trailer : Bytes} (eight : trailer.length = trailerLength) {failure : Failure}
    (wrong : checkTrailer trailer written.output = .error failure) (rest : Bytes) :
    decode (front.flatMap Written.bytes ++ (written.withTrailer trailer ++ rest)) options =
      .error failure := by
  obtain ⟨other, otherReserved, sound, -⟩ := Buffer.sound_seed unset
    (front.flatMap Written.bytes ++ (written.withTrailer trailer ++ rest)).length
  have whole : (front ++ [written]).flatMap Written.bytes =
      front.flatMap Written.bytes ++ (written.bytes ++ []) := by
    rw [List.flatMap_append, List.flatMap_singleton, List.append_nil]
  have wellFormedAll : ∀ each ∈ front ++ [written], each.WellFormed :=
    List.forall_mem_append.mpr ⟨frontWellFormed, List.forall_mem_singleton.mpr wellFormed⟩
  have split : front.flatMap Written.bytes ++ (written.bytes ++ behind) =
      (front ++ [written]).flatMap Written.bytes ++ behind := by
    rw [whole, List.append_nil, List.append_assoc]
  have long : ((front ++ [written]).flatMap Written.bytes).length ≤
      (front.flatMap Written.bytes ++ (written.withTrailer trailer ++ rest)).length := by
    simp only [whole, Written.bytes, Written.withTrailer, List.length_append, List.length_nil,
      length_trailerOf, eight]
    omega
  rw [split] at reserved done
  obtain ⟨_, walked⟩ :=
    exists_walk_of_reserve (List.append_ne_nil_of_right_ne_nil _ (List.cons_ne_nil _ _))
      wellFormedAll reserved done long otherReserved
  rw [whole] at walked
  rw [decode_of_reserve otherReserved,
    walk_withTrailer frontWellFormed wellFormed sound walked eight wrong rest]
  rfl

/-- **Every damaged trailer is noticed and named.** A file that is accepted consists of members. Where
eight other bytes stand in place of the trailer of one of them, whatever follows it:

* if the field of the checksum is another one, the checksum in it and that of the output are
  reported;
* otherwise the size in the trailer and that of the output, modulo 2 ^ 32, are. -/
theorem decode_damaged {input : Bytes} {options : Options}
    (unset : options.initialCapacity = none) {decoded : Decoded}
    (accepted : decode input options = .ok decoded) :
    ∃ members tail, Members input members tail ∧ decoded = summary input members ∧
      ∀ front written back, members = front ++ written :: back →
        ∀ trailer rest : Bytes, trailer.length = trailerLength →
          (trailer.take 4 ≠ (trailerOf written.output).take 4 →
            decode (front.flatMap Written.bytes ++ (written.head ++ written.body ++ trailer ++ rest))
                options =
              .error (.checksumMismatch (UInt32.ofNat (Bytes.littleEndian (trailer.take 4)))
                (crc32 written.output))) ∧
          (trailer.take 4 = (trailerOf written.output).take 4 →
            trailer ≠ trailerOf written.output →
            decode (front.flatMap Written.bytes ++ (written.head ++ written.body ++ trailer ++ rest))
                options =
              .error (.lengthMismatch (UInt32.ofNat (Bytes.littleEndian (trailer.drop 4)))
                (UInt32.ofNat (written.output.length % 2 ^ 32)))) := by
  rcases outcome_cases input options with ⟨failure, -, failed⟩ |
    ⟨buffer, members, tail, filled, reserved, done, file, -, outcome⟩
  · cases accepted.symm.trans (failed options.allowTrailing)
  have concluded := accepted.symm.trans (outcome options.allowTrailing)
  have isSummary : decoded = summary input members := by
    split at concluded
    · cases concluded
    · exact Except.ok.inj concluded
  refine ⟨members, tail, file, isSummary, ?_⟩
  rintro front written back rfl trailer rest eight
  obtain ⟨frontWellFormed, restWellFormed⟩ := List.forall_mem_append.mp file.wellFormed
  obtain ⟨wellFormed, -⟩ := List.forall_mem_cons.mp restWellFormed
  have split : input = front.flatMap Written.bytes ++
      (written.bytes ++ (back.flatMap Written.bytes ++ tail)) := by
    rw [file.split, List.flatMap_append, List.flatMap_cons, List.append_assoc, List.append_assoc]
  subst split
  have fails {failure : Failure} (wrong : checkTrailer trailer written.output = .error failure) :=
    decode_withTrailer unset frontWellFormed wellFormed reserved done eight wrong rest
  constructor
  · exact fun differs => fails (checkTrailer_of_checksum eight differs)
  · intro same differs
    have size : trailer.drop 4 ≠ (trailerOf written.output).drop 4 := by
      intro sameSize
      apply differs
      rw [← List.take_append_drop 4 trailer, same, sameSize, List.take_append_drop]
    exact fails (checkTrailer_of_size eight same size)

end Files

/-- A file of two letters, with another checksum behind the first one and another size behind the
second one, and bytes after it that could not be read. -/
theorem decode_damaged_letters :
    ({} : Options).initialCapacity = none ∧
      (∃ decoded, decode (letter.bytes ++ letter.bytes) {} = .ok decoded) ∧
      decode (letter.head ++ letter.body ++ [0, 0, 0, 0, 1, 0, 0, 0] ++ letter.bytes) {} =
        .error (.checksumMismatch 0 0xe8b7be43) ∧
      decode (letter.bytes ++ (letter.head ++ letter.body ++ [0x43, 0xbe, 0xb7, 0xe8, 2, 0, 0, 0] ++
          [0x1f, 0x8b, 0])) {} =
        .error (.lengthMismatch 2 1) := by
  have unset : ({} : Options).initialCapacity = none := rfl
  obtain ⟨input, is⟩ : ∃ input : Bytes, input = letter.bytes ++ letter.bytes := ⟨_, rfl⟩
  have file : Members input [letter, letter] [] := by
    refine ⟨List.cons_ne_nil _ _, ?_, by simp [is], by decide⟩
    intro written among
    simp only [List.mem_cons, List.not_mem_nil, or_false, or_self] at among
    exact among ▸ wellFormed_letter
  have accepted := (yields_of_members unset file (Or.inl rfl) (permits_default _)).eq (by decide)
  obtain ⟨members, tail, other, -, damaged⟩ := decode_damaged unset accepted
  obtain ⟨rfl, -⟩ := file.unique other
  have checksum : crc32 letter.output = 0xe8b7be43 := by decide +kernel
  have trailer : trailerOf letter.output = [0x43, 0xbe, 0xb7, 0xe8, 1, 0, 0, 0] := by decide +kernel
  have first := (damaged [] letter [letter] rfl [0, 0, 0, 0, 1, 0, 0, 0] letter.bytes rfl).1
    (by rw [trailer]; decide)
  have second := (damaged [letter] letter [] rfl [0x43, 0xbe, 0xb7, 0xe8, 2, 0, 0, 0]
    [0x1f, 0x8b, 0] rfl).2 (by rw [trailer]; rfl) (by rw [trailer]; decide)
  rw [checksum, List.flatMap_nil, List.nil_append] at first
  rw [List.flatMap_singleton] at second
  exact ⟨unset, ⟨_, is ▸ accepted⟩, first, second⟩

end Gzip

end Inflate
