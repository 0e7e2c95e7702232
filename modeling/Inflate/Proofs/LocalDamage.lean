/-
**Local damage is noticed.**

Byte strings of one length that differ in a burst have different CRC-32s, and byte strings that differ in
one or two bytes near each other have different Adler-32s. So no payload that was damaged like this stands
under the checksum of what it was: neither in a member, behind whatever other members, nor in a zlib
stream, whatever the options are. The size of a payload does not tell them apart, so it is the checksum
that is named.

* `InBurst`, `AtTwoPlaces`: the places at which two byte strings differ;
* `Gzip.survey_withTrailer`, `Gzip.not_accepted_of_trailer`: a member whose trailer is refused;
* `Zlib.not_accepted_of_wrongTrailer`: a stream with a wrong trailer;
* `local_damage`: both checksums, and what stands under them.
-/

import Inflate.Proofs.Checksum.Adler32
import Inflate.Proofs.Checksum.Crc32
import Inflate.Proofs.CorruptCauses
import Inflate.Proofs.Gzip.Concatenation
import Inflate.Proofs.Gzip.DamagedTrailer

namespace Inflate

open Deflate (inflate)

/-- All places at which the byte strings differ are among four in a row. -/
def InBurst (first second : Bytes) : Prop :=
  ∃ start, ∀ position, first[position]? ≠ second[position]? →
    start ≤ position ∧ position < start + 4

/-- The byte strings differ at one place, or at two less than 65521 apart, and nowhere else. -/
def AtTwoPlaces (first second : Bytes) : Prop :=
  ∃ place last, place ≤ last ∧ last < place + 65521 ∧
    ∀ position, first[position]? ≠ second[position]? ↔ position = place ∨ position = last

theorem crc32_ne_of_inBurst {first second : Bytes} (length : first.length = second.length)
    (different : first ≠ second) (burst : InBurst first second) : crc32 first ≠ crc32 second := by
  obtain ⟨_, within⟩ := burst
  exact Crc32.crc32_ne_of_burst length different within

theorem adler32_ne_of_atTwoPlaces {first second : Bytes} (length : first.length = second.length)
    (few : AtTwoPlaces first second) : adler32 first ≠ adler32 second := by
  obtain ⟨_, _, order, close, places⟩ := few
  exact Adler32.adler32_ne_of_places length order close places

/-! ### Members -/

namespace Gzip

/-- What is accepted has been surveyed without a failure, whatever the options are. -/
theorem survey_of_decode {input : Bytes} {options : Options} {decoded : Decoded}
    (accepted : decode input options = .ok decoded) : ∃ found, (survey input).result = .ok found := by
  rw [decode_eq_conclude] at accepted
  obtain ⟨buffer, reserved, accepted⟩ := ok_of_bind accepted
  obtain ⟨walked, outcome, -⟩ := ok_of_bind accepted
  have surveyed := (walk_survey options.limit (Buffer.sound_of_reserve reserved).1 input).of_ok outcome
  exact ⟨_, surveyed.1⟩

section Trailers

variable {front : List Written} {written : Written} {trailer : Bytes} {failure : Failure}
  (frontWellFormed : ∀ each ∈ front, each.WellFormed) (wellFormed : written.WellFormed)
  (eight : trailer.length = trailerLength)
  (wrong : checkTrailer trailer written.output = .error failure) (rest : Bytes)

include frontWellFormed wellFormed eight wrong

/-- A survey stops where a trailer is refused. -/
theorem survey_withTrailer :
    survey (front.flatMap Written.bytes ++ (written.withTrailer trailer ++ rest)) =
      ⟨outputs front ++ written.output, .error failure⟩ := by
  have member := surveyMember_withTrailer wellFormed eight rest
  rw [wrong] at member
  rw [survey_append frontWellFormed (wellFormed.begins_withTrailer trailer rest),
    survey_of_error (congrArg Survey.result member), member]
  rfl

/-- **A member whose trailer is refused is never accepted**, whatever the options are. -/
theorem not_accepted_of_trailer (options : Options) (decoded : Decoded) :
    decode (front.flatMap Written.bytes ++ (written.withTrailer trailer ++ rest)) options
      ≠ .ok decoded := by
  intro accepted
  obtain ⟨_, found⟩ := survey_of_decode accepted
  rw [survey_withTrailer frontWellFormed wellFormed eight wrong rest] at found
  cases found

/-- Within the limit, what is wrong with the trailer is what is reported. -/
theorem yields_of_trailer {options : Options} (unset : options.initialCapacity = none)
    (under : (outputs front ++ written.output).length ≤ options.limit) :
    Yields (outputs front ++ written.output).length (.error failure)
      (decode (front.flatMap Written.bytes ++ (written.withTrailer trailer ++ rest)) options) := by
  have surveyed := decode_survey unset
    (front.flatMap Written.bytes ++ (written.withTrailer trailer ++ rest))
  rw [survey_withTrailer frontWellFormed wellFormed eight wrong rest] at surveyed
  rcases surveyed with same | ⟨refusal, failed, refused⟩
  · rw [same]
    exact .expected
  · obtain ⟨large, asked, rfl⟩ := refused.exhausts (Or.inl under)
    rw [failed]
    exact .outOfMemory asked large

end Trailers

/-- The trailer of another payload is refused for the checksum in it. -/
theorem checkTrailer_of_crc32_ne {first second : Bytes} (differs : crc32 first ≠ crc32 second) :
    checkTrailer (trailerOf first) second =
      .error (.checksumMismatch (crc32 first) (crc32 second)) := by
  have stored : UInt32.ofNat (Bytes.littleEndian ((trailerOf first).take 4)) = crc32 first := by
    rw [take_trailerOf, Header.ofNat_littleEndian (crc32 first).toNat_lt]
  have other : (trailerOf first).take 4 ≠ (trailerOf second).take 4 := by
    intro same
    rw [same, take_trailerOf, Header.ofNat_littleEndian (crc32 second).toNat_lt] at stored
    exact differs stored.symm
  rw [checkTrailer_of_checksum (length_trailerOf first) other, stored]

end Gzip

/-! ### Streams -/

namespace Zlib

section Streams

variable {cmf flg : UInt8} {body output rest : Bytes}

/-- **A stream with a wrong trailer is never accepted**, whatever its header and the options are. -/
theorem not_accepted_of_wrongTrailer (complete : inflate body = (output, .complete rest))
    (wrong : WrongTrailer output rest) (options : Options) (decoded : Decoded) :
    decode (cmf :: flg :: body) options ≠ .ok decoded := by
  intro accepted
  have long := wrong.minLength_le complete cmf flg
  obtain ⟨header, parsed, -⟩ := ok_of_bind ((decode_eq_conclude _ options).symm.trans accepted)
  have valid := (Header.isOk_parse_iff body).mp ⟨header, parsed⟩
  cases reserved : Buffer.reserve (seedCapacity (cmf :: flg :: body).length options) with
  | error failure => cases accepted.symm.trans (decode_of_refused_reserve valid long reserved)
  | ok buffer =>
    rcases decode_judged valid long reserved with judgement | ⟨failure, failed, -⟩
    · rw [wrong.fault complete] at judgement
      cases accepted.symm.trans judgement
    · cases accepted.symm.trans failed

/-- A checksum that is written in front of some bytes is the one that is stored there. -/
theorem storedChecksum_append (checksum : UInt32) (rest : Bytes) :
    storedChecksum (Bytes.ofBigEndian 4 checksum.toNat ++ rest) = checksum := by
  have four : (Bytes.ofBigEndian 4 checksum.toNat).length = trailerLength := length_ofBigEndian 4 _
  rw [storedChecksum, List.take_left' four, ofNat_bigEndian_ofBigEndian]

/-- The checksum of another payload is a wrong trailer. -/
theorem wrongTrailer_of_adler32_ne {first second : Bytes} (differs : adler32 first ≠ adler32 second)
    (rest : Bytes) :
    WrongTrailer second (Bytes.ofBigEndian 4 (adler32 first).toNat ++ rest) := by
  refine ⟨?_, ?_⟩
  · rw [List.length_append, length_ofBigEndian]
    exact Nat.le_add_right _ _
  · rwa [storedChecksum_append]

end Streams

end Zlib

/-! ### Both containers -/

/-- **Local damage is noticed**, in payloads of any length. Of two different byte strings of one length:

* if they differ in a burst, their CRC-32s differ. No gzip file is accepted in which a member holds the
  one under the trailer of the other, and within the limit the two checksums are reported;
* if they differ at one place or at two near each other, their Adler-32s differ. No zlib stream is
  accepted that holds the one under the checksum of the other, and within the limit the two checksums
  are reported. -/
theorem local_damage {first second : Bytes} (length : first.length = second.length)
    (different : first ≠ second) :
    (InBurst first second → crc32 first ≠ crc32 second ∧
      ∀ (front : List Gzip.Written) (written : Gzip.Written) (rest : Bytes) (options : Options),
        (∀ each ∈ front, each.WellFormed) → written.WellFormed → written.output = second →
        (∀ decoded, Gzip.decode (front.flatMap Gzip.Written.bytes ++
            (written.head ++ written.body ++ Gzip.trailerOf first ++ rest)) options ≠ .ok decoded) ∧
        (options.initialCapacity = none → (Gzip.outputs front ++ second).length ≤ options.limit →
          Yields (Gzip.outputs front ++ second).length
            (.error (.checksumMismatch (crc32 first) (crc32 second)))
            (Gzip.decode (front.flatMap Gzip.Written.bytes ++
              (written.head ++ written.body ++ Gzip.trailerOf first ++ rest)) options))) ∧
    (AtTwoPlaces first second → adler32 first ≠ adler32 second ∧
      ∀ (cmf flg : UInt8) (body rest : Bytes) (options : Options),
        inflate body = (second, .complete []) →
        (∀ decoded, Zlib.decode
            (cmf :: flg :: (body ++ (Bytes.ofBigEndian 4 (adler32 first).toNat ++ rest))) options
              ≠ .ok decoded) ∧
        (Zlib.Header.Valid cmf flg → options.initialCapacity = none →
          second.length ≤ options.limit →
          Yields second.length (.error (.checksumMismatch (adler32 first) (adler32 second)))
            (Zlib.decode
              (cmf :: flg :: (body ++ (Bytes.ofBigEndian 4 (adler32 first).toNat ++ rest)))
              options))) := by
  constructor
  · intro burst
    have differs := crc32_ne_of_inBurst length different burst
    refine ⟨differs, ?_⟩
    rintro front written rest options frontWellFormed wellFormed rfl
    have eight := Gzip.length_trailerOf first
    have wrong := Gzip.checkTrailer_of_crc32_ne differs
    exact ⟨Gzip.not_accepted_of_trailer frontWellFormed wellFormed eight wrong rest options,
      Gzip.yields_of_trailer frontWellFormed wellFormed eight wrong rest⟩
  · intro few
    have differs := adler32_ne_of_atTwoPlaces length few
    refine ⟨differs, ?_⟩
    intro cmf flg body rest options complete
    have whole := Deflate.inflate_append complete
      (Bytes.ofBigEndian 4 (adler32 first).toNat ++ rest)
    have wrong := Zlib.wrongTrailer_of_adler32_ne differs rest
    rw [List.nil_append] at whole
    refine ⟨Zlib.not_accepted_of_wrongTrailer whole wrong options, fun valid unset under => ?_⟩
    obtain ⟨buffer, reserved, -, -⟩ := Buffer.sound_seed unset
      (cmf :: flg :: (body ++ (Bytes.ofBigEndian 4 (adler32 first).toNat ++ rest))).length
    have named := Zlib.yields_mismatch valid whole wrong reserved under
    rwa [Zlib.storedChecksum_append] at named

/-- One letter under the checksums of another one. -/
theorem local_damage_letter :
    ([0x62] : Bytes).length = ([0x61] : Bytes).length ∧ ([0x62] : Bytes) ≠ [0x61] ∧
      InBurst [0x62] [0x61] ∧ AtTwoPlaces [0x62] [0x61] ∧
      Gzip.decode (Gzip.letter.bytes ++
          (Gzip.letter.head ++ Gzip.letter.body ++ Gzip.trailerOf [0x62])) {} =
        .error (.checksumMismatch 0x71beeff9 0xe8b7be43) ∧
      Zlib.decode [0x78, 0x9c, 1, 1, 0, 0xfe, 0xff, 0x61, 0, 0x63, 0, 0x63] {} =
        .error (.checksumMismatch 0x00630063 0x00620062) := by
  have alike : ∀ position, position ≠ 0 → ([0x62] : Bytes)[position]? = ([0x61] : Bytes)[position]? := by
    intro position later
    obtain ⟨position, rfl⟩ := Nat.exists_eq_succ_of_ne_zero later
    rfl
  have atStart : ∀ position, ([0x62] : Bytes)[position]? ≠ ([0x61] : Bytes)[position]? →
      position = 0 := fun position differs => not_imp_comm.mp (alike position) differs
  have burst : InBurst [0x62] [0x61] := by
    refine ⟨0, fun position differs => ?_⟩
    rw [atStart position differs]
    decide
  have few : AtTwoPlaces [0x62] [0x61] := by
    refine ⟨0, 0, Nat.le_refl 0, by decide, fun position => ⟨?_, ?_⟩⟩
    · exact fun differs => Or.inl (atStart position differs)
    · rintro (rfl | rfl) <;> decide
  have length : ([0x62] : Bytes).length = ([0x61] : Bytes).length := rfl
  have different : ([0x62] : Bytes) ≠ [0x61] := by decide
  obtain ⟨inGzip, inZlib⟩ := local_damage length different
  have gzip := ((inGzip burst).2 [Gzip.letter] Gzip.letter [] {}
    (List.forall_mem_singleton.mpr Gzip.wellFormed_letter) Gzip.wellFormed_letter rfl).2 rfl
      (by decide)
  have complete : inflate [1, 1, 0, 0xfe, 0xff, 0x61] = ([0x61], .complete []) := by cbv
  have zlib := ((inZlib few).2 0x78 0x9c _ [] {} complete).2
    ⟨by decide, by decide, by decide, by decide⟩ rfl (by decide)
  have checksums : crc32 [0x62] = 0x71beeff9 ∧ crc32 [0x61] = 0xe8b7be43 := by decide +kernel
  have sums : adler32 [0x62] = 0x00630063 ∧ adler32 [0x61] = 0x00620062 := by decide
  have inMember := gzip.eq (by decide)
  have inStream := zlib.eq (by decide)
  rw [checksums.1, checksums.2, List.flatMap_singleton, List.append_nil] at inMember
  rw [sums.1, sums.2] at inStream
  exact ⟨length, different, burst, few, inMember, inStream⟩

end Inflate
